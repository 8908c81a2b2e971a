import NewApiPool.Lib.Runs

/-!
# Registration jobs of the account pool

A job is a row of `pool_jobs`. It is created by `EnqueuePoolRecipe` and run by one of three
executors: the worker of this process, an external worker that is told of it by
`NotifyExternalRecipeWorker` and answers with callbacks, or a user who hands in the result.
All of them load the row, change their copy with `UpdateStatus`, and save the whole copy.

The reads and writes of the database are the steps of the model. The rows of `pool_jobs` are a
list, and the id of a row is its place there; what is on its way with a copy of a row is a
`Task`. The recipes do not change but for their counters, and the registered runners do not
change at all. The rows of `pool_accounts` are known by the job they were inserted for.
-/

namespace NewApiPool.Pool

open EventSystem

/-! ### Rows -/

def statusPending : String := "pending"

def statusManualPending : String := "manual_pending"

def statusRunning : String := "running"

def statusSuccess : String := "success"

def statusFailed : String := "failed"

def statusCancel : String := "cancelled"

structure PoolJob where
  id : ℕ
  recipeKey : String
  status : String
  resultJSON : String := ""
  errorMsg : String := ""
  startedAt : ℕ := 0
  finishedAt : ℕ := 0
deriving DecidableEq, Repr

/-- `PoolRecipe`: what the code here reads of it. -/
structure PoolRecipe where
  manualMode : Bool
  webhookURL : String
  enabled : Bool
deriving DecidableEq, Repr

/-- `UpdateStatus`, up to its `Save` -/
def PoolJob.updateStatus (j : PoolJob) (now : ℕ) (status resultJSON errMsg : String) : PoolJob :=
  { j with
    status := status
    resultJSON := if resultJSON ≠ "" then resultJSON else j.resultJSON
    errorMsg := if errMsg ≠ "" then errMsg else j.errorMsg
    startedAt := if status = statusRunning ∧ j.startedAt = 0 then now else j.startedAt
    finishedAt :=
      if status = statusSuccess ∨ status = statusFailed ∨ status = statusCancel then now
      else j.finishedAt }

/-- The recipes, the runners and how many jobs run at a time. -/
structure Env where
  recipes : String → Option PoolRecipe
  /-- `GetRunner` finds one -/
  hasRunner : String → Bool
  maxConcurrent : ℕ

/-! ### What is on its way -/

/-- What is on its way, and what it does next. A task of the worker has a slot of
`workerSemaphore`. -/
inductive Task where
  /-- `NotifyExternalRecipeWorker` posts the job to the webhook -/
  | notify (j : PoolJob)
  /-- `runJob` saves that the job is running -/
  | runJob (j : PoolJob)
  /-- `runJob` calls the runner -/
  | runner (j : PoolJob)
  /-- the row of `pool_accounts` is inserted, by `runJob` or `ManualSubmitJobResult` -/
  | register (j : PoolJob) (slot : Bool)
  /-- `UpdateStatus` has changed the copy and saves it; the recipe is counted after that -/
  | save (j : PoolJob) (counts : Option Bool) (slot : Bool)
  /-- a counter of the recipe is incremented: that of the successes or that of the failures -/
  | count (key : String) (success slot : Bool)
  /-- `dispatchOnce` goes on with the jobs it has found -/
  | dispatch (jobs : List PoolJob)
  /-- `dispatchOnce` saves a job as failed -/
  | dispatchSave (j : PoolJob) (counts : Bool) (jobs : List PoolJob)
  /-- `dispatchOnce` counts a failure -/
  | dispatchCount (key : String) (jobs : List PoolJob)
  | done
deriving DecidableEq, Repr

/-- How a call to the outside ends: the webhook, the runner, the insertion of the account. -/
inductive Outcome where
  | ok (resultJSON : String)
  | error (err : String)
  /-- the runner returns no key -/
  | empty
  | panic (reason : String)
deriving DecidableEq, Repr

def Outcome.errorMsg : Outcome → String
  | .ok _ => ""
  | .error err => err
  | .empty => "runner 返回空 Key"
  | .panic reason => "worker panic: " ++ reason

/-- The tables, the clock, the slots that are taken, and what is on its way. -/
structure State where
  now : ℕ := 0
  jobs : List PoolJob := []
  /-- `success_count` (at `true`) and `failure_count` (at `false`) of the recipes -/
  counts : Bool → String → ℕ := fun _ _ => 0
  inflight : ℕ := 0
  tasks : List Task := []
  /-- the job of each row of `pool_accounts` -/
  accounts : List ℕ := []
  /-- the jobs that were handed to an executor: a runner or a webhook -/
  runs : List ℕ := []

/-- What happens to jobs: time passes, they are enqueued, found by the dispatcher, submitted or
cancelled by hand or reported by a callback, and a task goes on by one statement. -/
inductive Event where
  | tick (d : ℕ)
  /-- `EnqueuePoolRecipe` inserts a job -/
  | enqueue (key : String)
  /-- `dispatchOnce` looks for pending jobs -/
  | scan
  /-- `ManualSubmitJobResult` loads the job -/
  | manualSubmit (id : ℕ) (accountName keyRaw : String)
  /-- `CancelPoolJob` loads the job -/
  | cancel (id : ℕ)
  /-- `ReceivePoolJobCallback` loads the job -/
  | callback (id : ℕ) (status resultJSON errorMsg : String)
  /-- a task goes on to its next statement -/
  | exec (i : ℕ) (o : Outcome)
deriving DecidableEq, Repr

/-- Whether a callback counts, and as what. -/
def countOf (status : String) : Option Bool :=
  if status = statusSuccess then some true
  else if status = statusFailed then some false
  else none

namespace State

def spawn (s : State) (t : Task) : State := { s with tasks := s.tasks ++ [t] }

def set (s : State) (i : ℕ) (t : Task) : State := { s with tasks := s.tasks.set i t }

/-- `DB.Save(j)`: all columns of the row. -/
def saveJob (s : State) (j : PoolJob) : State := { s with jobs := s.jobs.set j.id j }

/-- The counter of a recipe is one more. -/
def incrementRecipeCounter (s : State) (key : String) (success : Bool) : State :=
  { s with
    counts := fun b k => if b = success ∧ k = key then s.counts b k + 1 else s.counts b k }

/-- A slot of the worker is given back. -/
def release (s : State) (slot : Bool) : State :=
  if slot then { s with inflight := s.inflight - 1 } else s

/-- The copy of the job is to be saved. -/
def setSave (s : State) (i : ℕ) (j : PoolJob) (counts : Option Bool) (slot : Bool) : State :=
  s.set i (.save j counts slot)

/-- `SearchPoolJobs("", pending, 0, 20)` -/
def pendingJobs (s : State) : List PoolJob :=
  ((s.jobs.filter fun j => j.status = statusPending).reverse).take 20

/-- `EnqueuePoolRecipe` -/
def enqueue (env : Env) (s : State) (key : String) : State :=
  match env.recipes key with
  | none => s
  | some r =>
    if r.enabled = false then s
    else if r.manualMode then
      { s with jobs := s.jobs ++ [⟨s.jobs.length, key, statusManualPending, "", "", 0, 0⟩] }
    else if env.hasRunner key = false ∧ r.webhookURL = "" then s
    else
      let job : PoolJob := ⟨s.jobs.length, key, statusPending, "", "", 0, 0⟩
      let s := { s with jobs := s.jobs ++ [job] }
      if env.hasRunner key then s else s.spawn (.notify job)

/-- The next job of `dispatchOnce`. -/
def dispatch (env : Env) (s : State) (i : ℕ) (job : PoolJob) (jobs : List PoolJob) : State :=
  match env.recipes job.recipeKey with
  | none =>
    s.set i (.dispatchSave (job.updateStatus s.now statusFailed "" "recipe 不存在: record not found")
      false jobs)
  | some recipe =>
    if recipe.manualMode then s.set i (.dispatch jobs)
    else if env.hasRunner job.recipeKey = false then
      s.set i (.dispatchSave (job.updateStatus s.now statusFailed ""
        ("未找到 Runner: " ++ job.recipeKey ++ "（可能尚未实现全自动）")) true jobs)
    else if env.maxConcurrent ≤ s.inflight then s.set i (.dispatch jobs)
    else ({ s with inflight := s.inflight + 1 }.set i (.dispatch jobs)).spawn (.runJob job)

/-- The next statement of a task. -/
def exec (env : Env) (s : State) (i : ℕ) (o : Outcome) : Task → State
  | .notify j =>
    let s := { s with runs := s.runs ++ [j.id] }
    match o with
    | .ok _ => s.setSave i (j.updateStatus s.now statusRunning "" "") none false
    | o => s.setSave i (j.updateStatus s.now statusFailed "" o.errorMsg) none false
  | .runJob j =>
    let j := j.updateStatus s.now statusRunning "" ""
    (s.saveJob j).set i (.runner j)
  | .runner j =>
    let s := { s with runs := s.runs ++ [j.id] }
    match o with
    | .ok _ => s.set i (.register j true)
    -- the slot is given back before the panic is recorded
    | .panic reason =>
      (s.release true).setSave i
        (j.updateStatus s.now statusFailed "" (Outcome.panic reason).errorMsg) (some false) false
    | o => s.setSave i (j.updateStatus s.now statusFailed "" o.errorMsg) (some false) true
  | .register j slot =>
    match o with
    | .ok resultJSON =>
      { s with accounts := s.accounts ++ [j.id] }.setSave i
        (j.updateStatus s.now statusSuccess resultJSON "") (some true) slot
    | o =>
      if slot then
        s.setSave i (j.updateStatus s.now statusFailed ""
          ("runner 成功但 pool_accounts 写入失败: " ++ o.errorMsg)) (some false) slot
      else s.set i .done
  | .save j (some success) slot => (s.saveJob j).set i (.count j.recipeKey success slot)
  | .save j none slot => ((s.saveJob j).release slot).set i .done
  | .count key success slot => ((s.incrementRecipeCounter key success).release slot).set i .done
  | .dispatch [] => s.set i .done
  | .dispatch (job :: jobs) => s.dispatch env i job jobs
  | .dispatchSave j true jobs => (s.saveJob j).set i (.dispatchCount j.recipeKey jobs)
  | .dispatchSave j false jobs => (s.saveJob j).set i (.dispatch jobs)
  | .dispatchCount key jobs => (s.incrementRecipeCounter key false).set i (.dispatch jobs)
  | .done => s

end State

/-- The task is `dispatchOnce`, which one goroutine calls again and again. -/
def Task.isDispatch : Task → Bool
  | .dispatch _ => true
  | .dispatchSave _ _ _ => true
  | .dispatchCount _ _ => true
  | _ => false

namespace State

/-- One step. A call for a job that is not there, or in another status than the call asks for,
leaves everything as it is. -/
def step (env : Env) (s : State) : Event → State
  | .tick d => { s with now := s.now + d }
  | .enqueue key => s.enqueue env key
  | .scan => if s.tasks.any Task.isDispatch then s else s.spawn (.dispatch s.pendingJobs)
  | .manualSubmit id accountName keyRaw =>
    match s.jobs[id]? with
    | none => s
    | some job =>
      if job.status ≠ statusManualPending then s
      else if (env.recipes job.recipeKey).isNone then s
      else if accountName = "" ∨ keyRaw = "" then s
      else s.spawn (.register job false)
  | .cancel id =>
    match s.jobs[id]? with
    | none => s
    | some job =>
      if job.status = statusSuccess ∨ job.status = statusFailed then s
      else s.spawn (.save (job.updateStatus s.now statusCancel "" "manually cancelled") none false)
  | .callback id status resultJSON errorMsg =>
    match s.jobs[id]? with
    | none => s
    | some job =>
      s.spawn (.save (job.updateStatus s.now status resultJSON errorMsg) (countOf status) false)
  | .exec i o =>
    match s.tasks[i]? with
    | none => s
    | some t => s.exec env i o t

end State

end NewApiPool.Pool
