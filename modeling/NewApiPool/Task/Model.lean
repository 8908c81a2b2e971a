import Mathlib.Data.List.Sort
import NewApiPool.Lib.Runs
import NewApiPool.Billing.Accounts

/-!
# Asynchronous tasks and the four writers of their rows

A task is paid for when it is submitted, and one row of `tasks` follows it from
then on. Four kinds of visitors write that row: the timeout sweeper, the Suno
poller, the video poller and a user's realtime fetch. Each of them reads the row
once, works on its own copy, and sends statements to the database: a write of the
row, guarded by the status it read or not, and the calls of `RefundTaskQuota` or
of `settleTaskBillingOnComplete`.

A visit is its copy of the task and the statements it has still to send; an event
either gives a visit something to work on or lets one statement of one visit
through. So the lists of events are the interleavings of any number of visits, on
any number of nodes, at the granularity of single statements.

The fields of a task that none of these functions writes – who submitted it, what
pays for it – are kept apart, in `NewApiPool.Task.TaskIdent`.
-/

namespace NewApiPool.Task

open Billing

/-! ### The data -/

/-- `model.TaskStatus`. The upstream answers with any text, and the Suno poller
stores it as it is. -/
structure TaskStatus where
  text : String
deriving DecidableEq, Repr

namespace TaskStatus

/-- `TaskStatusNotStart`. -/
def notStart : TaskStatus := ⟨"NOT_START"⟩

/-- `TaskStatusSubmitted`. -/
def submitted : TaskStatus := ⟨"SUBMITTED"⟩

/-- `TaskStatusQueued`. -/
def queued : TaskStatus := ⟨"QUEUED"⟩

/-- `TaskStatusInProgress`. -/
def inProgress : TaskStatus := ⟨"IN_PROGRESS"⟩

/-- `TaskStatusFailure`. -/
def failure : TaskStatus := ⟨"FAILURE"⟩

/-- `TaskStatusSuccess`. -/
def success : TaskStatus := ⟨"SUCCESS"⟩

/-- A final status: a task that has failed or succeeded is not to change its status again. -/
def finished (s : TaskStatus) : Bool := decide (s = failure ∨ s = success)

@[simp] theorem finished_failure : failure.finished = true := by decide

@[simp] theorem finished_success : success.finished = true := by decide

theorem ne_of_finished {s t : TaskStatus} (hs : s.finished = true) (ht : t.finished = false) :
    s ≠ t := by
  rintro rfl
  rw [hs] at ht
  cases ht

end TaskStatus

/-- The columns of a row of `tasks` that the visitors write. -/
structure TaskRow where
  status : TaskStatus
  failReason : String
  submitTime : Int
  startTime : Int
  finishTime : Int
  progress : String
  quota : Int
  resultURL : String
  /-- The raw JSON of `data`. -/
  data : String
deriving DecidableEq, Repr

/-- The columns they do not write. -/
structure TaskIdent where
  taskID : String
  /-- Whether `platform` is `suno`; otherwise the video poller is in charge. -/
  isSuno : Bool
  upstreamTaskID : String
  channelId : Int
  /-- Whether the channel is of type Gemini or Vertex AI. -/
  isRealtimeChannel : Bool
  userId : Int
  billingSource : String
  subscriptionId : Int
  tokenId : Int
  /-- `BillingContext.PerCallBilling`, `false` without a billing context. -/
  perCallBilling : Bool
deriving DecidableEq, Repr

def TaskIdent.getUpstreamTaskID (id : TaskIdent) : String :=
  if id.upstreamTaskID ≠ "" then id.upstreamTaskID else id.taskID

/-- The settings the visitors read, and `common.Marshal` on raw JSON. -/
structure Settings where
  taskTimeoutMinutes : Int
  serverAddress : String
  marshal : String → List UInt8

/-- `taskcommon.BuildProxyURL`. -/
def buildProxyURL (cfg : Settings) (taskID : String) : String :=
  cfg.serverAddress ++ "/v1/videos/" ++ taskID ++ "/content"

structure TaskSnapshot where
  status : TaskStatus
  progress : String
  startTime : Int
  finishTime : Int
  failReason : String
  resultURL : String
  data : String
deriving DecidableEq, Repr

def TaskRow.snapshot (t : TaskRow) : TaskSnapshot :=
  ⟨t.status, t.progress, t.startTime, t.finishTime, t.failReason, t.resultURL, t.data⟩

/-- `dto.SunoDataResponse`. -/
structure SunoDataResponse where
  status : String
  failReason : String
  submitTime : Int
  startTime : Int
  finishTime : Int
  data : String
deriving DecidableEq, Repr

/-- `relaycommon.TaskInfo`. -/
structure TaskInfo where
  status : String
  reason : String
  url : String
  progress : String
  totalTokens : Int
deriving DecidableEq, Repr

/-- What the body of a reply with an empty status turns out to be. -/
inductive ErrorBody where
  /-- It is not JSON. -/
  | unreadable
  /-- An OpenAI error with this code. -/
  | openaiError (code : String)
  /-- JSON, but not an error that is known. -/
  | unrecognized
deriving DecidableEq, Repr

/-- What the video poller gets from the upstream and the adaptor: the parsed
result, the redacted body, what the body is if the status is empty, what
`AdjustBillingOnComplete` answers and what the recalculation by tokens comes to
(0 when it gives up). -/
structure VideoReply where
  taskResult : TaskInfo
  body : String
  errorBody : ErrorBody
  adjustedQuota : Int
  tokenQuota : Int
deriving DecidableEq, Repr

/-! ### The statements of a visit -/

/-- What is to be done once a guarded write of the row was won. -/
inductive Due where
  | nothing
  /-- The sweeper exempts the task from a refund. -/
  | legacy
  | refund
  | settle (actualQuota : Int)
deriving DecidableEq, Repr

/-- A statement a visit sends to the database. -/
inductive Stmt where
  /-- `UpdateWithStatus(fromStatus)`, with what follows if it is won. -/
  | updateWithStatus (t : TaskRow) (fromStatus : TaskStatus) (won : Due)
  /-- `Update`: a save that is not guarded. -/
  | update (t : TaskRow)
  /-- `TaskBulkUpdateByID` with status `FAILURE`, and a reason if one is given. -/
  | bulkUpdate (failReason : Option String)
  /-- The funding half of `RefundTaskQuota`. -/
  | refundFunding (quota : Int)
  /-- The funding half of `settleTaskBillingOnComplete`; `actualQuota` is 0 when
  it keeps the quota. -/
  | settleFunding (quota actualQuota : Int)
  /-- `taskAdjustTokenQuota`. -/
  | adjustToken (delta : Int)
deriving DecidableEq, Repr

/-- The statements of `RefundTaskQuota`, which does nothing for a quota of 0. -/
def refundTaskQuota (t : TaskRow) : List Stmt :=
  if t.quota = 0 then [] else [.refundFunding t.quota]

/-- The statements that follow a write that was won. -/
def Due.stmts (t : TaskRow) : Due → List Stmt
  | .nothing => []
  | .legacy => []
  | .refund => refundTaskQuota t
  | .settle actualQuota => [.settleFunding t.quota actualQuota]

/-! ### The sweeper -/

def legacyTaskCutoff : Int := 1740182400

def TaskRow.isLegacy (t : TaskRow) : Bool :=
  decide (t.submitTime > 0 ∧ t.submitTime < legacyTaskCutoff)

/-- The task as `sweepTimedOutTasks` writes it. -/
def TaskRow.timedOut (cfg : Settings) (now : Int) (t : TaskRow) : TaskRow :=
  { t with
    status := .failure, progress := "100%", finishTime := now,
    failReason := if t.isLegacy then "任务超时（旧系统遗留任务，不进行退款，请联系管理员）"
      else "任务超时（" ++ toString cfg.taskTimeoutMinutes ++ "分钟）" }

/-- What `sweepTimedOutTasks` sends for one task. -/
def sweepTimedOutTask (cfg : Settings) (now : Int) (t : TaskRow) : List Stmt :=
  [.updateWithStatus (t.timedOut cfg now) t.status
    (if t.isLegacy then .legacy else if t.quota ≠ 0 then .refund else .nothing)]

/-! ### The Suno poller -/

def taskNeedsUpdate (cfg : Settings) (old : TaskRow) (new : SunoDataResponse) : Bool :=
  old.submitTime != new.submitTime || old.startTime != new.startTime ||
  old.finishTime != new.finishTime || old.status.text != new.status ||
  old.failReason != new.failReason ||
  (old.status.finished && old.progress != "100%") ||
  (cfg.marshal old.data).mergeSort != (cfg.marshal new.data).mergeSort

/-- Whether `updateSunoTasks` refunds the task: the reply has a reason of failure,
or the status it leaves is `FAILURE`. -/
def sunoFails (t : TaskRow) (item : SunoDataResponse) : Bool :=
  item.failReason != "" || decide (t.status = .failure)

/-- The task as `updateSunoTasks` saves it: what the reply says, and what it leaves
empty as it was. -/
def TaskRow.applySuno (t : TaskRow) (item : SunoDataResponse) : TaskRow :=
  let t₁ := { t with
    status := if item.status ≠ "" then ⟨item.status⟩ else t.status
    failReason := if item.failReason ≠ "" then item.failReason else t.failReason
    submitTime := if item.submitTime ≠ 0 then item.submitTime else t.submitTime
    startTime := if item.startTime ≠ 0 then item.startTime else t.startTime
    finishTime := if item.finishTime ≠ 0 then item.finishTime else t.finishTime
    data := item.data }
  if sunoFails t₁ item || item.status == "SUCCESS" then { t₁ with progress := "100%" } else t₁

/-- What `updateSunoTasks` does with one item of the reply: the task it leaves in
memory and the statements it sends. The refund comes before the save. -/
def updateSunoTask (cfg : Settings) (t : TaskRow) (item : SunoDataResponse) :
    TaskRow × List Stmt :=
  if taskNeedsUpdate cfg t item then
    let t' := t.applySuno item
    -- the refund is decided by the copy, and the save does not look at the row
    (t', (if sunoFails t' item then refundTaskQuota t' else []) ++ [.update t'])
  else (t, [])

/-! ### The video poller -/

/-- The result the poller acts upon: an empty status is a failure if the body can
be read, unless the upstream limits the rate. -/
def VideoReply.effectiveResult (r : VideoReply) : Option TaskInfo :=
  if r.taskResult.status = "" then
    match r.errorBody with
    | .unreadable => some r.taskResult
    | .openaiError code =>
      if code = "429" then none else some ⟨"FAILURE", "upstream returned error", "", "", 0⟩
    | .unrecognized => some ⟨"FAILURE", "upstream returned unrecognized message", "", "", 0⟩
  else some r.taskResult

/-- The task as the `switch` of `updateVideoSingleTask` leaves it, if the status is
one it knows. -/
def TaskRow.applyVideo (cfg : Settings) (id : TaskIdent) (now : Int) (t : TaskRow)
    (res : TaskInfo) : Option TaskRow :=
  if res.status = "SUBMITTED" then some { t with status := .submitted, progress := "10%" }
  else if res.status = "QUEUED" then some { t with status := .queued, progress := "20%" }
  else if res.status = "IN_PROGRESS" then
    some { t with
      status := .inProgress, progress := "30%",
      startTime := if t.startTime = 0 then now else t.startTime }
  else if res.status = "SUCCESS" then
    some { t with
      status := .success, progress := "100%",
      finishTime := if t.finishTime = 0 then now else t.finishTime
      resultURL := if ("data:".toList.isPrefixOf res.url.toList) then buildProxyURL cfg id.taskID
        else if res.url ≠ "" then res.url else buildProxyURL cfg id.taskID }
  else if res.status = "FAILURE" then
    some { t with
      status := .failure, progress := "100%",
      finishTime := if t.finishTime = 0 then now else t.finishTime
      failReason := res.reason }
  else none

/-- The progress the reply gives, if it gives one; that of a failure is 100%. -/
def TaskRow.applyProgress (t : TaskRow) (res : TaskInfo) : TaskRow :=
  if res.status = "FAILURE" then { t with progress := "100%" }
  else if res.progress ≠ "" then { t with progress := res.progress } else t

/-- What `settleTaskBillingOnComplete` settles at, 0 if it keeps the quota. -/
def settledQuota (id : TaskIdent) (r : VideoReply) (res : TaskInfo) : Int :=
  if id.perCallBilling then 0
  else if r.adjustedQuota > 0 then r.adjustedQuota
  else if res.totalTokens > 0 then r.tokenQuota
  else 0

/-- What `shouldSettle` and `shouldRefund` say. -/
def videoBilling (id : TaskIdent) (t : TaskRow) (r : VideoReply) (res : TaskInfo) : Due :=
  if res.status = "SUCCESS" then .settle (settledQuota id r res)
  else if res.status = "FAILURE" ∧ t.quota ≠ 0 then .refund
  else .nothing

/-- `updateVideoSingleTask`: the task it leaves in memory and the statements it
sends. -/
def updateVideoSingleTask (cfg : Settings) (id : TaskIdent) (now : Int) (t : TaskRow)
    (r : VideoReply) : TaskRow × List Stmt :=
  let snap := t.snapshot
  let t₀ := { t with data := r.body }
  match r.effectiveResult with
  | none => (t₀, [])
  | some res =>
    match t₀.applyVideo cfg id now res with
    -- an unknown status is an error, but the copy has it already
    | none => ({ t₀ with status := ⟨res.status⟩ }, [])
    | some t₁ =>
      let t' := t₁.applyProgress res
      let billing := videoBilling id t r res
      if t'.status.finished && decide (snap.status ≠ t'.status) then
        (t', [.updateWithStatus t' snap.status billing])
      -- here the billing does not depend on the write
      else if snap ≠ t'.snapshot then
        (t', .updateWithStatus t' snap.status .nothing :: billing.stmts t')
      else (t', billing.stmts t')

/-! ### The realtime fetch -/

/-- The task as `tryRealtimeFetch` leaves it. -/
def TaskRow.applyRealtime (cfg : Settings) (id : TaskIdent) (t : TaskRow) (ti : TaskInfo) :
    TaskRow :=
  let t₁ := { t with
    status := if ti.status ≠ "" then ⟨ti.status⟩ else t.status
    progress := if ti.progress ≠ "" then ti.progress else t.progress }
  if "data:".toList.isPrefixOf ti.url.toList then t₁
  else if ti.url ≠ "" then { t₁ with resultURL := ti.url }
  else if t₁.status = .success then { t₁ with resultURL := buildProxyURL cfg id.taskID }
  else t₁

def tryRealtimeFetch (cfg : Settings) (id : TaskIdent) (t : TaskRow) (ti : TaskInfo) :
    TaskRow × List Stmt :=
  let t' := t.applyRealtime cfg id ti
  (t', if t.snapshot ≠ t'.snapshot then [.updateWithStatus t' t.status .nothing] else [])

/-! ### Moving the money -/

def taskIsSubscription (id : TaskIdent) : Bool :=
  decide (id.billingSource = "subscription" ∧ id.subscriptionId > 0)

def taskAdjustFunding (id : TaskIdent) (w : Accounts) (delta : Int) : Except String Accounts :=
  if taskIsSubscription id then
    postConsumeUserSubscriptionDelta none w id.subscriptionId delta
  else if delta > 0 then decreaseUserQuota none w id.userId delta
  else increaseUserQuota none w id.userId (-delta)

/-- `taskAdjustTokenQuota`; `tokenKey` is what `resolveTokenKey` answers. -/
def taskAdjustTokenQuota (id : TaskIdent) (tokenKey : String) (w : Accounts) (delta : Int) :
    Accounts :=
  if id.tokenId ≤ 0 ∨ delta = 0 then w
  else if tokenKey = "" then w
  else
    match (if delta > 0 then decreaseTokenQuota none w id.tokenId delta
      else increaseTokenQuota none w id.tokenId (-delta)) with
    | .ok w' => w'
    | .error _ => w

/-! ### The system -/

/-- What a visit still waits for: the items of a reply of Suno, replies of a video channel, the one
reply to a realtime fetch, or nothing more. -/
inductive Kind where
  /-- Items of the reply of a Suno channel. -/
  | suno
  /-- Replies of a video channel. -/
  | video
  /-- The reply to a realtime fetch. -/
  | fetch
  /-- Nothing more. -/
  | spent
deriving DecidableEq, Repr

/-- A visit: its copy of the task, and the statements it has still to send. -/
structure Visit where
  kind : Kind
  task : TaskRow
  todo : List Stmt
deriving DecidableEq, Repr

/-- The state: the row, the visits under way, the accounts the task is billed to,
and what has been done so far – the number of refunds and settlements, and whether
the sweeper has exempted the task. -/
structure State where
  row : TaskRow
  visits : Nat → Option Visit
  accounts : Accounts
  refunds : Nat
  settles : Nat
  exempted : Bool

/-- What can happen: a visit of the sweeper, of a polling loop or of a user begins, gets a reply of
the upstream, or sends the next of its statements. -/
inductive Event where
  /-- A sweeper with this cutoff reads the row and works on it at time `now`. -/
  | sweep (i : Nat) (cutoff now : Int)
  /-- A polling loop reads the row. -/
  | poll (i : Nat)
  /-- A user asks for the task. -/
  | fetch (i : Nat)
  /-- The poller does not find the channel. -/
  | channelMissing (i : Nat)
  /-- The Suno poller comes to an item of the reply. -/
  | suno (i : Nat) (item : SunoDataResponse)
  /-- The video poller gets a reply. -/
  | video (i : Nat) (now : Int) (r : VideoReply)
  /-- The realtime fetch gets a reply. -/
  | realtime (i : Nat) (ti : TaskInfo)
  /-- The next statement of a visit runs; `tokenKey` is what `resolveTokenKey`
  answers, should it be asked. -/
  | exec (i : Nat) (tokenKey : String)
  /-- A visit ends. -/
  | done (i : Nat)
deriving DecidableEq

/-- The text of the bulk update after a channel was not found. -/
def channelMissingReason (id : TaskIdent) : String :=
  if id.isSuno then "获取渠道信息失败，请联系管理员，渠道ID：" ++ toString id.channelId
  else "Failed to get channel info, channel ID: " ++ toString id.channelId

namespace State

/-- The state with a visit replaced. -/
def setVisit (x : State) (i : Nat) (v : Option Visit) : State :=
  { x with visits := Function.update x.visits i v }

/-- What `GetAllUnFinishSyncTasks` selects. -/
def unfinished (x : State) : Bool :=
  x.row.progress != "100%" && !x.row.status.finished

/-- A visit begins, if there is none of that number. -/
def enter (x : State) (i : Nat) (v : Visit) : State :=
  match x.visits i with
  | none => x.setVisit i (some v)
  | some _ => x

/-- A visit that has sent everything works on an input. -/
def work (x : State) (i : Nat) (kind : Kind) (f : TaskRow → Visit) : State :=
  match x.visits i with
  | some ⟨k, t, []⟩ => if k = kind then x.setVisit i (some (f t)) else x
  | _ => x

/-- One statement of visit `i`, which was at `v` and has `rest` to send after it. -/
def runStmt (id : TaskIdent) (x : State) (i : Nat) (v : Visit) (tokenKey : String)
    (rest : List Stmt) : Stmt → State
  | .updateWithStatus t fromStatus won =>
    if x.row.status = fromStatus then
      { x with row := t, exempted := x.exempted || decide (won = Due.legacy) }.setVisit i
        (some { v with todo := won.stmts t ++ rest })
    -- another visitor was faster: what was due is dropped
    else x.setVisit i (some { v with todo := rest })
  | .update t => { x with row := t }.setVisit i (some { v with todo := rest })
  | .bulkUpdate failReason =>
    let reason := failReason.getD x.row.failReason
    { x with row := { x.row with
        status := .failure, progress := "100%", failReason := reason } }.setVisit i
      (some { v with todo := rest })
  | .refundFunding quota =>
    match taskAdjustFunding id x.accounts (-quota) with
    -- without the funding half the token is not asked
    | .error _ => { x with refunds := x.refunds + 1 }.setVisit i (some { v with todo := rest })
    | .ok w => { x with refunds := x.refunds + 1, accounts := w }.setVisit i
        (some { v with todo := .adjustToken (-quota) :: rest })
  | .settleFunding quota actualQuota =>
    if actualQuota ≤ 0 ∨ actualQuota - quota = 0 then
      { x with settles := x.settles + 1 }.setVisit i (some { v with todo := rest })
    else
      match taskAdjustFunding id x.accounts (actualQuota - quota) with
      | .error _ => { x with settles := x.settles + 1 }.setVisit i (some { v with todo := rest })
      | .ok w => { x with settles := x.settles + 1, accounts := w }.setVisit i
          (some { v with
            task := { v.task with quota := actualQuota }
            todo := .adjustToken (actualQuota - quota) :: rest })
  | .adjustToken delta =>
    { x with accounts := taskAdjustTokenQuota id tokenKey x.accounts delta }.setVisit i
      (some { v with todo := rest })

end State

/-- **The system.** An event that does not apply leaves the state alone. -/
def step (cfg : Settings) (id : TaskIdent) (x : State) : Event → State
  | .sweep i cutoff now =>
    if cfg.taskTimeoutMinutes > 0 ∧ x.unfinished ∧ x.row.submitTime < cutoff then
      x.enter i ⟨.spent, x.row, sweepTimedOutTask cfg now x.row⟩
    else x
  | .poll i =>
    if x.unfinished then
      if id.getUpstreamTaskID = "" then x.enter i ⟨.spent, x.row, [.bulkUpdate none]⟩
      else x.enter i ⟨if id.isSuno then .suno else .video, x.row, []⟩
    else x
  -- a user may ask for a task that is finished
  | .fetch i => if id.isRealtimeChannel then x.enter i ⟨.fetch, x.row, []⟩ else x
  | .channelMissing i =>
    x.work i (if id.isSuno then .suno else .video) fun t =>
      ⟨.spent, t, [.bulkUpdate (some (channelMissingReason id))]⟩
  | .suno i item =>
    x.work i .suno fun t => ⟨.suno, (updateSunoTask cfg t item).1, (updateSunoTask cfg t item).2⟩
  | .video i now r =>
    x.work i .video fun t =>
      ⟨.video, (updateVideoSingleTask cfg id now t r).1, (updateVideoSingleTask cfg id now t r).2⟩
  | .realtime i ti =>
    x.work i .fetch fun t =>
      ⟨.spent, (tryRealtimeFetch cfg id t ti).1, (tryRealtimeFetch cfg id t ti).2⟩
  | .exec i tokenKey =>
    match x.visits i with
    | some ⟨k, t, st :: rest⟩ => x.runStmt id i ⟨k, t, rest⟩ tokenKey rest st
    | _ => x
  | .done i =>
    match x.visits i with
    | some ⟨_, _, []⟩ => x.setVisit i none
    | _ => x

end NewApiPool.Task
