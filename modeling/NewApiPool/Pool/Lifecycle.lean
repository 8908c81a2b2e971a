import Mathlib.Data.List.Nodup
import NewApiPool.Pool.Jobs

/-!
# The lifecycle of a registration job

A job should be run once, should stay as it has ended, should have one account if it ends in
success and none if not, and should be counted once by its recipe. None of this is so for all
interleavings: every path saves a copy of the whole row that it has loaded some time before,
`dispatchOnce` takes a job that it has started for a pending one until it is saved as running,
a notification that fails is not counted, and a callback for a job that has ended is taken like
any other (`not_lifecycle`).

Where no path loads the row of a job while another one still has a copy of it, callbacks come
for jobs that have not ended, and the webhooks accept their jobs, every job is handled as it
should be (`lifecycle_of_orderly`).
-/

namespace NewApiPool.Pool

open EventSystem

/-! ### What is to hold -/

/-- The job will not be worked on any more. -/
def Ended (status : String) : Prop := status ∈ [statusSuccess, statusFailed, statusCancel]

instance decidableEnded (status : String) : Decidable (Ended status) :=
  inferInstanceAs (Decidable (_ ∈ _))

/-- The rows of which a task has copies that it may save. -/
def Task.ids : Task → List ℕ
  | .notify j => [j.id]
  | .runJob j => [j.id]
  | .runner j => [j.id]
  | .register j _ => [j.id]
  | .save j _ _ => [j.id]
  | .count _ _ _ => []
  | .dispatch jobs => jobs.map PoolJob.id
  | .dispatchSave j _ jobs => j.id :: jobs.map PoolJob.id
  | .dispatchCount _ jobs => jobs.map PoolJob.id
  | .done => []

/-- The task is about to increment this counter. -/
def Task.counts (success : Bool) (key : String) : Task → Bool
  | .count k b _ => k = key ∧ b = success
  | .dispatchCount k _ => k = key ∧ success = false
  | _ => false

/-- The job has ended so, for a recipe. -/
def PoolJob.endedAs (success : Bool) (key : String) (j : PoolJob) : Bool :=
  j.recipeKey = key ∧ countOf j.status = some success

/-- **The lifecycle of the jobs**: each was run at most once; each has at most one account, and
has ended in success if it has one, or is about to be saved so; and the counters of each recipe,
with what is about to be counted, are the numbers of its jobs that have ended so. -/
structure Lifecycle (s : State) : Prop where
  ranOnce : s.runs.Nodup
  oneAccount : s.accounts.Nodup
  account_success : ∀ id ∈ s.accounts, ∃ j : PoolJob, s.jobs[id]? = some j ∧
    (j.status = statusSuccess ∨
      ∃ j' slot, .save j' (some true) slot ∈ s.tasks ∧ j'.id = id ∧ j'.status = statusSuccess)
  counted : ∀ success key, s.counts success key + s.tasks.countP (Task.counts success key) =
    s.jobs.countP (PoolJob.endedAs success key)

/-- A job that has ended is as it was. -/
def Kept (s s' : State) : Prop :=
  ∀ (id : ℕ) (j : PoolJob), s.jobs[id]? = some j → Ended j.status →
    ∃ j', s'.jobs[id]? = some j' ∧ j'.status = j.status

/-- No task has a copy of the row. -/
def State.Free (s : State) (id : ℕ) : Prop := ∀ t ∈ s.tasks, id ∉ t.ids

instance decidableFree (s : State) (id : ℕ) : Decidable (s.Free id) :=
  inferInstanceAs (Decidable (∀ t ∈ s.tasks, _))

def Task.isNotify : Task → Bool
  | .notify _ => true
  | _ => false

def Outcome.isOk : Outcome → Bool
  | .ok _ => true
  | _ => false

/-- **Copies do not overlap**: a row is loaded while no task has a copy of it. A callback comes
for a job that has not ended, and a webhook accepts the job it is told of. -/
def Orderly (s : State) : Event → Prop
  | .scan => s.tasks.any Task.isDispatch = false → ∀ j ∈ s.pendingJobs, s.Free j.id
  | .manualSubmit id _ _ => s.Free id
  | .cancel id => s.Free id
  | .callback id _ _ _ => s.Free id ∧ ∀ j ∈ s.jobs[id]?, ¬Ended j.status
  | .exec i o => s.tasks[i]?.any Task.isNotify = true → o.isOk = true
  | _ => True

instance decidableOrderly (s : State) : ∀ e, Decidable (Orderly s e)
  | .scan => inferInstanceAs (Decidable (_ → ∀ j ∈ s.pendingJobs, _))
  | .manualSubmit id _ _ => decidableFree s id
  | .cancel id => decidableFree s id
  | .callback id _ _ _ => inferInstanceAs (Decidable (s.Free id ∧ ∀ j ∈ s.jobs[id]?, _))
  | .exec _ _ => inferInstanceAs (Decidable (_ → _))
  | .tick _ => inferInstanceAs (Decidable True)
  | .enqueue _ => inferInstanceAs (Decidable True)

/-! ### What holds of the rows and of the copies -/

/-- **What holds of a row** of which there is no copy, and of a copy that is to be saved. -/
structure Settled (env : Env) (s : State) (j : PoolJob) : Prop where
  account : j.id ∈ s.accounts → j.status = statusSuccess
  run : ¬Ended j.status → env.hasRunner j.recipeKey = true → j.id ∉ s.runs

/-- The copy is the row, of a job that has not ended and has no account. -/
structure Fresh (s : State) (j : PoolJob) : Prop where
  row : s.jobs[j.id]? = some j
  open_ : ¬Ended j.status
  account : j.id ∉ s.accounts

/-- The copy may be saved: the row has not ended, or is cancelled once more. -/
structure Saves (env : Env) (s : State) (j : PoolJob) (counts : Option Bool) : Prop where
  row : ∃ old, s.jobs[j.id]? = some old ∧ old.recipeKey = j.recipeKey ∧
    (¬Ended old.status ∨ old.status = statusCancel ∧ j.status = statusCancel)
  counts : counts = countOf j.status
  settled : Settled env s j

/-- A job that `dispatchOnce` has found. -/
structure Found (env : Env) (s : State) (j : PoolJob) : Prop where
  fresh : Fresh s j
  run : env.hasRunner j.recipeKey = true → j.id ∉ s.runs

/-- **What holds of a task.** -/
def TaskOk (env : Env) (s : State) : Task → Prop
  | .notify j => Fresh s j ∧ env.hasRunner j.recipeKey = false ∧ j.id ∉ s.runs
  | .runJob j => Fresh s j ∧ j.id ∉ s.runs
  | .runner j => Fresh s j ∧ j.id ∉ s.runs
  | .register j slot =>
    Fresh s j ∧ (slot = false → env.hasRunner j.recipeKey = true → j.id ∉ s.runs)
  | .save j counts _ => Saves env s j counts
  | .dispatch jobs => ∀ j ∈ jobs, Found env s j
  | .dispatchSave j counts jobs =>
    counts = true ∧ Saves env s j (some false) ∧ ∀ j ∈ jobs, Found env s j
  | .dispatchCount _ jobs => ∀ j ∈ jobs, Found env s j
  | _ => True

/-- **What holds of the tables.** -/
structure Rows (env : Env) (s : State) : Prop where
  ids : ∀ (i : ℕ) (j : PoolJob), s.jobs[i]? = some j → j.id = i
  known : ∀ j ∈ s.jobs, (env.recipes j.recipeKey).isSome
  ranOnce : s.runs.Nodup
  oneAccount : s.accounts.Nodup
  runs_lt : ∀ id ∈ s.runs, id < s.jobs.length
  accounts_lt : ∀ id ∈ s.accounts, id < s.jobs.length

/-- The counters, with what is about to be counted, are right. -/
def Counted (s : State) : Prop :=
  ∀ success key, s.counts success key + s.tasks.countP (Task.counts success key) =
    s.jobs.countP (PoolJob.endedAs success key)

/-- **What holds along an orderly run**: no two tasks have copies of one row. -/
structure Inv (env : Env) (s : State) : Prop where
  rows : Rows env s
  task : ∀ (i : ℕ) (t : Task), s.tasks[i]? = some t → TaskOk env s t ∧ t.ids.Nodup
  apart : ∀ (i k : ℕ) (t u : Task), s.tasks[i]? = some t → s.tasks[k]? = some u →
    ∀ id ∈ t.ids, id ∈ u.ids → i = k
  free : ∀ j ∈ s.jobs, s.Free j.id → Settled env s j
  counted : Counted s

/-! ### Tasks and rows that are left alone -/

section Frame

variable {env : Env} {s s' : State} {j : PoolJob}

/-- Nothing has happened to a row. -/
structure Same (s s' : State) (id : ℕ) : Prop where
  row : ∀ j, s.jobs[id]? = some j → s'.jobs[id]? = some j
  runs : id ∈ s'.runs → id ∈ s.runs
  accounts : id ∈ s'.accounts → id ∈ s.accounts

theorem Settled.frame (h : Settled env s j) (hsame : Same s s' j.id) : Settled env s' j where
  account := fun hid => h.account (hsame.accounts hid)
  run := fun hopen hrunner hid => h.run hopen hrunner (hsame.runs hid)

theorem Fresh.frame (h : Fresh s j) (hsame : Same s s' j.id) : Fresh s' j where
  row := hsame.row j h.row
  open_ := h.open_
  account := fun hid => h.account (hsame.accounts hid)

theorem Saves.frame {counts : Option Bool} (h : Saves env s j counts) (hsame : Same s s' j.id) :
    Saves env s' j counts where
  row := by
    obtain ⟨old, hold, hrest⟩ := h.row
    exact ⟨old, hsame.row old hold, hrest⟩
  counts := h.counts
  settled := h.settled.frame hsame

theorem Found.frame (h : Found env s j) (hsame : Same s s' j.id) : Found env s' j where
  fresh := h.fresh.frame hsame
  run := fun hrunner hid => h.run hrunner (hsame.runs hid)

theorem found_frame {jobs : List PoolJob} (h : ∀ j ∈ jobs, Found env s j)
    (hsame : ∀ id ∈ jobs.map PoolJob.id, Same s s' id) : ∀ j ∈ jobs, Found env s' j :=
  fun j hj => (h j hj).frame (hsame j.id (List.mem_map_of_mem hj))

theorem TaskOk.frame {t : Task} (h : TaskOk env s t) (hsame : ∀ id ∈ t.ids, Same s s' id) :
    TaskOk env s' t := by
  cases t with
  | notify j =>
    have hj := hsame j.id List.mem_cons_self
    exact ⟨h.1.frame hj, h.2.1, fun hid => h.2.2 (hj.runs hid)⟩
  | runJob j =>
    have hj := hsame j.id List.mem_cons_self
    exact ⟨h.1.frame hj, fun hid => h.2 (hj.runs hid)⟩
  | runner j =>
    have hj := hsame j.id List.mem_cons_self
    exact ⟨h.1.frame hj, fun hid => h.2 (hj.runs hid)⟩
  | register j slot =>
    have hj := hsame j.id List.mem_cons_self
    exact ⟨h.1.frame hj, fun hslot hrunner hid => h.2 hslot hrunner (hj.runs hid)⟩
  | save j counts slot => exact Saves.frame h (hsame j.id List.mem_cons_self)
  | dispatch jobs => exact found_frame h hsame
  | dispatchSave j counts jobs =>
    exact ⟨h.1, h.2.1.frame (hsame j.id List.mem_cons_self),
      found_frame h.2.2 fun id hid => hsame id (List.mem_cons_of_mem _ hid)⟩
  | dispatchCount key jobs => exact found_frame h hsame
  | count key success slot => trivial
  | done => trivial

theorem TaskOk.exists_row {t : Task} (h : TaskOk env s t) {id : ℕ} (hid : id ∈ t.ids) :
    ∃ j, s.jobs[id]? = some j := by
  have hfound {jobs : List PoolJob} (hjobs : ∀ j ∈ jobs, Found env s j)
      (hid : id ∈ jobs.map PoolJob.id) : ∃ j, s.jobs[id]? = some j := by
    obtain ⟨j, hj, rfl⟩ := List.mem_map.mp hid
    exact ⟨j, (hjobs j hj).fresh.row⟩
  cases t with
  | notify j => exact List.mem_singleton.mp hid ▸ ⟨j, h.1.row⟩
  | runJob j => exact List.mem_singleton.mp hid ▸ ⟨j, h.1.row⟩
  | runner j => exact List.mem_singleton.mp hid ▸ ⟨j, h.1.row⟩
  | register j slot => exact List.mem_singleton.mp hid ▸ ⟨j, h.1.row⟩
  | save j counts slot =>
    obtain ⟨old, hold, -⟩ := Saves.row h
    exact List.mem_singleton.mp hid ▸ ⟨old, hold⟩
  | dispatch jobs => exact hfound h hid
  | dispatchSave j counts jobs =>
    rcases List.mem_cons.mp hid with rfl | hid
    · obtain ⟨old, hold, -⟩ := h.2.1.row
      exact ⟨old, hold⟩
    · exact hfound h.2.2 hid
  | dispatchCount key jobs => exact hfound h hid
  | count key success slot => cases hid
  | done => cases hid

end Frame

/-! ### One task goes on -/

section Alter

variable {env : Env} {s s' : State} {i : ℕ} {t t' : Task}

theorem getElem?_set_cases {α : Type*} {xs : List α} {i k : ℕ} {x y : α}
    (h : (xs.set i x)[k]? = some y) : (k = i ∧ y = x) ∨ (k ≠ i ∧ xs[k]? = some y) := by
  by_cases hk : i = k
  · subst hk
    rw [List.getElem?_set_self'] at h
    cases hi : xs[i]? with
    | none => rw [hi] at h; cases h
    | some z => rw [hi] at h; cases h; exact Or.inl ⟨rfl, rfl⟩
  · rw [List.getElem?_set_ne hk] at h
    exact Or.inr ⟨fun h' => hk h'.symm, h⟩

/-- **What a statement of one task has to leave**: it touches only rows the task has copies of,
and a row it has no copy of any more is settled. -/
theorem Inv.alter (h : Inv env s) (ht : s.tasks[i]? = some t)
    (htasks : s'.tasks = s.tasks.set i t') (hrows : Rows env s')
    (hsame : ∀ id ∉ t.ids, s'.jobs[id]? = s.jobs[id]? ∧ Same s s' id)
    (hsub : t'.ids.Sublist t.ids) (hok : TaskOk env s' t')
    (hleft : ∀ j ∈ s'.jobs, j.id ∈ t.ids → j.id ∉ t'.ids → Settled env s' j)
    (hcounted : Counted s') : Inv env s' where
  rows := hrows
  task := fun k u hu => by
    rw [htasks] at hu
    rcases getElem?_set_cases hu with ⟨rfl, rfl⟩ | ⟨hk, hu⟩
    · exact ⟨hok, (h.task _ t ht).2.sublist hsub⟩
    · refine ⟨(h.task k u hu).1.frame fun id hid => (hsame id fun hid' => ?_).2, (h.task k u hu).2⟩
      exact hk (h.apart k i u t hu ht id hid hid')
  apart := fun k l u v hu hv id hid hid' => by
    rw [htasks] at hu hv
    rcases getElem?_set_cases hu with ⟨rfl, rfl⟩ | ⟨-, hu'⟩ <;>
      rcases getElem?_set_cases hv with ⟨rfl, rfl⟩ | ⟨-, hv'⟩
    · rfl
    · exact h.apart _ l t v ht hv' id (hsub.subset hid) hid'
    · exact h.apart k _ u t hu' ht id hid (hsub.subset hid')
    · exact h.apart k l u v hu' hv' id hid hid'
  free := fun j hj hfree => by
    have ht' : t' ∈ s'.tasks := by
      rw [htasks]
      exact List.mem_set (List.getElem?_eq_some_iff.mp ht).1 t'
    by_cases hid : j.id ∈ t.ids
    · exact hleft j hj hid (hfree t' ht')
    · obtain ⟨hrow, hid'⟩ := hsame j.id hid
      obtain ⟨k, hk⟩ := List.mem_iff_getElem?.mp hj
      have hkid : j.id = k := hrows.ids k j hk
      rw [← hkid, hrow] at hk
      refine (h.free j (List.mem_of_getElem? hk) fun u hu => ?_).frame hid'
      obtain ⟨l, hl⟩ := List.mem_iff_getElem?.mp hu
      by_cases hli : l = i
      · rw [hli, ht] at hl
        exact Option.some.inj hl ▸ hid
      · refine hfree u ?_
        rw [htasks]
        exact List.mem_of_getElem? (by rw [List.getElem?_set_ne fun h' => hli h'.symm, hl])
  counted := hcounted

theorem Rows.congr (h : Rows env s) (hjobs : s'.jobs = s.jobs) (hruns : s'.runs = s.runs)
    (haccounts : s'.accounts = s.accounts) : Rows env s' where
  ids := hjobs ▸ h.ids
  known := hjobs ▸ h.known
  ranOnce := hruns ▸ h.ranOnce
  oneAccount := haccounts ▸ h.oneAccount
  runs_lt := by rw [hruns, hjobs]; exact h.runs_lt
  accounts_lt := by rw [haccounts, hjobs]; exact h.accounts_lt

theorem same_set (s : State) (id : ℕ) :
    (s.set i t').jobs[id]? = s.jobs[id]? ∧ Same s (s.set i t') id :=
  ⟨rfl, fun _ hj => hj, fun hid => hid, fun hid => hid⟩

/-- **A task is added**, for rows that no other task has a copy of. -/
theorem Inv.spawn (h : Inv env s) (hfree : ∀ id ∈ t.ids, s.Free id) (hnodup : t.ids.Nodup)
    (hok : TaskOk env s t) (hcounts : ∀ success key, t.counts success key = false) :
    Inv env (s.spawn t) := by
  have hcases {k : ℕ} {u : Task} (hu : (s.tasks ++ [t])[k]? = some u) :
      s.tasks[k]? = some u ∨ (k = s.tasks.length ∧ u = t) := by
    rcases Nat.lt_or_ge k s.tasks.length with hlt | hge
    · exact Or.inl (by rwa [List.getElem?_append_left hlt] at hu)
    · rw [List.getElem?_append_right hge, List.getElem?_singleton] at hu
      split at hu
      · exact Or.inr ⟨by omega, (Option.some.inj hu).symm⟩
      · cases hu
  have hsame (id : ℕ) : Same s (s.spawn t) id := ⟨fun _ hj => hj, fun hid => hid, fun hid => hid⟩
  refine ⟨h.rows.congr rfl rfl rfl, fun k u hu => ?_, fun k l u v hu hv id hid hid' => ?_,
    fun j hj hj' => ?_, fun success key => ?_⟩
  · rcases hcases hu with hu' | ⟨-, rfl⟩
    · exact ⟨(h.task k u hu').1.frame fun id _ => hsame id, (h.task k u hu').2⟩
    · exact ⟨hok.frame fun id _ => hsame id, hnodup⟩
  · rcases hcases hu with hu' | ⟨hk, rfl⟩ <;> rcases hcases hv with hv' | ⟨hl, rfl⟩
    · exact h.apart k l u v hu' hv' id hid hid'
    · exact absurd hid (hfree id hid' u (List.mem_of_getElem? hu'))
    · exact absurd hid' (hfree id hid v (List.mem_of_getElem? hv'))
    · rw [hk, hl]
  · exact (h.free j hj fun u hu => hj' u (List.mem_append_left _ hu)).frame (hsame j.id)
  · show s.counts success key + (s.tasks ++ [t]).countP _ = _
    rw [List.countP_append, List.countP_singleton, if_neg (by rw [hcounts]; decide)]
    exact h.counted success key

end Alter

/-! ### The statements -/

section Statements

variable {env : Env} {s s' : State} {i : ℕ} {t t' : Task} {j : PoolJob}

theorem countP_set {α : Type*} (p : α → Bool) {xs : List α} {x : α} (h : xs[i]? = some x) (y : α) :
    (xs.set i y).countP p + (if p x then 1 else 0) = xs.countP p + if p y then 1 else 0 := by
  obtain ⟨hi, rfl⟩ := List.getElem?_eq_some_iff.mp h
  have hle : (if p xs[i] then 1 else 0) ≤ xs.countP p := by
    split
    · exact List.countP_pos_iff.mpr ⟨_, List.getElem_mem hi, by assumption⟩
    · exact Nat.zero_le _
  rw [List.countP_set hi]
  omega

/-- A task goes on, and neither a job nor a counter changes. -/
theorem Counted.quiet (h : Counted s) (ht : s.tasks[i]? = some t)
    (htasks : s'.tasks = s.tasks.set i t') (hjobs : s'.jobs = s.jobs)
    (hcounts : s'.counts = s.counts)
    (hquiet : ∀ success key, t'.counts success key = t.counts success key) : Counted s' := by
  intro success key
  have hset := countP_set (Task.counts success key) ht t'
  rw [hquiet] at hset
  rw [htasks, hjobs, hcounts, ← h success key]
  omega

theorem Rows.addRun (h : Rows env s) (hj : s.jobs[j.id]? = some j) (hnew : j.id ∉ s.runs) :
    Rows env { s with runs := s.runs ++ [j.id] } where
  ids := h.ids
  known := h.known
  ranOnce := List.nodup_append.mpr ⟨h.ranOnce, List.nodup_singleton _, fun id hid id' hid' => by
    rintro rfl
    exact hnew (List.mem_singleton.mp hid' ▸ hid)⟩
  oneAccount := h.oneAccount
  runs_lt := fun id hid => by
    rcases List.mem_append.mp hid with hid | hid
    · exact h.runs_lt id hid
    · exact List.mem_singleton.mp hid ▸ (List.getElem?_eq_some_iff.mp hj).1
  accounts_lt := h.accounts_lt

theorem Rows.addAccount (h : Rows env s) (hj : s.jobs[j.id]? = some j) (hnew : j.id ∉ s.accounts) :
    Rows env { s with accounts := s.accounts ++ [j.id] } where
  ids := h.ids
  known := h.known
  ranOnce := h.ranOnce
  oneAccount := List.nodup_append.mpr ⟨h.oneAccount, List.nodup_singleton _,
    fun id hid id' hid' => by
      rintro rfl
      exact hnew (List.mem_singleton.mp hid' ▸ hid)⟩
  runs_lt := h.runs_lt
  accounts_lt := fun id hid => by
    rcases List.mem_append.mp hid with hid | hid
    · exact h.accounts_lt id hid
    · exact List.mem_singleton.mp hid ▸ (List.getElem?_eq_some_iff.mp hj).1

variable {old : PoolJob}

theorem Rows.saveJob (h : Rows env s) (hold : s.jobs[j.id]? = some old)
    (hkey : old.recipeKey = j.recipeKey) : Rows env (s.saveJob j) where
  ids := fun k j' hj' => by
    rcases getElem?_set_cases hj' with ⟨rfl, rfl⟩ | ⟨-, hj'⟩
    · rfl
    · exact h.ids k j' hj'
  known := fun j' hj' => by
    obtain ⟨k, hk⟩ := List.mem_iff_getElem?.mp hj'
    rcases getElem?_set_cases hk with ⟨rfl, rfl⟩ | ⟨-, hk⟩
    · exact hkey ▸ h.known old (List.mem_of_getElem? hold)
    · exact h.known j' (List.mem_of_getElem? hk)
  ranOnce := h.ranOnce
  oneAccount := h.oneAccount
  runs_lt := fun id hid => by
    show id < (s.jobs.set j.id j).length
    rw [List.length_set]
    exact h.runs_lt id hid
  accounts_lt := fun id hid => by
    show id < (s.jobs.set j.id j).length
    rw [List.length_set]
    exact h.accounts_lt id hid

/-- A saved row is there, and the others are as they were. -/
theorem saveJob_row (hold : s.jobs[j.id]? = some old) :
    (s.saveJob j).jobs[j.id]? = some j := by
  show (s.jobs.set j.id j)[j.id]? = some j
  rw [List.getElem?_set_self (List.getElem?_eq_some_iff.mp hold).1]

theorem same_saveJob {id : ℕ} (hid : id ≠ j.id) (hjobs : s'.jobs = s.jobs.set j.id j)
    (hruns : s'.runs = s.runs) (haccounts : s'.accounts = s.accounts) :
    s'.jobs[id]? = s.jobs[id]? ∧ Same s s' id := by
  have hrow : s'.jobs[id]? = s.jobs[id]? := by
    rw [hjobs, List.getElem?_set_ne fun h => hid h.symm]
  exact ⟨hrow, fun j' hj' => hrow.trans hj', fun h => hruns ▸ h, fun h => haccounts ▸ h⟩

theorem ended_failed : Ended statusFailed := by decide

theorem ended_success : Ended statusSuccess := by decide

theorem Inv.notify (h : Inv env s) (ht : s.tasks[i]? = some (.notify j)) {o : Outcome}
    (ho : o.isOk = true) : Inv env (s.exec env i o (.notify j)) := by
  obtain ⟨⟨hfresh, hrunner, hrun⟩, -⟩ := h.task i _ ht
  cases o with
  | ok resultJSON =>
    refine h.alter ht rfl (h.rows.addRun hfresh.row hrun |>.congr rfl rfl rfl) (fun id hid => ?_)
      (List.Sublist.refl _) ?_ (fun j' _ hid hid' => absurd hid hid')
      (h.counted.quiet ht rfl rfl rfl fun _ _ => rfl)
    · refine ⟨rfl, fun _ hj' => hj', fun hid' => ?_, fun hid' => hid'⟩
      exact (List.mem_append.mp hid').resolve_right hid
    · exact ⟨⟨j, hfresh.row, rfl, Or.inl hfresh.open_⟩, rfl, fun hid => absurd hid hfresh.account,
        fun _ hrunner' => absurd (hrunner.symm.trans hrunner') (by decide)⟩
  | error err => cases ho
  | empty => cases ho
  | panic reason => cases ho

/-- A job is handed to an executor: it is the only change to the tables. -/
theorem same_addRun {id : ℕ} (hid : id ∉ [j.id]) (h : s'.jobs = s.jobs)
    (hruns : s'.runs = s.runs ++ [j.id]) (haccounts : s'.accounts = s.accounts) :
    s'.jobs[id]? = s.jobs[id]? ∧ Same s s' id := by
  refine ⟨by rw [h], fun j' hj' => h ▸ hj', fun hid' => ?_, fun hid' => haccounts ▸ hid'⟩
  rw [hruns] at hid'
  exact (List.mem_append.mp hid').resolve_right hid

/-- A row that has not ended, in a counter: not at all. -/
theorem endedAs_of_open (h : ¬Ended j.status) (success : Bool) (key : String) :
    j.endedAs success key = false := by
  have hcount : countOf j.status = none := by
    rw [countOf, if_neg fun hs => h (by rw [hs]; decide), if_neg fun hs => h (by rw [hs]; decide)]
  rw [PoolJob.endedAs, hcount]
  simp

theorem Inv.runJob (h : Inv env s) (ht : s.tasks[i]? = some (.runJob j)) (o : Outcome) :
    Inv env (s.exec env i o (.runJob j)) := by
  obtain ⟨⟨hfresh, hrun⟩, -⟩ := h.task i _ ht
  generalize hj' : j.updateStatus s.now statusRunning "" "" = j'
  have hid : j'.id = j.id := by rw [← hj']; rfl
  have hopen : ¬Ended j'.status := by
    rw [← hj']
    exact (by decide : ¬Ended statusRunning)
  have hold : s.jobs[j'.id]? = some j := hid ▸ hfresh.row
  have hexec : s.exec env i o (.runJob j) = (s.saveJob j').set i (.runner j') := by
    rw [← hj']
    rfl
  rw [hexec]
  refine h.alter ht rfl ((h.rows.saveJob hold (by rw [← hj']; rfl)).congr rfl rfl rfl)
    (fun id hne => same_saveJob (fun heq => hne (List.mem_singleton.mpr (heq.trans hid))) rfl rfl
      rfl) ?_ ?_ (fun j'' _ hin hnot => ?_) ?_
  · rw [Task.ids, Task.ids, hid]
  · exact ⟨⟨saveJob_row hold, hopen, hid ▸ hfresh.account⟩, hid ▸ hrun⟩
  · rw [Task.ids, hid] at hnot
    exact absurd hin hnot
  · intro success key
    have htasks := countP_set (Task.counts success key) ht (.runner j')
    have hjobs := countP_set (PoolJob.endedAs success key) hold j'
    have hc := h.counted success key
    simp only [endedAs_of_open hfresh.open_, endedAs_of_open hopen, Task.counts, Bool.false_eq_true,
      if_false] at htasks hjobs
    show s.counts success key + (s.tasks.set i (.runner j')).countP _ =
      (s.jobs.set j'.id j').countP _
    omega

variable {slot : Bool}

theorem Inv.ranAndFailed (h : Inv env s) (ht : s.tasks[i]? = some (.runner j)) {j' : PoolJob}
    {inflight : ℕ} (hid : j'.id = j.id) (hkey : j'.recipeKey = j.recipeKey)
    (hstatus : j'.status = statusFailed) :
    Inv env (({ s with runs := s.runs ++ [j.id], inflight := inflight } : State).setSave i j'
      (some false) slot) := by
  obtain ⟨⟨hfresh, hrun⟩, -⟩ := h.task i _ ht
  refine h.alter ht rfl ((h.rows.addRun hfresh.row hrun).congr rfl rfl rfl)
    (fun id hid' => same_addRun hid' rfl rfl rfl) ?_
    ⟨⟨j, ?_, hkey.symm, Or.inl hfresh.open_⟩, ?_, ?_⟩
    (fun j'' _ hin hnot => ?_) (h.counted.quiet ht rfl rfl rfl fun _ _ => rfl)
  · rw [Task.ids, Task.ids, hid]
  · exact hid ▸ hfresh.row
  · rw [hstatus]
    decide
  · refine ⟨fun hacc => absurd (hid ▸ hacc) hfresh.account, fun hopen => absurd ?_ hopen⟩
    rw [hstatus]
    decide
  · rw [Task.ids, hid] at hnot
    exact absurd hin hnot

theorem Inv.runner (h : Inv env s) (ht : s.tasks[i]? = some (.runner j)) (o : Outcome) :
    Inv env (s.exec env i o (.runner j)) := by
  obtain ⟨⟨hfresh, hrun⟩, -⟩ := h.task i _ ht
  cases o with
  | ok resultJSON =>
    refine h.alter ht rfl ((h.rows.addRun hfresh.row hrun).congr rfl rfl rfl)
      (fun id hid => same_addRun hid rfl rfl rfl) (List.Sublist.refl _) ⟨?_, nofun⟩
      (fun j' _ hid hid' => absurd hid hid') (h.counted.quiet ht rfl rfl rfl fun _ _ => rfl)
    exact ⟨hfresh.row, hfresh.open_, hfresh.account⟩
  | error err => exact h.ranAndFailed ht rfl rfl rfl
  | empty => exact h.ranAndFailed ht rfl rfl rfl
  | panic reason => exact h.ranAndFailed ht rfl rfl rfl

theorem Inv.register (h : Inv env s) (ht : s.tasks[i]? = some (.register j slot))
    (o : Outcome) : Inv env (s.exec env i o (.register j slot)) := by
  obtain ⟨⟨hfresh, hrun⟩, -⟩ := h.task i _ ht
  have hfailed (err : String) :
      Inv env (s.setSave i (j.updateStatus s.now statusFailed "" err) (some false) slot) := by
    refine h.alter ht rfl (h.rows.congr rfl rfl rfl) (fun id _ => same_set s id)
      (List.Sublist.refl _) ⟨⟨j, hfresh.row, rfl, Or.inl hfresh.open_⟩, rfl, ?_⟩
      (fun j' _ hid hid' => absurd hid hid') (h.counted.quiet ht rfl rfl rfl fun _ _ => rfl)
    exact ⟨fun hacc => absurd hacc hfresh.account, fun hopen => absurd ended_failed hopen⟩
  have hdone (hslot : slot = false) : Inv env (s.set i .done) := by
    refine h.alter ht rfl (h.rows.congr rfl rfl rfl) (fun id _ => same_set s id)
      (List.nil_sublist _) trivial (fun j' hj' hid _ => ?_)
      (h.counted.quiet ht rfl rfl rfl fun _ _ => rfl)
    obtain ⟨k, hk⟩ := List.mem_iff_getElem?.mp hj'
    have heq : j'.id = j.id := List.mem_singleton.mp hid
    have hkid : j'.id = k := h.rows.ids k j' hk
    have hjj : j' = j := by
      rw [← hkid, heq] at hk
      exact Option.some.inj (hk.symm.trans hfresh.row)
    rw [hjj]
    exact ⟨fun hacc => absurd hacc hfresh.account, fun _ => hrun hslot⟩
  have hrest (err : String) : Inv env (if slot then
      s.setSave i (j.updateStatus s.now statusFailed "" err) (some false) slot
      else s.set i .done) := by
    cases slot with
    | true => exact hfailed err
    | false => exact hdone rfl
  cases o with
  | ok resultJSON =>
    refine h.alter ht rfl ((h.rows.addAccount hfresh.row hfresh.account).congr rfl rfl rfl)
      (fun id hid => ⟨rfl, fun _ hj' => hj', fun hid' => hid', fun hid' => ?_⟩)
      (List.Sublist.refl _) ⟨⟨j, hfresh.row, rfl, Or.inl hfresh.open_⟩, rfl, ?_⟩
      (fun j' _ hid hid' => absurd hid hid') (h.counted.quiet ht rfl rfl rfl fun _ _ => rfl)
    · exact (List.mem_append.mp hid').resolve_right hid
    · exact ⟨fun _ => rfl, fun hopen => absurd ended_success hopen⟩
  | error err => exact hrest _
  | empty => exact hrest _
  | panic reason => exact hrest _

theorem Saves.not_endedAs {counts : Option Bool} (h : Saves env s j counts)
    (hold : s.jobs[j.id]? = some old) (success : Bool) (key : String) :
    old.endedAs success key = false := by
  obtain ⟨old', hold', -, hcase⟩ := h.row
  cases hold.symm.trans hold'
  rcases hcase with hopen | ⟨hcancel, -⟩
  · exact endedAs_of_open hopen success key
  · rw [PoolJob.endedAs, hcancel, show countOf statusCancel = none from by decide]
    simp

/-- **A copy is saved**: the task has it no more, and is about to count it. -/
theorem Inv.saved (h : Inv env s) (ht : s.tasks[i]? = some t) {counts : Option Bool}
    (hsaves : Saves env s j counts) (hj : j.id ∈ t.ids) (htasks : s'.tasks = s.tasks.set i t')
    (hjobs : s'.jobs = s.jobs.set j.id j) (hruns : s'.runs = s.runs)
    (haccounts : s'.accounts = s.accounts) (hcounts : s'.counts = s.counts)
    (hids : t.ids = j.id :: t'.ids) (hok : TaskOk env s' t')
    (hbefore : ∀ success key, t.counts success key = false)
    (hafter : ∀ success key, t'.counts success key = j.endedAs success key) : Inv env s' := by
  obtain ⟨old, hold, hkey, -⟩ := hsaves.row
  have hrow : s'.jobs[j.id]? = some j := by
    rw [hjobs, List.getElem?_set_self (List.getElem?_eq_some_iff.mp hold).1]
  have hrows : Rows env s' := (h.rows.saveJob hold hkey).congr hjobs hruns haccounts
  refine h.alter ht htasks hrows (fun id hid => same_saveJob (fun heq => hid (heq ▸ hj)) hjobs hruns
    haccounts) (hids ▸ List.sublist_cons_self _ _) hok (fun j' hj' hin hnot => ?_)
    fun success key => ?_
  · rw [hids] at hin
    have heq : j'.id = j.id := (List.mem_cons.mp hin).resolve_right hnot
    obtain ⟨k, hk⟩ := List.mem_iff_getElem?.mp hj'
    rw [← hrows.ids k j' hk, heq] at hk
    cases hk.symm.trans hrow
    exact ⟨fun hid => hsaves.settled.account (haccounts ▸ hid),
      fun hopen hrunner hid => hsaves.settled.run hopen hrunner (hruns ▸ hid)⟩
  · have hc := h.counted success key
    have htask := countP_set (Task.counts success key) ht t'
    have hjob := countP_set (PoolJob.endedAs success key) hold j
    rw [hbefore, hafter] at htask
    rw [hsaves.not_endedAs hold] at hjob
    rw [htasks, hjobs, hcounts]
    simp only [Bool.false_eq_true, if_false] at htask hjob
    omega

theorem Inv.save (h : Inv env s) {counts : Option Bool}
    (ht : s.tasks[i]? = some (.save j counts slot)) (o : Outcome) :
    Inv env (s.exec env i o (.save j counts slot)) := by
  have hsaves : Saves env s j counts := (h.task i _ ht).1
  have hcounts := hsaves.counts
  cases counts with
  | some success =>
    refine h.saved ht hsaves List.mem_cons_self rfl rfl rfl rfl rfl rfl trivial (fun _ _ => rfl)
      fun success' key => ?_
    rw [Task.counts, PoolJob.endedAs, ← hcounts]
    exact decide_eq_decide.mpr (and_congr_right' (Option.some.injEq ..).symm.to_iff)
  | none =>
    have hnone (success : Bool) (key : String) : j.endedAs success key = false := by
      rw [PoolJob.endedAs, ← hcounts]
      simp
    cases slot with
    | true =>
      exact h.saved ht hsaves List.mem_cons_self rfl rfl rfl rfl rfl rfl trivial (fun _ _ => rfl)
        fun success key => (hnone success key).symm
    | false =>
      exact h.saved ht hsaves List.mem_cons_self rfl rfl rfl rfl rfl rfl trivial (fun _ _ => rfl)
        fun success key => (hnone success key).symm

variable {jobs : List PoolJob}

theorem Inv.dispatchSave (h : Inv env s) {counts : Bool}
    (ht : s.tasks[i]? = some (.dispatchSave j counts jobs)) (o : Outcome) :
    Inv env (s.exec env i o (.dispatchSave j counts jobs)) := by
  obtain ⟨⟨rfl, hsaves, hjobs⟩, hnodup⟩ := h.task i _ ht
  refine h.saved ht hsaves List.mem_cons_self rfl rfl rfl rfl rfl rfl ?_ (fun _ _ => rfl)
    fun success key => ?_
  · generalize hs' : s.exec env i o (.dispatchSave j true jobs) = s'
    have hsame (id : ℕ) (hid : id ∈ jobs.map PoolJob.id) : s'.jobs[id]? = s.jobs[id]? ∧
        Same s s' id := by
      refine same_saveJob (j := j) (fun heq => ?_) ?_ ?_ ?_
      · exact (List.nodup_cons.mp hnodup).1 (heq ▸ hid)
      all_goals
        rw [← hs']
        rfl
    exact found_frame hjobs fun id hid => (hsame id hid).2
  · rw [Task.counts, PoolJob.endedAs, ← hsaves.counts]
    refine decide_eq_decide.mpr (and_congr_right' ?_)
    rw [Option.some.injEq, eq_comm]

variable {key : String}

/-- **A counter is incremented.** -/
theorem Inv.counts (h : Inv env s) (ht : s.tasks[i]? = some t) {success : Bool}
    (htasks : s'.tasks = s.tasks.set i t') (hjobs : s'.jobs = s.jobs) (hruns : s'.runs = s.runs)
    (haccounts : s'.accounts = s.accounts)
    (hcounts : s'.counts = (s.incrementRecipeCounter key success).counts) (hids : t'.ids = t.ids)
    (hok : TaskOk env s t') (hbefore : ∀ b k, t.counts b k = (b = success ∧ k = key : Bool))
    (hafter : ∀ b k, t'.counts b k = false) : Inv env s' := by
  have hsame (id : ℕ) : s'.jobs[id]? = s.jobs[id]? ∧ Same s s' id :=
    ⟨by rw [hjobs], fun j hj => hjobs ▸ hj, fun hid => hruns ▸ hid, fun hid => haccounts ▸ hid⟩
  refine h.alter ht htasks (h.rows.congr hjobs hruns haccounts) (fun id _ => hsame id)
    (hids ▸ List.Sublist.refl _) (hok.frame fun id _ => (hsame id).2)
    (fun j _ hin hnot => absurd (hids ▸ hin) hnot) fun b k => ?_
  have hc := h.counted b k
  have htask := countP_set (Task.counts b k) ht t'
  rw [hbefore, hafter] at htask
  rw [htasks, hjobs, hcounts, State.incrementRecipeCounter]
  by_cases hbk : b = success ∧ k = key
  · simp only [hbk, and_self, decide_true, if_true, Bool.false_eq_true, if_false] at htask hc ⊢
    omega
  · simp only [hbk, decide_false, Bool.false_eq_true, if_false] at htask hc ⊢
    omega

theorem Inv.count (h : Inv env s) {success : Bool}
    (ht : s.tasks[i]? = some (.count key success slot)) (o : Outcome) :
    Inv env (s.exec env i o (.count key success slot)) := by
  have hbefore (b : Bool) (k : String) : (Task.count key success slot).counts b k =
      (b = success ∧ k = key : Bool) :=
    decide_eq_decide.mpr ⟨fun h' => ⟨h'.2.symm, h'.1.symm⟩, fun h' => ⟨h'.2.symm, h'.1.symm⟩⟩
  cases slot with
  | true => exact h.counts ht rfl rfl rfl rfl rfl rfl trivial hbefore fun _ _ => rfl
  | false => exact h.counts ht rfl rfl rfl rfl rfl rfl trivial hbefore fun _ _ => rfl

theorem Inv.dispatchCount (h : Inv env s)
    (ht : s.tasks[i]? = some (.dispatchCount key jobs)) (o : Outcome) :
    Inv env (s.exec env i o (.dispatchCount key jobs)) :=
  h.counts ht rfl rfl rfl rfl rfl rfl (h.task i _ ht).1 (fun _ _ =>
    decide_eq_decide.mpr ⟨fun h' => ⟨h'.2, h'.1.symm⟩, fun h' => ⟨h'.2.symm, h'.1⟩⟩)
    fun _ _ => rfl

/-- `dispatchOnce` goes on without a copy it had. -/
theorem Inv.skip (h : Inv env s) (ht : s.tasks[i]? = some (.dispatch (j :: jobs))) (inflight : ℕ) :
    Inv env (({ s with inflight := inflight } : State).set i (.dispatch jobs)) := by
  have hsame (id : ℕ) : Same s (({ s with inflight := inflight } : State).set i (.dispatch jobs))
      id := ⟨fun _ hrow => hrow, fun hid => hid, fun hid => hid⟩
  have hfound : ∀ j' ∈ j :: jobs, Found env s j' := (h.task i _ ht).1
  have hj := hfound j List.mem_cons_self
  refine h.alter ht rfl (h.rows.congr rfl rfl rfl) (fun id _ => ⟨rfl, hsame id⟩)
    (List.sublist_cons_self _ _) (fun j' hj' => ?_) (fun j' hj' hin hnot => ?_)
    (h.counted.quiet ht rfl rfl rfl fun _ _ => rfl)
  · exact (hfound j' (List.mem_cons_of_mem j hj')).frame (hsame j'.id)
  · have heq : j'.id = j.id := (List.mem_cons.mp hin).resolve_right hnot
    obtain ⟨k, hk⟩ := List.mem_iff_getElem?.mp hj'
    rw [← h.rows.ids k j' hk, heq] at hk
    cases hk.symm.trans hj.fresh.row
    exact ⟨fun hacc => absurd hacc hj.fresh.account, fun _ => hj.run⟩

/-- `dispatchOnce` has no executor for a job. -/
theorem Inv.fail (h : Inv env s) (ht : s.tasks[i]? = some (.dispatch (j :: jobs))) (err : String) :
    Inv env (s.set i (.dispatchSave (j.updateStatus s.now statusFailed "" err) true jobs)) := by
  have hfound : ∀ j' ∈ j :: jobs, Found env s j' := (h.task i _ ht).1
  have hj := hfound j List.mem_cons_self
  refine h.alter ht rfl (h.rows.congr rfl rfl rfl) (fun id _ => same_set s id)
    (List.Sublist.refl _) ⟨rfl, ⟨⟨j, hj.fresh.row, rfl, Or.inl hj.fresh.open_⟩, rfl, ?_⟩, ?_⟩
    (fun j' _ hin hnot => absurd hin hnot) (h.counted.quiet ht rfl rfl rfl fun _ _ => rfl)
  · exact ⟨fun hacc => absurd hacc hj.fresh.account, fun hopen => absurd ended_failed hopen⟩
  · exact fun j' hj' => (hfound j' (List.mem_cons_of_mem j hj')).frame (same_set s _).2

theorem Inv.dispatch (h : Inv env s)
    (ht : s.tasks[i]? = some (.dispatch (j :: jobs))) : Inv env (s.dispatch env i j jobs) := by
  have hfound : ∀ j' ∈ j :: jobs, Found env s j' := (h.task i _ ht).1
  have hj := hfound j List.mem_cons_self
  obtain ⟨recipe, hrecipe⟩ := Option.isSome_iff_exists.mp
    (h.rows.known j (List.mem_of_getElem? hj.fresh.row))
  rw [State.dispatch, hrecipe]
  dsimp only
  split
  · exact h.skip ht s.inflight
  split
  · exact h.fail ht _
  rename_i hrunner
  split
  · exact h.skip ht s.inflight
  have hrun : j.id ∉ s.runs := hj.run (by simpa using hrunner)
  have hfresh : Fresh (({ s with inflight := s.inflight + 1 } : State).set i (.dispatch jobs)) j :=
    ⟨hj.fresh.row, hj.fresh.open_, hj.fresh.account⟩
  refine (h.skip ht (s.inflight + 1)).spawn (fun id hid u hu => ?_)
    (List.nodup_singleton _) ⟨hfresh, hrun⟩ fun _ _ => rfl
  obtain rfl := List.mem_singleton.mp hid
  obtain ⟨k, hk⟩ := List.mem_iff_getElem?.mp hu
  rcases getElem?_set_cases hk with ⟨-, rfl⟩ | ⟨hne, hk'⟩
  · exact (List.nodup_cons.mp (h.task i _ ht).2).1
  · exact fun hid' => hne (h.apart k i u _ hk' ht j.id hid' List.mem_cons_self)

/-- **A task goes on** by one statement, whatever comes of it; a notification is delivered. -/
theorem Inv.exec (h : Inv env s) (ht : s.tasks[i]? = some t) {o : Outcome}
    (ho : t.isNotify = true → o.isOk = true) : Inv env (s.exec env i o t) := by
  cases t with
  | notify j => exact h.notify ht (ho rfl)
  | runJob j => exact h.runJob ht o
  | runner j => exact h.runner ht o
  | register j slot => exact h.register ht o
  | save j counts slot => exact h.save ht o
  | count key success slot => exact h.count ht o
  | dispatch jobs =>
    cases jobs with
    | nil =>
      exact h.alter ht rfl (h.rows.congr rfl rfl rfl) (fun id _ => same_set s id)
        (List.Sublist.refl _) trivial (fun _ _ hin _ => nomatch hin)
        (h.counted.quiet ht rfl rfl rfl fun _ _ => rfl)
    | cons j jobs => exact h.dispatch ht
  | dispatchSave j counts jobs => exact h.dispatchSave ht o
  | dispatchCount key jobs => exact h.dispatchCount ht o
  | done => exact h

end Statements

/-! ### One step -/

section Step

variable {env : Env} {s s' : State}

/-- **A job is inserted.** -/
theorem Inv.insert (h : Inv env s) {job : PoolJob} (hid : job.id = s.jobs.length)
    (hknown : (env.recipes job.recipeKey).isSome) (hopen : ¬Ended job.status) :
    Inv env { s with jobs := s.jobs ++ [job] } := by
  have hsame (id : ℕ) : Same s { s with jobs := s.jobs ++ [job] } id := by
    refine ⟨fun j hj => ?_, fun hid => hid, fun hid => hid⟩
    exact (List.getElem?_append_left (List.getElem?_eq_some_iff.mp hj).1).trans hj
  have hlt {id : ℕ} (hlt : id < s.jobs.length) : id < (s.jobs ++ [job]).length := by
    rw [List.length_append]
    omega
  refine ⟨⟨fun k j hj => ?_, fun j hj => ?_, h.rows.ranOnce, h.rows.oneAccount,
    fun id hid => hlt (h.rows.runs_lt id hid), fun id hid => hlt (h.rows.accounts_lt id hid)⟩,
    fun k t ht => ⟨(h.task k t ht).1.frame fun id _ => hsame id, (h.task k t ht).2⟩, h.apart,
    fun j hj hfree => ?_, fun success key => ?_⟩
  · rcases Nat.lt_or_ge k s.jobs.length with hk | hk
    · exact h.rows.ids k j ((List.getElem?_append_left hk).symm.trans hj)
    · have hj' : (s.jobs ++ [job])[k]? = some j := hj
      rw [List.getElem?_append_right hk, List.getElem?_singleton] at hj'
      split at hj'
      · cases hj'
        omega
      · cases hj'
  · rcases List.mem_append.mp hj with hj | hj
    · exact h.rows.known j hj
    · exact List.mem_singleton.mp hj ▸ hknown
  · rcases List.mem_append.mp hj with hj | hj
    · exact (h.free j hj hfree).frame (hsame j.id)
    · rw [List.mem_singleton.mp hj]
      exact ⟨fun hacc => absurd (h.rows.accounts_lt _ hacc) (by omega),
        fun _ _ hrun => absurd (h.rows.runs_lt _ hrun) (by omega)⟩
  · show _ = (s.jobs ++ [job]).countP _
    rw [List.countP_append, List.countP_singleton, endedAs_of_open hopen]
    exact h.counted success key

theorem Inv.free_length (h : Inv env s) : s.Free s.jobs.length := by
  intro t ht hid
  obtain ⟨k, hk⟩ := List.mem_iff_getElem?.mp ht
  obtain ⟨j, hj⟩ := (h.task k t hk).1.exists_row hid
  exact absurd (List.getElem?_eq_some_iff.mp hj).1 (Nat.lt_irrefl _)

theorem Inv.enqueue (h : Inv env s) (key : String) : Inv env (s.enqueue env key) := by
  rw [State.enqueue]
  cases hrecipe : env.recipes key with
  | none => exact h
  | some r =>
    have hknown : (env.recipes key).isSome := by rw [hrecipe]; rfl
    dsimp only
    split
    · exact h
    split
    · exact h.insert rfl hknown (by decide : ¬Ended statusManualPending)
    split
    · exact h
    have hinsert : Inv env
        { s with jobs := s.jobs ++ [⟨s.jobs.length, key, statusPending, "", "", 0, 0⟩] } :=
      h.insert rfl hknown (by decide : ¬Ended statusPending)
    split
    · exact hinsert
    · rename_i hrunner
      have hnew : s.jobs.length ∉ s.runs := fun hid =>
        absurd (h.rows.runs_lt _ hid) (Nat.lt_irrefl _)
      refine hinsert.spawn (fun id hid => ?_) (List.nodup_singleton _)
        ⟨⟨?_, (by decide : ¬Ended statusPending), fun hid => ?_⟩, by simpa using hrunner, hnew⟩
        fun _ _ => rfl
      · exact List.mem_singleton.mp hid ▸ h.free_length
      · exact List.getElem?_concat_length
      · exact absurd (h.rows.accounts_lt _ hid) (Nat.lt_irrefl _)

variable {j : PoolJob}

/-- A row of which there is no copy, of a job that has not ended. -/
theorem Inv.fresh (h : Inv env s) {id : ℕ} (hj : s.jobs[id]? = some j)
    (hfree : s.Free id) (hopen : ¬Ended j.status) : Found env s j := by
  have hid := h.rows.ids id j hj
  have hsettled := h.free j (List.mem_of_getElem? hj) (hid ▸ hfree)
  refine ⟨⟨hid ▸ hj, hopen, fun hacc => hopen ?_⟩, hsettled.run hopen⟩
  rw [hsettled.account hacc]
  exact ended_success

/-- A row of which there is no copy may be saved with another status. -/
theorem Inv.saves (h : Inv env s) {id : ℕ} (hj : s.jobs[id]? = some j)
    (hfree : s.Free id) {status resultJSON errMsg : String}
    (hcase : ¬Ended j.status ∨ j.status = statusCancel ∧ status = statusCancel) :
    Saves env s (j.updateStatus s.now status resultJSON errMsg) (countOf status) := by
  have hid := h.rows.ids id j hj
  have hsettled := h.free j (List.mem_of_getElem? hj) (hid ▸ hfree)
  refine ⟨⟨j, hid ▸ hj, rfl, hcase⟩, rfl, fun hacc => ?_, fun hopen hrunner => ?_⟩
  · have hsuccess := hsettled.account hacc
    rcases hcase with hopen | ⟨hcancel, -⟩
    · exact absurd (hsuccess ▸ ended_success) hopen
    · exact absurd (hsuccess.symm.trans hcancel) (by decide)
  · rcases hcase with hopen' | ⟨-, rfl⟩
    · exact hsettled.run hopen' hrunner
    · exact absurd (by decide : Ended statusCancel) hopen

theorem nodup_pendingJobs (h : Rows env s) : (s.pendingJobs.map PoolJob.id).Nodup := by
  have hids : (s.jobs.map PoolJob.id).Nodup := by
    rw [List.nodup_iff_getElem?_ne_getElem?]
    intro k l hkl hl heq
    rw [List.length_map] at hl
    rw [List.getElem?_map, List.getElem?_map, List.getElem?_eq_getElem (Nat.lt_trans hkl hl),
      List.getElem?_eq_getElem hl] at heq
    have hk' := h.ids k _ (List.getElem?_eq_getElem (Nat.lt_trans hkl hl))
    have hl' := h.ids l _ (List.getElem?_eq_getElem hl)
    have hsame := Option.some.inj heq
    omega
  have hfilter := hids.sublist ((List.filter_sublist (p := fun j : PoolJob =>
    j.status = statusPending)).map PoolJob.id)
  refine List.Nodup.sublist ((List.take_sublist 20 _).map PoolJob.id) ?_
  rw [List.map_reverse]
  exact List.nodup_reverse.mpr hfilter

theorem mem_pendingJobs (hj : j ∈ s.pendingJobs) :
    j ∈ s.jobs ∧ j.status = statusPending := by
  have hmem := List.mem_reverse.mp (List.mem_of_mem_take hj)
  exact ⟨(List.mem_filter.mp hmem).1, by simpa using (List.mem_filter.mp hmem).2⟩

/-- **One step** that is orderly keeps what holds: the rows and the copies that the tasks have of
them agree, and every outcome of a job is counted once. -/
theorem Inv.step (h : Inv env s) {e : Event} (ho : Orderly s e) : Inv env (s.step env e) := by
  cases e with
  | tick d =>
    have hsame (id : ℕ) : Same s { s with now := s.now + d } id :=
      ⟨fun _ hj => hj, fun hid => hid, fun hid => hid⟩
    exact ⟨h.rows.congr rfl rfl rfl,
      fun k t ht => ⟨(h.task k t ht).1.frame fun id _ => hsame id, (h.task k t ht).2⟩, h.apart,
      fun j hj hfree => (h.free j hj hfree).frame (hsame j.id), h.counted⟩
  | enqueue key => exact h.enqueue key
  | scan =>
    rw [State.step]
    split
    · exact h
    rename_i hnone
    have hfree := ho (by simpa using hnone)
    refine h.spawn (fun id hid => ?_) (nodup_pendingJobs h.rows) (fun j hj => ?_) fun _ _ => rfl
    · obtain ⟨j, hj, rfl⟩ := List.mem_map.mp hid
      exact hfree j hj
    · obtain ⟨hmem, hpending⟩ := mem_pendingJobs hj
      obtain ⟨k, hk⟩ := List.mem_iff_getElem?.mp hmem
      refine h.fresh hk (h.rows.ids k j hk ▸ hfree j hj) ?_
      rw [hpending]
      decide
  | manualSubmit id accountName keyRaw =>
    rw [State.step]
    split
    · exact h
    rename_i job hjob
    split
    · exact h
    rename_i hmanual
    split
    · exact h
    split
    · exact h
    have hid := h.rows.ids id job hjob
    have hopen : ¬Ended job.status := by
      rw [not_not.mp hmanual]
      decide
    have hfound := h.fresh hjob ho hopen
    exact h.spawn (fun k hk => by rw [List.mem_singleton.mp hk, hid]; exact ho)
      (List.nodup_singleton _) ⟨hfound.fresh, fun _ => hfound.run⟩ fun _ _ => rfl
  | cancel id =>
    rw [State.step]
    split
    · exact h
    rename_i job hjob
    split
    · exact h
    rename_i hends
    have hid := h.rows.ids id job hjob
    refine h.spawn (fun k hk => by rw [List.mem_singleton.mp hk]; exact hid ▸ ho)
      (List.nodup_singleton _) (h.saves hjob ho ?_) fun _ _ => rfl
    by_cases hcancel : job.status = statusCancel
    · exact Or.inr ⟨hcancel, rfl⟩
    · refine Or.inl fun hended => ?_
      simp only [Ended, List.mem_cons, List.not_mem_nil, or_false] at hended
      tauto
  | callback id status resultJSON errorMsg =>
    rw [State.step]
    split
    · exact h
    rename_i job hjob
    have hid := h.rows.ids id job hjob
    exact h.spawn (fun k hk => by rw [List.mem_singleton.mp hk]; exact hid ▸ ho.1)
      (List.nodup_singleton _) (h.saves hjob ho.1 (Or.inl (ho.2 job hjob))) fun _ _ => rfl
  | exec i o =>
    rw [State.step]
    split
    · exact h
    rename_i t ht
    refine h.exec ht fun hnotify => ho ?_
    rw [ht]
    exact hnotify

/-! ### What has ended stays so -/

theorem kept_of_append {jobs : List PoolJob} (h : s'.jobs = s.jobs ++ jobs) : Kept s s' := by
  intro id j hj hended
  refine ⟨j, ?_, rfl⟩
  rw [h, List.getElem?_append_left (List.getElem?_eq_some_iff.mp hj).1]
  exact hj

theorem kept_of_jobs (h : s'.jobs = s.jobs) : Kept s s' :=
  kept_of_append (h.trans (List.append_nil s.jobs).symm)

/-- A row is saved over one that has not ended, or that has ended in the same way. -/
theorem kept_of_set {old : PoolJob} (h : s'.jobs = s.jobs.set j.id j)
    (hold : s.jobs[j.id]? = some old) (hcase : ¬Ended old.status ∨ old.status = j.status) :
    Kept s s' := by
  intro id k hk hended
  rw [h]
  by_cases hid : j.id = id
  · subst hid
    cases hold.symm.trans hk
    refine ⟨j, ?_, ?_⟩
    · exact List.getElem?_set_self (List.getElem?_eq_some_iff.mp hk).1
    · exact (hcase.resolve_left fun hopen => hopen hended).symm
  · exact ⟨k, (List.getElem?_set_ne hid).trans hk, rfl⟩

theorem Kept.refl (s : State) : Kept s s := kept_of_jobs rfl

theorem Kept.trans {s'' : State} (h : Kept s s') (h' : Kept s' s'') : Kept s s'' := by
  intro id j hj hended
  obtain ⟨j', hj', hstatus⟩ := h id j hj hended
  obtain ⟨j'', hj'', hstatus'⟩ := h' id j' hj' (hstatus ▸ hended)
  exact ⟨j'', hj'', hstatus'.trans hstatus⟩

theorem Saves.kept {counts : Option Bool} (h : Saves env s j counts)
    (hjobs : s'.jobs = s.jobs.set j.id j) : Kept s s' := by
  obtain ⟨old, hold, -, hcase⟩ := h.row
  refine kept_of_set hjobs hold (hcase.imp_right ?_)
  rintro ⟨hcancel, hcancel'⟩
  rw [hcancel, hcancel']

theorem jobs_dispatch (env : Env) (s : State) (i : ℕ) (job : PoolJob) (jobs : List PoolJob) :
    (s.dispatch env i job jobs).jobs = s.jobs := by
  rw [State.dispatch]
  split
  · rfl
  split
  · rfl
  split
  · rfl
  split <;> rfl

theorem kept_exec (h : Inv env s) {i : ℕ} {t : Task} (ht : s.tasks[i]? = some t) (o : Outcome) :
    Kept s (s.exec env i o t) := by
  have hok := (h.task i t ht).1
  cases t with
  | notify j => cases o <;> exact kept_of_jobs rfl
  | runJob j =>
    have hjobs : (s.exec env i o (.runJob j)).jobs =
        s.jobs.set j.id (j.updateStatus s.now statusRunning "" "") := rfl
    exact kept_of_set (j := j.updateStatus s.now statusRunning "" "") hjobs hok.1.row
      (Or.inl hok.1.open_)
  | runner j => cases o <;> exact kept_of_jobs rfl
  | register j slot => cases o <;> cases slot <;> exact kept_of_jobs rfl
  | save j counts slot => cases counts <;> cases slot <;> exact Saves.kept hok rfl
  | count key success slot => cases slot <;> exact kept_of_jobs rfl
  | dispatch jobs =>
    cases jobs with
    | nil => exact kept_of_jobs rfl
    | cons job jobs => exact kept_of_jobs (jobs_dispatch env s i job jobs)
  | dispatchSave j counts jobs => cases counts <;> exact hok.2.1.kept rfl
  | dispatchCount key jobs => exact kept_of_jobs rfl
  | done => exact Kept.refl s

theorem kept_enqueue (env : Env) (s : State) (key : String) : Kept s (s.enqueue env key) := by
  rw [State.enqueue]
  split
  · exact Kept.refl s
  split
  · exact Kept.refl s
  split
  · exact kept_of_append rfl
  split
  · exact Kept.refl s
  dsimp only
  split <;> exact kept_of_append rfl

/-- **No step changes how a job has ended**, where the copies do not overlap. -/
theorem Inv.kept_step (h : Inv env s) (e : Event) : Kept s (s.step env e) := by
  cases e with
  | enqueue key => exact kept_enqueue env s key
  | exec i o =>
    rw [State.step]
    split
    · exact Kept.refl s
    · exact kept_exec h (by assumption) o
  | tick d => exact kept_of_jobs rfl
  | scan => rw [State.step]; split <;> exact kept_of_jobs rfl
  | manualSubmit id accountName keyRaw =>
    rw [State.step]
    split
    · exact Kept.refl s
    split
    · exact Kept.refl s
    split
    · exact Kept.refl s
    split <;> exact kept_of_jobs rfl
  | cancel id =>
    rw [State.step]
    split
    · exact Kept.refl s
    split <;> exact kept_of_jobs rfl
  | callback id status resultJSON errorMsg => rw [State.step]; split <;> exact kept_of_jobs rfl

/-! ### Runs -/

theorem inv_start (env : Env) : Inv env {} where
  rows := ⟨nofun, nofun, List.nodup_nil, List.nodup_nil, nofun, nofun⟩
  task := nofun
  apart := nofun
  free := nofun
  counted := fun _ _ => rfl

/-- The row of an account that was inserted: the job has ended in success, or it is saved so. -/
theorem Inv.account_success (h : Inv env s) {id : ℕ} (hid : id ∈ s.accounts) :
    ∃ j : PoolJob, s.jobs[id]? = some j ∧ (j.status = statusSuccess ∨
      ∃ j' slot, .save j' (some true) slot ∈ s.tasks ∧ j'.id = id ∧ j'.status = statusSuccess) := by
  have hlt := h.rows.accounts_lt id hid
  have hrow := List.getElem?_eq_getElem hlt
  have hrowId := h.rows.ids id _ hrow
  refine ⟨s.jobs[id], hrow, ?_⟩
  by_cases hfree : s.Free id
  · refine Or.inl ((h.free _ (List.getElem_mem hlt) ?_).account ?_)
    · rw [hrowId]
      exact hfree
    · rw [hrowId]
      exact hid
  simp only [State.Free, not_forall, not_not] at hfree
  obtain ⟨t, ht, hmem⟩ := hfree
  obtain ⟨k, hk⟩ := List.mem_iff_getElem?.mp ht
  have hok := (h.task k t hk).1
  -- the jobs that `dispatchOnce` has found have no accounts
  have hfound {jobs : List PoolJob} (hjobs : ∀ j ∈ jobs, Found env s j) :
      id ∉ jobs.map PoolJob.id := by
    intro hin
    obtain ⟨j, hj, rfl⟩ := List.mem_map.mp hin
    exact (hjobs j hj).fresh.account hid
  cases t with
  | notify j => exact absurd hid (List.mem_singleton.mp hmem ▸ hok.1.account)
  | runJob j => exact absurd hid (List.mem_singleton.mp hmem ▸ hok.1.account)
  | runner j => exact absurd hid (List.mem_singleton.mp hmem ▸ hok.1.account)
  | register j slot => exact absurd hid (List.mem_singleton.mp hmem ▸ hok.1.account)
  | save j counts slot =>
    have hjid : id = j.id := List.mem_singleton.mp hmem
    have hstatus : j.status = statusSuccess := (Saves.settled hok).account (hjid ▸ hid)
    have hcounts : counts = some true := by
      rw [Saves.counts hok, hstatus]
      decide
    exact Or.inr ⟨j, slot, hcounts ▸ ht, hjid.symm, hstatus⟩
  | dispatch jobs => exact absurd hmem (hfound hok)
  | dispatchSave j counts jobs =>
    rcases List.mem_cons.mp hmem with hjid | hin
    · have hstatus := hok.2.1.settled.account (hjid ▸ hid)
      have hcounts := hok.2.1.counts
      rw [hstatus] at hcounts
      exact absurd hcounts (by decide)
    · exact absurd hin (hfound hok.2.2)
  | dispatchCount key jobs => exact absurd hmem (hfound hok)
  | count key success slot => cases hmem
  | done => cases hmem

theorem Inv.lifecycle (h : Inv env s) : Lifecycle s :=
  ⟨h.rows.ranOnce, h.rows.oneAccount, fun _ => h.account_success, h.counted⟩

theorem Inv.kept_run {es : List Event} (h : Inv env s) (ho : Along (State.step env) Orderly s es) :
    Kept s (run (State.step env) s es) := by
  induction es generalizing s with
  | nil => exact Kept.refl s
  | cons e es ih => exact (h.kept_step e).trans (ih (h.step ho.1) ho.2)

end Step

/-- **Every job is handled as it should be**, in every state of a run in which the copies of a
row do not overlap, callbacks come for jobs that have not ended, and the webhooks accept. -/
theorem lifecycle_of_orderly (env : Env) {es : List Event}
    (h : Along (State.step env) Orderly {} es) :
    (∀ n, Lifecycle (run (State.step env) {} (es.take n))) ∧
      ∀ m n, m ≤ n → Kept (run (State.step env) {} (es.take m))
        (run (State.step env) {} (es.take n)) := by
  have hinv (n : ℕ) : Inv env (run (State.step env) {} (es.take n)) :=
    inv_run (fun _ _ hs ho => hs.step ho) (inv_start env) (along_take h n)
  refine ⟨fun n => (hinv n).lifecycle, fun m n hmn => ?_⟩
  have hsplit : es.take n = es.take m ++ (es.take n).drop m := by
    conv_lhs => rw [← List.take_append_drop m (es.take n)]
    rw [List.take_take, Nat.min_eq_left hmn]
  have hn := along_take h n
  rw [hsplit, along_append] at hn
  rw [hsplit, run_append]
  exact (hinv m).kept_run hn.2

/-- A recipe with a runner and one with a webhook. -/
def twoRecipes : Env where
  recipes := fun key =>
    if key = "auto" then some ⟨false, "", true⟩
    else if key = "webhook" then some ⟨false, "https://worker/run", true⟩
    else none
  hasRunner := fun key => key = "auto"
  maxConcurrent := 5

/-- One job of each recipe, both ending in success. -/
def twoJobs : List Event :=
  [.enqueue "auto", .scan, .exec 0 .empty, .exec 1 .empty, .exec 1 (.ok ""), .exec 1 (.ok ""),
    .enqueue "webhook", .exec 2 (.ok ""), .exec 1 .empty, .exec 2 .empty,
    .callback 1 "success" "done" "", .exec 3 .empty, .exec 1 .empty, .exec 3 .empty]

theorem lifecycle_of_orderly_two :
    Lifecycle (run (State.step twoRecipes) {} (twoJobs.take 14)) ∧
      (run (State.step twoRecipes) {} twoJobs).jobs.map PoolJob.status = ["success", "success"] :=
  ⟨(lifecycle_of_orderly twoRecipes (by decide : Along _ Orderly {} twoJobs)).1 14, by decide⟩

/-- A job is run twice where `dispatchOnce` finds it once more before it is saved as running; a
cancelled job ends in success where its runner goes on; a failed notification is not counted;
and a callback that comes twice is counted twice. -/
theorem not_lifecycle :
    ¬Lifecycle (run (State.step twoRecipes) {} [.enqueue "auto", .scan, .exec 0 .empty,
      .exec 0 .empty, .exec 0 .empty, .scan, .exec 2 .empty, .exec 1 .empty, .exec 3 .empty,
      .exec 1 (.ok ""), .exec 3 (.ok "")]) ∧
    ¬Kept (run (State.step twoRecipes) {} [.enqueue "auto", .scan, .exec 0 .empty, .cancel 0,
        .exec 1 .empty, .exec 2 .empty])
      (run (State.step twoRecipes) {} [.enqueue "auto", .scan, .exec 0 .empty, .cancel 0,
        .exec 1 .empty, .exec 2 .empty, .exec 1 (.ok ""), .exec 1 (.ok ""), .exec 1 .empty]) ∧
    ¬Lifecycle (run (State.step twoRecipes) {} [.enqueue "webhook", .exec 0 (.error "refused"),
      .exec 0 .empty]) ∧
    ¬Lifecycle (run (State.step twoRecipes) {} [.enqueue "webhook", .exec 0 (.ok ""),
      .exec 0 .empty, .callback 0 "success" "" "", .exec 1 .empty, .exec 1 .empty,
      .callback 0 "success" "" "", .exec 2 .empty, .exec 2 .empty]) := by
  refine ⟨fun h => ?_, fun h => ?_, fun h => ?_, fun h => ?_⟩
  · exact absurd h.ranOnce (by decide)
  · obtain ⟨j, hj, hstatus⟩ := h 0 _ rfl (by decide)
    cases hj
    exact absurd hstatus (by decide)
  · exact absurd (h.counted false "webhook") (by decide)
  · exact absurd (h.counted true "webhook") (by decide)

end NewApiPool.Pool
