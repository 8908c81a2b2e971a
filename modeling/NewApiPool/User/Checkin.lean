import Mathlib.Algebra.BigOperators.Group.List.Basic
import Mathlib.Algebra.Ring.Int.Defs
import NewApiPool.Lib.Runs

/-!
# The daily check-in

A user is awarded some quota for the check-in of a day. `UserCheckin` looks whether there is a row
for the day, creates one, and increases the quota. With MySQL and PostgreSQL the last two are one
transaction. With SQLite they are two statements, and where the second one fails the row is deleted
again.

Any number of calls run at once, one statement of one call after the other, and each statement may
fail. A unique index lets one row be created; a transaction waits at it for another one that is not
over. In the end the quota was increased by the award of the row, if there is one
(`NewApiPool.Checkin.quota_eq_row`).
-/

namespace NewApiPool.Checkin

open EventSystem

/-- The least and the greatest award. -/
structure CheckinSetting where
  minQuota : ℤ
  maxQuota : ℤ

/-- The award, with a random number from `0` to the difference of the two. -/
def quotaAwarded (setting : CheckinSetting) (random : ℤ) : ℤ :=
  if setting.minQuota < setting.maxQuota then setting.minQuota + random else setting.minQuota

/-- Where a call of `UserCheckin` is, with what it has read so far. -/
inductive Call
  /-- before `HasCheckedInToday` -/
  | start
  /-- before `Create` -/
  | checked (quotaAwarded : ℤ)
  /-- after `Create`, before the update of the quota -/
  | created (quotaAwarded : ℤ)
  /-- after the update, before the end of the transaction -/
  | updated (quotaAwarded : ℤ)
  /-- before the row is deleted again -/
  | failed (quotaAwarded : ℤ)
  /-- it has returned -/
  | ended
deriving DecidableEq, Repr

/-- The call has a row that is not settled. -/
def Call.Holds : Call → Prop
  | .created _ | .updated _ | .failed _ => True
  | .start | .checked _ | .ended => False

/-- The row of the user and the day, by the number of its call and its award; the row of a
transaction that is not over; and the quota of the user with all that it was increased by. -/
structure State where
  row : Option (ℕ × ℤ)
  pending : Option (ℕ × ℤ)
  quota : ℤ
  increases : List ℤ
  calls : ℕ → Call

namespace State

def init (quota : ℤ) : State := ⟨none, none, quota, [], fun _ => .start⟩

def goto (s : State) (i : ℕ) (call : Call) : State :=
  { s with calls := Function.update s.calls i call }

def increase (s : State) (quotaAwarded : ℤ) : State :=
  { s with quota := s.quota + quotaAwarded, increases := quotaAwarded :: s.increases }

end State

/-- The next statement of a call is executed, or it fails. -/
inductive Event
  | exec (i : ℕ) (random : ℤ)
  | fail (i : ℕ)
deriving DecidableEq, Repr

section Steps

variable (usingSQLite : Bool) (setting : CheckinSetting) (s : State) (i : ℕ)

/-- `HasCheckedInToday`. -/
def check (random : ℤ) : State :=
  if s.row.isSome then s.goto i .ended else s.goto i (.checked (quotaAwarded setting random))

/-- `Create`: an error, if there is a row; inside a transaction, it waits for another one. -/
def create (quotaAwarded : ℤ) : State :=
  if s.row.isSome then s.goto i .ended
  else if usingSQLite then { s with row := some (i, quotaAwarded) }.goto i (.created quotaAwarded)
  else if s.pending.isSome then s
  else { s with pending := some (i, quotaAwarded) }.goto i (.created quotaAwarded)

/-- The update of the quota. `IncreaseUserQuota`, which SQLite uses, refuses a negative one. -/
def updateQuota (quotaAwarded : ℤ) : State :=
  if usingSQLite then
    if quotaAwarded < 0 then s.goto i (.failed quotaAwarded)
    else (s.increase quotaAwarded).goto i .ended
  else s.goto i (.updated quotaAwarded)

/-- The transaction ends: its row and its update are there. -/
def commit (quotaAwarded : ℤ) : State :=
  ({ s with row := s.pending, pending := none }.increase quotaAwarded).goto i .ended

/-- `DB.Delete(checkin)`, by the key of the row. -/
def delete : State := { s with row := s.row.filter fun r => r.1 ≠ i }.goto i .ended

def step (s : State) : Event → State
  | .exec i random =>
    match s.calls i with
    | .start => check setting s i random
    | .checked quotaAwarded => create usingSQLite s i quotaAwarded
    | .created quotaAwarded => updateQuota usingSQLite s i quotaAwarded
    | .updated quotaAwarded => commit s i quotaAwarded
    | .failed _ => delete s i
    | .ended => s
  | .fail i =>
    match s.calls i with
    | .start | .checked _ => s.goto i .ended
    | .created quotaAwarded =>
      if usingSQLite then s.goto i (.failed quotaAwarded)
      else { s with pending := none }.goto i .ended
    | .updated _ => { s with pending := none }.goto i .ended
    -- the row is deleted
    | .failed _ => s
    | .ended => s

/-- **A call holds the row** that it has created and not settled. -/
def Held (quotaAwarded : ℤ) : Prop :=
  if usingSQLite then s.row = some (i, quotaAwarded) ∧ s.pending = none ∧
    (s.calls i = .created quotaAwarded ∨ s.calls i = .failed quotaAwarded)
  else s.row = none ∧ s.pending = some (i, quotaAwarded) ∧
    (s.calls i = .created quotaAwarded ∨ s.calls i = .updated quotaAwarded)

/-- **The three phases of a day**: there is no row, one call holds it, or its award was paid. -/
inductive Phase (s : State) : Prop
  | free (hrow : s.row = none) (hpending : s.pending = none) (hincreases : s.increases = [])
      (hcalls : ∀ j, ¬(s.calls j).Holds)
  | held (i : ℕ) (quotaAwarded : ℤ) (hheld : Held usingSQLite s i quotaAwarded)
      (hincreases : s.increases = []) (hcalls : ∀ j, j ≠ i → ¬(s.calls j).Holds)
  | paid (i : ℕ) (quotaAwarded : ℤ) (hrow : s.row = some (i, quotaAwarded))
      (hpending : s.pending = none) (hincreases : s.increases = [quotaAwarded])
      (hcalls : ∀ j, ¬(s.calls j).Holds)

end Steps

variable {usingSQLite : Bool} {setting : CheckinSetting} {s : State} {i : ℕ} {q random : ℤ}
  {call : Call} {e : Event}

/-! ### The calls -/

@[simp] theorem State.goto_calls_self : (s.goto i call).calls i = call := Function.update_self _ _ _

@[simp] theorem State.goto_calls_of_ne {j : ℕ} (h : j ≠ i) : (s.goto i call).calls j = s.calls j :=
  Function.update_of_ne h _ _

/-- The calls hold nothing, if all but one do not, and this one goes on to hold nothing. -/
theorem not_holds_goto (hcall : ¬call.Holds) (h : ∀ j, j ≠ i → ¬(s.calls j).Holds) (j : ℕ) :
    ¬((s.goto i call).calls j).Holds := by
  by_cases hj : j = i
  · rwa [hj, State.goto_calls_self]
  · rw [State.goto_calls_of_ne hj]
    exact h j hj

theorem Held.holds (h : Held usingSQLite s i q) : (s.calls i).Holds := by
  unfold Held at h
  split at h
  · rcases h.2.2 with hcall | hcall
    all_goals rw [hcall]; trivial
  · rcases h.2.2 with hcall | hcall
    all_goals rw [hcall]; trivial

theorem Phase.held_of_holds (h : Phase usingSQLite s) (hi : (s.calls i).Holds) :
    ∃ q, Held usingSQLite s i q ∧ s.increases = [] ∧ ∀ j, j ≠ i → ¬(s.calls j).Holds := by
  cases h with
  | free _ _ _ hcalls => exact absurd hi (hcalls i)
  | paid _ _ _ _ _ hcalls => exact absurd hi (hcalls i)
  | held k q hheld hincreases hcalls =>
    by_cases hk : i = k
    · subst hk
      exact ⟨q, hheld, hincreases, hcalls⟩
    · exact absurd hi (hcalls i hk)

/-- A call that holds nothing may go on as long as it holds nothing. -/
theorem Phase.goto (h : Phase usingSQLite s) (hi : ¬(s.calls i).Holds) (hcall : ¬call.Holds) :
    Phase usingSQLite (s.goto i call) := by
  cases h with
  | free hrow hpending hincreases hcalls =>
    exact .free hrow hpending hincreases (not_holds_goto hcall fun j _ => hcalls j)
  | paid k q hrow hpending hincreases hcalls =>
    exact .paid k q hrow hpending hincreases (not_holds_goto hcall fun j _ => hcalls j)
  | held k q hheld hincreases hcalls =>
    have hk : k ≠ i := fun hk => hi (hk ▸ hheld.holds)
    refine .held k q ?_ hincreases fun j hj => ?_
    · unfold Held at hheld ⊢
      rwa [State.goto_calls_of_ne hk]
    · by_cases hji : j = i
      · rwa [hji, State.goto_calls_self]
      · rw [State.goto_calls_of_ne hji]
        exact hcalls j hj

/-! ### The statements -/

theorem Phase.check (h : Phase usingSQLite s) (hi : s.calls i = .start) :
    Phase usingSQLite (check setting s i random) := by
  have hnot : ¬(s.calls i).Holds := hi ▸ not_false
  unfold Checkin.check
  split
  · exact h.goto hnot not_false
  · exact h.goto hnot not_false

/-- **A row is created once**: where there is none, and none is on its way. -/
theorem Phase.create (h : Phase usingSQLite s) (hi : s.calls i = .checked q) :
    Phase usingSQLite (create usingSQLite s i q) := by
  have hnot : ¬(s.calls i).Holds := hi ▸ not_false
  unfold Checkin.create
  by_cases hrow : s.row.isSome = true
  · rw [if_pos hrow]
    exact h.goto hnot not_false
  rw [if_neg hrow]
  have hcreated (s' : State) (hcalls : ∀ j, ¬(s'.calls j).Holds) (j : ℕ) (hj : j ≠ i) :
      ¬((s'.goto i (.created q)).calls j).Holds := by
    rw [State.goto_calls_of_ne hj]
    exact hcalls j
  cases h with
  | paid k q' hpaid => exact absurd (hpaid ▸ rfl) hrow
  | free hfree hpending hincreases hcalls =>
    cases usingSQLite with
    | true =>
      refine .held i q ?_ hincreases (hcreated _ hcalls)
      exact ⟨rfl, hpending, Or.inl State.goto_calls_self⟩
    | false =>
      have hnone : ¬s.pending.isSome = true := hpending ▸ Bool.false_ne_true
      rw [if_neg Bool.false_ne_true, if_neg hnone]
      refine .held i q ?_ hincreases (hcreated _ hcalls)
      exact ⟨hfree, rfl, Or.inl State.goto_calls_self⟩
  | held k q' hheld hincreases hcalls =>
    cases usingSQLite with
    | true => exact absurd (hheld.1 ▸ rfl) hrow
    | false =>
      have hpending : s.pending.isSome = true := hheld.2.1 ▸ rfl
      rw [if_neg Bool.false_ne_true, if_pos hpending]
      exact .held k q' hheld hincreases hcalls

theorem held_sqlite : Held true s i q ↔ s.row = some (i, q) ∧ s.pending = none ∧
    (s.calls i = .created q ∨ s.calls i = .failed q) := Iff.rfl

theorem held_transaction : Held false s i q ↔ s.row = none ∧ s.pending = some (i, q) ∧
    (s.calls i = .created q ∨ s.calls i = .updated q) := Iff.rfl

theorem Phase.updateQuota (h : Phase usingSQLite s) (hi : s.calls i = .created q) :
    Phase usingSQLite (updateQuota usingSQLite s i q) := by
  obtain ⟨q', hheld, hincreases, hcalls⟩ := h.held_of_holds (i := i) (hi ▸ trivial)
  have hothers (call : Call) (s' : State) (hs' : s'.calls = s.calls) (j : ℕ) (hj : j ≠ i) :
      ¬((s'.goto i call).calls j).Holds := by
    rw [State.goto_calls_of_ne hj, hs']
    exact hcalls j hj
  cases usingSQLite with
  | true =>
    obtain ⟨hrow, hpending, hcall⟩ := held_sqlite.1 hheld
    obtain rfl : q' = q := by
      rcases hcall with hcall | hcall
      · exact Call.created.inj (hcall.symm.trans hi)
      · cases hcall.symm.trans hi
    unfold Checkin.updateQuota
    rw [if_pos rfl]
    split
    · refine .held i q' ?_ hincreases (hothers _ _ rfl)
      exact ⟨hrow, hpending, Or.inr State.goto_calls_self⟩
    · exact .paid i q' hrow hpending (congrArg (q' :: ·) hincreases)
        (not_holds_goto not_false hcalls)
  | false =>
    obtain ⟨hrow, hpending, hcall⟩ := held_transaction.1 hheld
    obtain rfl : q' = q := by
      rcases hcall with hcall | hcall
      · exact Call.created.inj (hcall.symm.trans hi)
      · cases hcall.symm.trans hi
    unfold Checkin.updateQuota
    rw [if_neg Bool.false_ne_true]
    refine .held i q' ?_ hincreases (hothers _ _ rfl)
    exact ⟨hrow, hpending, Or.inr State.goto_calls_self⟩

/-- **The transaction pays its own row.** -/
theorem Phase.commit (h : Phase usingSQLite s) (hi : s.calls i = .updated q) :
    Phase usingSQLite (commit s i q) := by
  obtain ⟨q', hheld, hincreases, hcalls⟩ := h.held_of_holds (i := i) (hi ▸ trivial)
  cases usingSQLite with
  | true =>
    rcases (held_sqlite.1 hheld).2.2 with hcall | hcall
    · cases hcall.symm.trans hi
    · cases hcall.symm.trans hi
  | false =>
    obtain ⟨-, hpending, hcall⟩ := held_transaction.1 hheld
    obtain rfl : q' = q := by
      rcases hcall with hcall | hcall
      · cases hcall.symm.trans hi
      · exact Call.updated.inj (hcall.symm.trans hi)
    exact .paid i q' hpending rfl (congrArg (q' :: ·) hincreases) (not_holds_goto not_false hcalls)

/-- **The row that is deleted** is the call's own, and was not paid. -/
theorem Phase.delete (h : Phase usingSQLite s) (hi : s.calls i = .failed q) :
    Phase usingSQLite (delete s i) := by
  obtain ⟨q', hheld, hincreases, hcalls⟩ := h.held_of_holds (i := i) (hi ▸ trivial)
  cases usingSQLite with
  | true =>
    obtain ⟨hrow, hpending, -⟩ := held_sqlite.1 hheld
    have hgone : s.row.filter (fun r => r.1 ≠ i) = none := by
      rw [hrow, Option.filter_some, if_neg (by simp)]
    exact .free hgone hpending hincreases (not_holds_goto not_false hcalls)
  | false =>
    rcases (held_transaction.1 hheld).2.2 with hcall | hcall
    · cases hcall.symm.trans hi
    · cases hcall.symm.trans hi

theorem Phase.rollback (h : Phase false s) (hi : (s.calls i).Holds) :
    Phase false ({ s with pending := none }.goto i .ended) := by
  obtain ⟨q, hheld, hincreases, hcalls⟩ := h.held_of_holds hi
  exact .free (held_transaction.1 hheld).1 rfl hincreases (not_holds_goto not_false hcalls)

/-- Without a transaction the row is still there, when the update has failed. -/
theorem Phase.fail (h : Phase true s) (hi : s.calls i = .created q) :
    Phase true (s.goto i (.failed q)) := by
  obtain ⟨q', hheld, hincreases, hcalls⟩ := h.held_of_holds (i := i) (hi ▸ trivial)
  obtain ⟨hrow, hpending, hcall⟩ := held_sqlite.1 hheld
  obtain rfl : q' = q := by
    rcases hcall with hcall | hcall
    · exact Call.created.inj (hcall.symm.trans hi)
    · cases hcall.symm.trans hi
  refine .held i q' ⟨hrow, hpending, Or.inr State.goto_calls_self⟩ hincreases fun j hj => ?_
  rw [State.goto_calls_of_ne hj]
  exact hcalls j hj

theorem Phase.step (h : Phase usingSQLite s) (e : Event) :
    Phase usingSQLite (step usingSQLite setting s e) := by
  cases e with
  | exec i random =>
    simp only [Checkin.step]
    cases hi : s.calls i with
    | start => exact h.check hi
    | checked q => exact h.create hi
    | created q => exact h.updateQuota hi
    | updated q => exact h.commit hi
    | failed q => exact h.delete hi
    | ended => exact h
  | fail i =>
    simp only [Checkin.step]
    cases hi : s.calls i with
    | start => exact h.goto (hi ▸ not_false) not_false
    | checked q => exact h.goto (hi ▸ not_false) not_false
    | created q =>
      cases usingSQLite with
      | true => exact h.fail hi
      | false => exact h.rollback (hi ▸ trivial)
    | updated q =>
      cases usingSQLite with
      | true =>
        obtain ⟨q', hheld, -⟩ := h.held_of_holds (i := i) (hi ▸ trivial)
        rcases (held_sqlite.1 hheld).2.2 with hcall | hcall
        · cases hcall.symm.trans hi
        · cases hcall.symm.trans hi
      | false => exact h.rollback (hi ▸ trivial)
    | failed q => exact h
    | ended => exact h

/-! ### The quota -/

/-- The quota is what it was, and what it was increased by. -/
def Adds (quota : ℤ) (s : State) : Prop := s.quota = quota + s.increases.sum

variable {quota : ℤ}

theorem Adds.increase (h : Adds quota s) (q : ℤ) : Adds quota (s.increase q) := by
  unfold Adds at *
  rw [State.increase, List.sum_cons, h]
  dsimp only
  omega

theorem Adds.check (h : Adds quota s) : Adds quota (check setting s i random) := by
  rw [Checkin.check]
  split <;> exact h

theorem Adds.create (h : Adds quota s) : Adds quota (create usingSQLite s i q) := by
  rw [Checkin.create]
  split_ifs <;> exact h

theorem Adds.updateQuota (h : Adds quota s) :
    Adds quota (updateQuota usingSQLite s i q) := by
  rw [Checkin.updateQuota]
  split_ifs
  · exact h
  · exact h.increase q
  · exact h

theorem Adds.commit (h : Adds quota s) : Adds quota (commit s i q) := by
  have hmoved : Adds quota { s with row := s.pending, pending := none } := h
  exact hmoved.increase q

theorem Adds.step (h : Adds quota s) (e : Event) :
    Adds quota (step usingSQLite setting s e) := by
  cases e with
  | exec i random =>
    simp only [Checkin.step]
    cases s.calls i with
    | start => exact h.check
    | checked q => exact h.create
    | created q => exact h.updateQuota
    | updated q => exact h.commit
    | failed q => exact h
    | ended => exact h
  | fail i =>
    simp only [Checkin.step]
    cases s.calls i with
    | created q =>
      dsimp only
      split <;> exact h
    | start | checked | updated | failed | ended => exact h

/-- **All calls have returned**, as far as they were made. -/
def Returned (s : State) : Prop := ∀ i, s.calls i = .start ∨ s.calls i = .ended

theorem Returned.not_holds (h : Returned s) (i : ℕ) : ¬(s.calls i).Holds := by
  rcases h i with hi | hi
  · exact hi ▸ not_false
  · exact hi ▸ not_false

/-- **The day pays once**: in every state of every run the quota was increased at most once, and
when all calls have returned, it was increased by the award of the row, or there is no row. -/
theorem quota_eq_row (usingSQLite : Bool) (setting : CheckinSetting) (quota : ℤ)
    (es : List Event) :
    (run (step usingSQLite setting) (.init quota) es).increases.length ≤ 1 ∧
    (run (step usingSQLite setting) (.init quota) es).quota =
      quota + (run (step usingSQLite setting) (.init quota) es).increases.sum ∧
    (Returned (run (step usingSQLite setting) (.init quota) es) →
      (run (step usingSQLite setting) (.init quota) es).increases =
        ((run (step usingSQLite setting) (.init quota) es).row.map Prod.snd).toList) := by
  have hinit : Phase usingSQLite (.init quota) := .free rfl rfl rfl fun _ => id
  have hphase : Phase usingSQLite (run (step usingSQLite setting) (.init quota) es) :=
    inv_run_always (fun s e (h : Phase usingSQLite s) => h.step e) hinit es
  have hzero : Adds quota (.init quota) := (Int.add_zero quota).symm
  have hadds : Adds quota (run (step usingSQLite setting) (.init quota) es) :=
    inv_run_always (fun s e (h : Adds quota s) => h.step e) hzero es
  refine ⟨?_, hadds, fun hreturned => ?_⟩
  · cases hphase with
    | free _ _ hincreases _ => exact hincreases ▸ Nat.zero_le 1
    | held _ _ _ hincreases _ => exact hincreases ▸ Nat.zero_le 1
    | paid _ _ _ _ hincreases _ => exact hincreases ▸ Nat.le_refl 1
  · cases hphase with
    | free hrow _ hincreases _ => rw [hrow, hincreases]; rfl
    | held i _ hheld _ _ => exact absurd hheld.holds (hreturned.not_holds i)
    | paid _ _ hrow _ hincreases _ => rw [hrow, hincreases]; rfl

/-- Without transactions: the update of the first call fails, the second one finds its row, and the
third one comes after it was deleted. -/
def threeCalls : List Event :=
  [.exec 0 0, .exec 1 0, .exec 0 0, .fail 0, .exec 1 0, .exec 0 0, .exec 2 0, .exec 2 0, .exec 2 0]

theorem quota_eq_row_threeCalls : (run (step true ⟨5, 5⟩) (.init 0) threeCalls).increases =
    ((run (step true ⟨5, 5⟩) (.init 0) threeCalls).row.map Prod.snd).toList :=
  (quota_eq_row true ⟨5, 5⟩ 0 threeCalls).2.2 fun i => match i with
    | 0 | 1 | 2 => Or.inr rfl
    | _ + 3 => Or.inl rfl

end NewApiPool.Checkin
