import NewApiPool.Lib.Runs
import NewApiPool.Lib.Tally

/-!
# The balances on a user's row

Five operations change the quota or the affiliate quota of a user. Two of them are one
relative `UPDATE`. The other three read the row, change their copy and write it back:
`inviteUser` with `Save`, which writes every column; `TransferAffQuotaToQuota` with
`Save` too, in a transaction; `User.Update` with `Updates`, which writes the columns that
are not zero in a copy loaded some time before.

The transaction of a transfer does not help it. The option `gorm:query_option` is one of
the first version of gorm and does nothing in the second, so its `SELECT` is a plain one;
what the transaction has is the lock on the row from its `Save` to its `Commit`.

A write-back loses whatever the others have done to its columns since it read them
(`NewApiPool.User.lost_update_profile`). If the balances it writes are the ones in the row
at that moment, nothing is lost (`NewApiPool.User.no_lost_update_of_fresh`).
-/

namespace NewApiPool.User

open EventSystem Tally

/-! ### The row -/

/-- The columns of `users` the operations are about. `setting` stands for the columns a
profile or settings change writes. -/
structure Row where
  quota : Int
  affCount : Int
  affQuota : Int
  affHistoryQuota : Int
  setting : String
deriving DecidableEq, Repr

/-- The settings the operations read. -/
structure Config where
  /-- `common.QuotaForInviter` -/
  quotaForInviter : Int
  /-- `float64(quota) < common.QuotaPerUnit`, a comparison of floats -/
  tooSmall : Int → Bool
  /-- `logger.LogQuota(int(common.QuotaPerUnit))` -/
  minimumText : String

/-- The operations, on the one user. -/
inductive Op where
  | increaseUserQuota (quota : Int)
  | decreaseUserQuota (quota : Int)
  | inviteUser
  | transferAffQuotaToQuota (quota : Int)
  /-- A user is loaded, their settings are replaced, and `User.Update` is called. -/
  | update (setting : String)
deriving DecidableEq, Repr

/-- The copy `inviteUser` saves. -/
def Row.invited (cfg : Config) (copy : Row) : Row :=
  { copy with
    affCount := copy.affCount + 1
    affQuota := copy.affQuota + cfg.quotaForInviter
    affHistoryQuota := copy.affHistoryQuota + cfg.quotaForInviter }

/-- The copy `TransferAffQuotaToQuota` saves. -/
def Row.transferred (quota : Int) (copy : Row) : Row :=
  { copy with affQuota := copy.affQuota - quota, quota := copy.quota + quota }

/-- `Updates` with a struct: the columns that are not zero in it are written. -/
def Row.updates (row newUser : Row) : Row :=
  { quota := if newUser.quota = 0 then row.quota else newUser.quota
    affCount := if newUser.affCount = 0 then row.affCount else newUser.affCount
    affQuota := if newUser.affQuota = 0 then row.affQuota else newUser.affQuota
    affHistoryQuota :=
      if newUser.affHistoryQuota = 0 then row.affHistoryQuota else newUser.affHistoryQuota
    setting := if newUser.setting = "" then row.setting else newUser.setting }

/-! ### The operations, statement by statement -/

/-- How far an operation has come. -/
inductive Stage where
  | called
  /-- It has read the row. -/
  | loaded (copy : Row)
  /-- `User.Update` has read the row a second time, into the struct it does not write. -/
  | reread (newUser : Row)
  /-- A transfer has saved `copy` and not committed. -/
  | saved (copy : Row)
  | returned (err : Option String)
deriving DecidableEq, Repr

/-- An operation in progress. -/
structure Proc where
  op : Op
  stage : Stage
deriving DecidableEq, Repr

/-- The row as it is committed, the transfer that has it locked, and the operations. -/
structure State where
  row : Row
  lock : Option Nat
  procs : List Proc
deriving DecidableEq, Repr

/-- No operation has been called. -/
def State.start (row : Row) : State := ⟨row, none, []⟩

/-- An operation is called, or executes its next statement. -/
inductive Event where
  | call (op : Op)
  | exec (i : Nat)
deriving DecidableEq, Repr

/-- What a statement of the `i`-th operation leaves: the row, the lock and the stage. A
statement that waits for the lock leaves nothing yet. -/
def exec (cfg : Config) (s : State) (i : Nat) (p : Proc) : Option (Row × Option Nat × Stage) :=
  match p.op, p.stage with
  | .increaseUserQuota quota, .called =>
    if quota < 0 then some (s.row, s.lock, .returned (some "quota 不能为负数！"))
    else if s.lock = none then
      some ({ s.row with quota := s.row.quota + quota }, none, .returned none)
    else none
  | .decreaseUserQuota quota, .called =>
    if quota < 0 then some (s.row, s.lock, .returned (some "quota 不能为负数！"))
    else if s.lock = none then
      some ({ s.row with quota := s.row.quota - quota }, none, .returned none)
    else none
  | .inviteUser, .called => some (s.row, s.lock, .loaded s.row)
  | .inviteUser, .loaded copy =>
    if s.lock = none then some (copy.invited cfg, none, .returned none) else none
  | .transferAffQuotaToQuota quota, .called =>
    if cfg.tooSmall quota then
      some (s.row, s.lock, .returned (some ("转移额度最小为" ++ cfg.minimumText ++ "！")))
    else some (s.row, s.lock, .loaded s.row)
  | .transferAffQuotaToQuota quota, .loaded copy =>
    if copy.affQuota < quota then some (s.row, s.lock, .returned (some "邀请额度不足！"))
    else if s.lock = none then some (s.row, some i, .saved (copy.transferred quota))
    else none
  | .transferAffQuotaToQuota _, .saved copy => some (copy, none, .returned none)
  | .update setting, .called => some (s.row, s.lock, .loaded { s.row with setting := setting })
  | .update _, .loaded newUser => some (s.row, s.lock, .reread newUser)
  | .update _, .reread newUser =>
    if s.lock = none then some (s.row.updates newUser, none, .returned none) else none
  | _, _ => none

/-- One event: an operation is called, or one statement of an operation in progress is executed. -/
def step (cfg : Config) (s : State) : Event → State
  | .call op => { s with procs := s.procs ++ [⟨op, .called⟩] }
  | .exec i =>
    match s.procs[i]? with
    | none => s
    | some p =>
      match exec cfg s i p with
      | none => s
      | some (row, lock, stage) => ⟨row, lock, s.procs.set i { p with stage := stage }⟩

/-! ### What the balances should be -/

/-- What an operation is to add to the quota. -/
def Op.quotaDelta : Op → Int
  | .increaseUserQuota quota => quota
  | .decreaseUserQuota quota => -quota
  | .transferAffQuotaToQuota quota => quota
  | _ => 0

/-- What an operation is to add to the affiliate quota. -/
def Op.affDelta (cfg : Config) : Op → Int
  | .inviteUser => cfg.quotaForInviter
  | .transferAffQuotaToQuota quota => -quota
  | _ => 0

/-- What an operation has added to the quota, if it has returned without an error. -/
def Proc.quotaChange (p : Proc) : Int :=
  match p.stage with
  | .returned none => p.op.quotaDelta
  | _ => 0

/-- What an operation has added to the affiliate quota. -/
def Proc.affChange (cfg : Config) (p : Proc) : Int :=
  match p.stage with
  | .returned none => p.op.affDelta cfg
  | _ => 0

/-- **No update is lost** since the row was `r₀`: the balances are what they were with what
the operations have added, and no transfer is about to leave less than nothing. -/
structure NoLostUpdate (cfg : Config) (r₀ : Row) (s : State) : Prop where
  quota : s.row.quota = r₀.quota + tally s.procs Proc.quotaChange
  affQuota : s.row.affQuota = r₀.affQuota + tally s.procs (Proc.affChange cfg)
  transfer : ∀ p ∈ s.procs, ∀ copy, p.stage = .saved copy → 0 ≤ copy.affQuota

/-- The balances of a copy are the ones in the row. -/
def Row.SameBalances (copy row : Row) : Prop :=
  copy.quota = row.quota ∧ copy.affQuota = row.affQuota

/-- **What is written back is what is there**: the balances in the copy of an operation
that is about to write it are the ones in the row, those apart that `Updates` skips. -/
def Proc.Fresh (row : Row) (p : Proc) : Prop :=
  match p.op, p.stage with
  | .inviteUser, .loaded copy => copy.SameBalances row
  | .transferAffQuotaToQuota quota, .loaded copy =>
    quota ≤ copy.affQuota → copy.SameBalances row
  | .update _, .reread newUser =>
    (newUser.quota = 0 ∨ newUser.quota = row.quota) ∧
      (newUser.affQuota = 0 ∨ newUser.affQuota = row.affQuota)
  | _, _ => True

/-- The condition on an event. A write that waits for the lock is not made yet. -/
def Fresh (s : State) : Event → Prop
  | .call _ => True
  | .exec i => s.lock = none → ∀ p, s.procs[i]? = some p → p.Fresh s.row

/-! ### One statement -/

/-- The stages in which an operation has neither written nor returned. -/
def Stage.Open : Stage → Prop
  | .called => True
  | .loaded _ => True
  | .reread _ => True
  | _ => False

/-- **What a statement can do** to the row and to the lock, with the stage of the operation before
it and after it. -/
inductive Effect (cfg : Config) (s : State) (i : Nat) (p : Proc) : Row → Option Nat → Stage → Prop
  /-- It reads the row, and goes on with a copy. -/
  | read (stage : Stage) (hp : p.stage.Open) (hs : stage.Open) : Effect cfg s i p s.row s.lock stage
  /-- The operation is refused. -/
  | refuse (err : String) (hp : p.stage.Open) :
    Effect cfg s i p s.row s.lock (.returned (some err))
  /-- It writes, and the operation is done. -/
  | write (row : Row) (hp : p.stage.Open) (hlock : s.lock = none)
    (hquota : row.quota = s.row.quota + p.op.quotaDelta)
    (haff : row.affQuota = s.row.affQuota + p.op.affDelta cfg) :
    Effect cfg s i p row none (.returned none)
  /-- A transfer saves its copy. -/
  | save (copy : Row) (hp : p.stage.Open) (hlock : s.lock = none)
    (hquota : copy.quota = s.row.quota + p.op.quotaDelta)
    (haff : copy.affQuota = s.row.affQuota + p.op.affDelta cfg) (hnonneg : 0 ≤ copy.affQuota) :
    Effect cfg s i p s.row (some i) (.saved copy)
  /-- A transfer commits. -/
  | commit (copy : Row) (hp : p.stage = .saved copy) : Effect cfg s i p copy none (.returned none)

/-- `Updates` with balances that are the row's, or zero, leaves the balances alone. -/
theorem updates_balances {row newUser : Row}
    (hq : newUser.quota = 0 ∨ newUser.quota = row.quota)
    (ha : newUser.affQuota = 0 ∨ newUser.affQuota = row.affQuota) :
    (row.updates newUser).quota = row.quota ∧ (row.updates newUser).affQuota = row.affQuota := by
  constructor
  · rcases hq with hq | hq <;> simp [Row.updates, hq]
  · rcases ha with ha | ha <;> simp [Row.updates, ha]

theorem exec_effect {cfg : Config} {s : State} {i : Nat} {p : Proc} {row : Row}
    {lock : Option Nat} {stage : Stage} (hfresh : s.lock = none → p.Fresh s.row)
    (h : exec cfg s i p = some (row, lock, stage)) : Effect cfg s i p row lock stage := by
  obtain ⟨op, st⟩ := p
  cases op with
  | increaseUserQuota quota =>
    cases st <;> simp only [exec] at h
    case called =>
      split_ifs at h with hneg hlock
      · cases h
        exact .refuse _ trivial
      · cases h
        exact .write _ trivial hlock rfl (by simp [Op.affDelta])
    all_goals cases h
  | decreaseUserQuota quota =>
    cases st <;> simp only [exec] at h
    case called =>
      split_ifs at h with hneg hlock
      · cases h
        exact .refuse _ trivial
      · cases h
        exact .write _ trivial hlock rfl (by simp [Op.affDelta])
    all_goals cases h
  | inviteUser =>
    cases st <;> simp only [exec] at h
    case called =>
      cases h
      exact .read _ trivial trivial
    case loaded copy =>
      split_ifs at h with hlock
      cases h
      have hsame : copy.SameBalances s.row := hfresh hlock
      refine .write _ trivial hlock ?_ ?_
      · simp [Row.invited, hsame.1, Op.quotaDelta]
      · simp [Row.invited, hsame.2, Op.affDelta]
    all_goals cases h
  | transferAffQuotaToQuota quota =>
    cases st <;> simp only [exec] at h
    case called =>
      split_ifs at h
      · cases h
        exact .refuse _ trivial
      · cases h
        exact .read _ trivial trivial
    case loaded copy =>
      split_ifs at h with hless hlock
      · cases h
        exact .refuse _ trivial
      · cases h
        have hsame : copy.SameBalances s.row := hfresh hlock (not_lt.mp hless)
        refine .save _ trivial hlock ?_ ?_ ?_
        · simp [Row.transferred, hsame.1, Op.quotaDelta]
        · simp [Row.transferred, hsame.2, Op.affDelta, sub_eq_add_neg]
        · -- the check is on the copy that is saved
          simp only [Row.transferred]
          omega
    case saved copy =>
      cases h
      exact .commit _ rfl
    all_goals cases h
  | update setting =>
    cases st <;> simp only [exec] at h
    case called =>
      cases h
      exact .read _ trivial trivial
    case loaded newUser =>
      cases h
      exact .read _ trivial trivial
    case reread newUser =>
      split_ifs at h with hlock
      cases h
      obtain ⟨hq, ha⟩ := updates_balances (hfresh hlock).1 (hfresh hlock).2
      refine .write _ trivial hlock ?_ ?_
      · simp [hq, Op.quotaDelta]
      · simp [ha, Op.affDelta]
    all_goals cases h

/-! ### Whole runs -/

section Runs

variable {cfg : Config} {r₀ : Row} {s : State}

theorem changes_of_open (cfg : Config) {p : Proc} (h : p.stage.Open) :
    p.quotaChange = 0 ∧ p.affChange cfg = 0 := by
  obtain ⟨op, stage⟩ := p
  cases stage with
  | called => exact ⟨rfl, rfl⟩
  | loaded copy => exact ⟨rfl, rfl⟩
  | reread newUser => exact ⟨rfl, rfl⟩
  | saved copy => cases h
  | returned err => cases h

/-- **What holds in every state of a run without stale write-backs**: besides the claim of
`NewApiPool.User.NoLostUpdate`, a transfer that has saved has the row locked, and its copy
is the row with the transfer made. -/
structure Inv (cfg : Config) (r₀ : Row) (s : State) : Prop extends NoLostUpdate cfg r₀ s where
  locked : ∀ i p copy, s.procs[i]? = some p → p.stage = .saved copy →
    s.lock = some i ∧ copy.quota = s.row.quota + p.op.quotaDelta ∧
      copy.affQuota = s.row.affQuota + p.op.affDelta cfg

theorem inv_start (cfg : Config) (r₀ : Row) : Inv cfg r₀ (.start r₀) where
  quota := (add_zero r₀.quota).symm
  affQuota := (add_zero r₀.affQuota).symm
  transfer p hp := absurd hp List.not_mem_nil
  locked i p copy hi := by simp [State.start] at hi

theorem Inv.call (h : Inv cfg r₀ s) (op : Op) : Inv cfg r₀ (step cfg s (.call op)) where
  quota := by simpa [step, Proc.quotaChange] using h.quota
  affQuota := by simpa [step, Proc.affChange] using h.affQuota
  transfer p hp := by
    rcases List.mem_append.mp hp with hp | hp
    · exact h.transfer p hp
    · obtain rfl := List.mem_singleton.mp hp
      nofun
  locked i p copy hi hs := by
    rcases List.mem_append.mp (List.mem_of_getElem? hi) with hmem | hmem
    · have hlt : i < s.procs.length := by
        by_contra hge
        rw [step, List.getElem?_append_right (not_lt.mp hge)] at hi
        obtain rfl := List.mem_singleton.mp (List.mem_of_getElem? hi)
        cases hs
      exact h.locked i p copy (by rwa [step, List.getElem?_append_left hlt] at hi) hs
    · obtain rfl := List.mem_singleton.mp hmem
      cases hs

/-- An operation other than the `i`-th is as it was after a statement of the `i`-th. -/
theorem getElem?_of_set {l : List Proc} {i j : Nat} {p q : Proc} (h : (l.set i q)[j]? = some p) :
    (j = i ∧ p = q) ∨ (j ≠ i ∧ l[j]? = some p) := by
  by_cases hij : i = j
  · subst hij
    rw [List.getElem?_set_self'] at h
    left
    refine ⟨rfl, ?_⟩
    rcases hl : l[i]? with _ | x <;> simp [hl] at h
    exact h.symm
  · rw [List.getElem?_set_ne hij] at h
    exact Or.inr ⟨Ne.symm hij, h⟩

/-- A statement keeps the invariant if the row changes by what the operation is done with,
and the saved copies, of this operation and of the others, are right. -/
theorem Inv.set (h : Inv cfg r₀ s) {i : Nat} {p : Proc} {row : Row} {lock : Option Nat}
    {stage : Stage} (hi : s.procs[i]? = some p)
    (hquota : row.quota =
      s.row.quota + (Proc.quotaChange { p with stage := stage } - p.quotaChange))
    (haff : row.affQuota =
      s.row.affQuota + (Proc.affChange cfg { p with stage := stage } - p.affChange cfg))
    (hself : ∀ copy, stage = .saved copy → 0 ≤ copy.affQuota ∧ lock = some i ∧
      copy.quota = row.quota + p.op.quotaDelta ∧ copy.affQuota = row.affQuota + p.op.affDelta cfg)
    (hothers : ∀ j q copy, j ≠ i → s.procs[j]? = some q → q.stage = .saved copy →
      lock = some j ∧ row = s.row) :
    Inv cfg r₀ ⟨row, lock, s.procs.set i { p with stage := stage }⟩ where
  quota := by
    have := h.quota
    dsimp only
    rw [tally_set hi]
    omega
  affQuota := by
    have := h.affQuota
    dsimp only
    rw [tally_set hi]
    omega
  transfer q hq copy hs := by
    rcases List.mem_or_eq_of_mem_set hq with hq | rfl
    · exact h.transfer q hq copy hs
    · exact (hself copy hs).1
  locked j q copy hj hs := by
    rcases getElem?_of_set hj with ⟨rfl, rfl⟩ | ⟨hne, hj⟩
    · exact (hself copy hs).2
    · obtain ⟨hlock, hrow⟩ := hothers j q copy hne hj hs
      exact ⟨hlock, hrow ▸ (h.locked j q copy hj hs).2⟩

theorem Inv.exec (h : Inv cfg r₀ s) {i : Nat} {p : Proc} {row : Row} {lock : Option Nat}
    {stage : Stage} (hi : s.procs[i]? = some p) (he : Effect cfg s i p row lock stage) :
    Inv cfg r₀ ⟨row, lock, s.procs.set i { p with stage := stage }⟩ := by
  -- where the row is not locked, no transfer has saved
  have hfree : s.lock = none → ∀ (j : Nat) (q : Proc) (copy : Row), s.procs[j]? = some q →
      q.stage ≠ .saved copy := by
    intro hlock j q copy hj hs
    have := (h.locked j q copy hj hs).1
    rw [hlock] at this
    cases this
  cases he with
  | read _ hp hs =>
    have hold := changes_of_open cfg hp
    have hnew := changes_of_open cfg (p := { p with stage := stage }) hs
    refine h.set hi ?_ ?_ ?_ fun j q copy _ hj hq => ⟨(h.locked j q copy hj hq).1, rfl⟩
    · rw [hold.1, hnew.1]
      omega
    · rw [hold.2, hnew.2]
      omega
    · rintro copy rfl
      cases hs
  | refuse err hp =>
    have hold := changes_of_open cfg hp
    refine h.set hi ?_ ?_ nofun fun j q copy _ hj hq => ⟨(h.locked j q copy hj hq).1, rfl⟩
    · rw [hold.1]
      exact (add_zero _).symm
    · rw [hold.2]
      exact (add_zero _).symm
  | write _ hp hlock hquota haff =>
    have hold := changes_of_open cfg hp
    refine h.set hi ?_ ?_ nofun fun j q copy _ hj hq => absurd hq (hfree hlock j q copy hj)
    · rw [hold.1, sub_zero]
      exact hquota
    · rw [hold.2, sub_zero]
      exact haff
  | save copy hp hlock hquota haff hnonneg =>
    have hold := changes_of_open cfg hp
    refine h.set hi ?_ ?_ ?_ fun j q copy _ hj hq => absurd hq (hfree hlock j q copy hj)
    · rw [hold.1]
      exact (add_zero _).symm
    · rw [hold.2]
      exact (add_zero _).symm
    · intro copy' heq
      obtain rfl := Stage.saved.inj heq
      exact ⟨hnonneg, rfl, hquota, haff⟩
  | commit copy hp =>
    obtain ⟨hlock, hquota, haff⟩ := h.locked i p _ hi hp
    have hold : p.quotaChange = 0 ∧ p.affChange cfg = 0 := by
      simp [Proc.quotaChange, Proc.affChange, hp]
    refine h.set hi ?_ ?_ nofun fun j q copy hne hj hq => ?_
    · rw [hold.1, sub_zero]
      exact hquota
    · rw [hold.2, sub_zero]
      exact haff
    · -- only one operation has the lock
      have := (h.locked j q copy hj hq).1
      rw [hlock] at this
      exact absurd (Option.some.inj this).symm hne

theorem Inv.step (h : Inv cfg r₀ s) {e : Event} (hf : Fresh s e) :
    Inv cfg r₀ (step cfg s e) := by
  cases e with
  | call op => exact h.call op
  | exec i =>
    rcases hi : s.procs[i]? with _ | p
    · simpa only [User.step, hi] using h
    rcases he : User.exec cfg s i p with _ | ⟨row, lock, stage⟩
    · simpa only [User.step, hi, he] using h
    · simp only [User.step, hi, he]
      exact h.exec hi (exec_effect (fun hlock => hf hlock p hi) he)

/-- **No update is lost as long as every copy that is written back has the balances of the
row**: in every run whose write-backs – the `Save` of an invitation or of a transfer, the
`Updates` of a profile – find the quota and the affiliate quota as they were read. -/
theorem no_lost_update_of_fresh (cfg : Config) (r₀ : Row) (es : List Event)
    (h : Along (step cfg) Fresh (.start r₀) es) :
    NoLostUpdate cfg r₀ (run (step cfg) (.start r₀) es) :=
  (inv_run (I := Inv cfg r₀) (fun _ _ hs hf => hs.step hf) (inv_start cfg r₀) h).toNoLostUpdate

end Runs

/-! ### A profile saved over a charge -/

/-- A bonus of 50 for an invitation, and no minimum for a transfer. -/
def bonus : Config := ⟨50, fun quota => decide (quota < 1), "1"⟩

/-- A user with a quota of 100 and 40 from invitations. -/
def user : Row := ⟨100, 1, 40, 40, "{}"⟩

/-- A charge of 30 between the loading of a user and `User.Update`. -/
def profileOverCharge : List Event :=
  [.call (.update "dark"), .exec 0, .call (.decreaseUserQuota 30), .exec 1, .exec 0, .exec 0]

/-- **The charge is undone**: the quota is 100 again, not 70. -/
theorem lost_update_profile :
    ¬NoLostUpdate bonus user (run (step bonus) (.start user) profileOverCharge) :=
  fun h => absurd h.quota (by decide)

/-- All five operations, none of them between the read and the write-back of another. -/
def inTurn : List Event :=
  [.call (.decreaseUserQuota 30), .exec 0, .call .inviteUser, .exec 1, .exec 1,
    .call (.transferAffQuotaToQuota 60), .exec 2, .exec 2, .call (.increaseUserQuota 5), .exec 3,
    .exec 2, .exec 3, .call (.update "dark"), .exec 4, .exec 4, .exec 4]

theorem no_lost_update_in_turn :
    Along (step bonus) Fresh (.start user) inTurn ∧
      NoLostUpdate bonus user (run (step bonus) (.start user) inTurn) := by
  have h : Along (step bonus) Fresh (.start user) inTurn := by
    refine ⟨trivial, ?_, trivial, ?_, ?_, trivial, ?_, ?_, trivial, ?_, ?_, ?_, trivial, ?_, ?_,
      ?_, trivial⟩ <;> intro hlock p hp <;> obtain rfl := Option.some.inj hp
    case refine_3 => exact ⟨rfl, rfl⟩
    case refine_5 => exact fun _ => ⟨rfl, rfl⟩
    case refine_11 => exact ⟨Or.inr rfl, Or.inr rfl⟩
    all_goals trivial
  exact ⟨h, no_lost_update_of_fresh bonus user inTurn h⟩

end NewApiPool.User
