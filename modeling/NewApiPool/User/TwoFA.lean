import Mathlib.Algebra.Group.Nat.Defs
import Mathlib.Data.List.Nodup
import NewApiPool.Lib.GoText
import NewApiPool.Lib.Runs

/-!
# The second factor

An attempt loads the row of `two_fas` and calls `ValidateTOTPAndUpdateUsage` or
`ValidateBackupCodeAndUpdateUsage`, which change the copy and save all of it. A backup code
is looked for among the unused ones, and its row is saved as used in a statement of its own.

Attempts that overlap work on the same copy: one backup code is accepted for both of them
(`backup_code_twice`), and however many wrong codes they evaluate, the counter in the row is
what the last one of them writes. If no attempt loads the row while another one is on its
way, each backup code is accepted once at most, and after `MaxFailAttempts` wrong codes the
account is locked (`guarded_of_exclusive`).
-/

namespace NewApiPool.TwoFactor

open EventSystem

/-! ### Rows and codes -/

/-- `TwoFA`. Times are in nanoseconds. -/
structure TwoFA where
  id : ℕ
  userId : ℕ
  secret : String
  isEnabled : Bool
  failedAttempts : ℕ
  lockedUntil : Option ℕ := none
  lastUsedAt : Option ℕ := none
deriving DecidableEq, Repr

structure TwoFABackupCode where
  id : ℕ
  userId : ℕ
  codeHash : String
  isUsed : Bool := false
  usedAt : Option ℕ := none
deriving DecidableEq, Repr

def maxFailAttempts : ℕ := 5

/-- `LockoutDuration`, in nanoseconds -/
def lockoutDuration : ℕ := 300 * 10 ^ 9

def backupCodeLength : ℕ := 8

/-- What the code uses of its surroundings: `totp.Validate`, of a code, a secret and the
time, and `bcrypt.CompareHashAndPassword`. -/
structure Env where
  totpValidate : String → String → ℕ → Bool
  compareHashAndPassword : String → String → Bool

def validateTOTPCode (env : Env) (secret code : String) (now : ℕ) : Bool :=
  let cleanCode := String.ofList (code.toList.filter (· ≠ ' '))
  if cleanCode.utf8ByteSize ≠ 6 then false else env.totpValidate cleanCode secret now

/-- `strings.ToUpper`, as a comparison with ASCII letters sees it: the only characters
outside ASCII with an upper case inside it are the dotless i and the long s. -/
def toUpper (s : String) : String :=
  String.ofList <| s.toList.map fun c =>
    if c.toNat = 0x131 then 'I' else if c.toNat = 0x17F then 'S' else c.toUpper

/-- A backup code without its separators. -/
def cleanBackupCode (code : String) : String :=
  toUpper (String.ofList (code.toList.filter (· ≠ '-')))

/-- `ValidateBackupCode` of `common` -/
def validateBackupCodeFormat (code : String) : Bool :=
  let cleanCode := cleanBackupCode code
  if cleanCode.utf8ByteSize ≠ backupCodeLength then false
  else cleanCode.toList.all fun c => ('A' ≤ c ∧ c ≤ 'Z') ∨ ('0' ≤ c ∧ c ≤ '9')

def normalizeBackupCode (code : String) : String :=
  let cleanCode := cleanBackupCode code
  if cleanCode.utf8ByteSize = backupCodeLength then
    String.ofList (cleanCode.toList.take 4) ++ "-" ++ String.ofList (cleanCode.toList.drop 4)
  else code

def TwoFA.isLocked (t : TwoFA) (now : ℕ) : Bool :=
  match t.lockedUntil with
  | none => false
  | some lockUntil => now < lockUntil

/-- The copy that `IncrementFailedAttempts` saves. -/
def TwoFA.incrementFailedAttempts (t : TwoFA) (now : ℕ) : TwoFA :=
  { t with
    failedAttempts := t.failedAttempts + 1
    lockedUntil :=
      if maxFailAttempts ≤ t.failedAttempts + 1 then some (now + lockoutDuration)
      else t.lockedUntil }

/-- The copy that is saved after a code was right. -/
def TwoFA.used (t : TwoFA) (now : ℕ) : TwoFA :=
  { t with failedAttempts := 0, lockedUntil := none, lastUsedAt := some now }

/-! ### Attempts, statement by statement -/

/-- What an attempt presents. -/
inductive Code where
  | totp (code : String)
  | backup (code : String)
deriving DecidableEq, Repr

/-- Where an attempt is: the row is loaded, a backup code that was found is to be saved as
used, or the copy is to be saved. -/
inductive Attempt where
  | loaded (t : TwoFA) (code : Code)
  | saveCode (t : TwoFA) (bc : TwoFABackupCode)
  | update (t : TwoFA)
deriving DecidableEq, Repr

/-- The tables, the clock and the attempts on their way. -/
structure State where
  now : ℕ
  row : TwoFA
  codes : List TwoFABackupCode
  attempts : ℕ → Option Attempt
  /-- how many wrong codes were evaluated since the last right one, or since the account was
  locked -/
  wrong : ℕ
  /-- the backup codes that were accepted -/
  accepted : List ℕ

/-- What happens: time passes, an attempt loads the row, or it goes on to its next
statement. -/
inductive Event where
  | tick (d : ℕ)
  | load (i : ℕ) (code : Code)
  | exec (i : ℕ)
deriving DecidableEq, Repr

namespace State

/-- The attempt goes on with `a`, or is over. -/
def set (s : State) (i : ℕ) (a : Option Attempt) : State :=
  { s with attempts := Function.update s.attempts i a }

/-- A wrong code: `IncrementFailedAttempts` is called. -/
def evaluatedWrong (s : State) (i : ℕ) (t : TwoFA) : State :=
  { s.set i (some (.update (t.incrementFailedAttempts s.now))) with wrong := s.wrong + 1 }

/-- A right code: the record with the time of its use is saved next, and no wrong code counts any
more. -/
def evaluatedRight (s : State) (i : ℕ) (t : TwoFA) : State :=
  { s.set i (some (.update (t.used s.now))) with wrong := 0 }

/-- `ValidateTOTPAndUpdateUsage`, to its `Update` -/
def validateTOTP (env : Env) (s : State) (i : ℕ) (t : TwoFA) (code : String) : State :=
  if t.isLocked s.now then s.set i none
  else if validateTOTPCode env t.secret code s.now then s.evaluatedRight i t
  else s.evaluatedWrong i t

/-- `ValidateBackupCodeAndUpdateUsage`, to its next write: the unused codes are read and
compared. -/
def validateBackupCode (env : Env) (s : State) (i : ℕ) (t : TwoFA) (code : String) : State :=
  if t.isLocked s.now then s.set i none
  else if !validateBackupCodeFormat code then s.set i none
  else
    match s.codes.find? fun bc =>
      !bc.isUsed && env.compareHashAndPassword bc.codeHash (normalizeBackupCode code) with
    | none => s.evaluatedWrong i t
    | some bc => s.set i (some (.saveCode t { bc with isUsed := true, usedAt := some s.now }))

/-- `DB.Save(&bc)`: all columns of the row. -/
def saveCode (s : State) (bc : TwoFABackupCode) : State :=
  { s with
    codes := s.codes.map fun c => if c.id = bc.id then bc else c
    accepted := s.accepted ++ [bc.id] }

/-- `DB.Save(t)`: all columns of the row. The account is locked by it once there were enough
failed attempts. -/
def saveRow (s : State) (t : TwoFA) : State :=
  { s with row := t, wrong := if maxFailAttempts ≤ t.failedAttempts then 0 else s.wrong }

/-- One step: time passes, an attempt loads the record of the user, or goes on with what it has
loaded. -/
def step (env : Env) (s : State) : Event → State
  | .tick d => { s with now := s.now + d }
  | .load i code =>
    match s.attempts i with
    | some _ => s
    | none => s.set i (some (.loaded s.row code))
  | .exec i =>
    match s.attempts i with
    | none => s
    | some (.loaded t (.totp code)) => s.validateTOTP env i t code
    | some (.loaded t (.backup code)) => s.validateBackupCode env i t code
    | some (.saveCode t bc) => (s.saveCode bc).evaluatedRight i t
    | some (.update t) => (s.saveRow t).set i none

end State

/-- **No replay and no brute force**: each backup code is accepted once at most, and there
were at most `MaxFailAttempts` wrong codes since the last right one without a lock. -/
structure Guarded (s : State) : Prop where
  accepted : s.accepted.Nodup
  wrong : s.wrong ≤ maxFailAttempts

/-- **No attempt loads the row while another one is on its way.** -/
def Exclusive (s : State) : Event → Prop
  | .load _ _ => ∀ j, s.attempts j = none
  | _ => True

/-- Before the attempts: the rows are as they were found. -/
structure Start (s : State) : Prop where
  attempts : s.attempts = fun _ => none
  wrong : s.wrong = 0
  accepted : s.accepted = []

/-! ### One attempt after the other -/

/-- The counter in the row covers the wrong codes. -/
def Counted (s : State) : Prop := s.wrong ≤ s.row.failedAttempts ∧ s.wrong < maxFailAttempts

/-- What holds of the attempt on its way. -/
def OnItsWay (s : State) : Attempt → Prop
  | .loaded t _ => t = s.row ∧ Counted s
  | .saveCode _ bc => bc.id ∉ s.accepted ∧ bc.isUsed = true ∧ Counted s
  | .update t => s.wrong ≤ t.failedAttempts ∧ s.wrong ≤ maxFailAttempts

/-- The attempts: none, or one of which `OnItsWay` holds. -/
inductive Alone (s : State) : Prop
  | idle (hattempts : s.attempts = fun _ => none) (h : Counted s)
  | busy (i : ℕ) (a : Attempt)
    (hattempts : s.attempts = Function.update (fun _ => none) i (some a)) (h : OnItsWay s a)

/-- **What holds of attempts that do not overlap.** -/
structure Inv (s : State) : Prop where
  accepted : s.accepted.Nodup
  used : ∀ c ∈ s.codes, c.id ∈ s.accepted → c.isUsed = true
  alone : Alone s

section Step

variable {s : State} {i : ℕ} {a : Attempt}

theorem set_none (h : s.attempts = Function.update (fun _ => none) i (some a)) :
    (s.set i none).attempts = fun _ => none := by
  show Function.update s.attempts i none = fun _ => none
  rw [h, Function.update_idem]
  exact Function.update_eq_self i _

theorem set_some (h : s.attempts = Function.update (fun _ => none) i (some a)) (a' : Attempt) :
    (s.set i (some a')).attempts = Function.update (fun _ => none) i (some a') := by
  show Function.update s.attempts i (some a') = _
  rw [h, Function.update_idem]

theorem Start.inv (h : Start s) : Inv s where
  accepted := by
    rw [h.accepted]
    exact List.nodup_nil
  used := fun c _ hc => by
    rw [h.accepted] at hc
    cases hc
  alone := .idle h.attempts ⟨by rw [h.wrong]; exact Nat.zero_le _, by rw [h.wrong]; decide⟩

theorem Inv.guarded (h : Inv s) : Guarded s := by
  refine ⟨h.accepted, ?_⟩
  rcases h.alone with ⟨-, hcounted⟩ | ⟨i, a, -, hway⟩
  · exact hcounted.2.le
  · cases a with
    | loaded t code => exact hway.2.2.le
    | saveCode t bc => exact hway.2.2.2.le
    | update t => exact hway.2

theorem Inv.evaluatedWrong (h : Inv s)
    (hattempts : s.attempts = Function.update (fun _ => none) i (some a))
    (hcounted : Counted s) : Inv (s.evaluatedWrong i s.row) where
  accepted := h.accepted
  used := h.used
  alone := .busy i _ (set_some hattempts _) ⟨Nat.succ_le_succ hcounted.1, hcounted.2⟩

/-- After a right code the counter is to be saved as `0`. -/
theorem Inv.evaluatedRight (h : Inv s)
    (hattempts : s.attempts = Function.update (fun _ => none) i (some a)) (t : TwoFA) :
    Inv (s.evaluatedRight i t) where
  accepted := h.accepted
  used := h.used
  alone := .busy i _ (set_some hattempts _) ⟨Nat.le_refl 0, Nat.zero_le _⟩

theorem Inv.rejected (h : Inv s)
    (hattempts : s.attempts = Function.update (fun _ => none) i (some a))
    (hcounted : Counted s) : Inv (s.set i none) where
  accepted := h.accepted
  used := h.used
  alone := .idle (set_none hattempts) hcounted

theorem Inv.saveCode (h : Inv s) {t : TwoFA} {bc : TwoFABackupCode}
    (hnew : bc.id ∉ s.accepted) (hused : bc.isUsed = true)
    (hattempts : s.attempts = Function.update (fun _ => none) i (some a)) :
    Inv ((s.saveCode bc).evaluatedRight i t) where
  accepted := by
    show (s.accepted ++ [bc.id]).Nodup
    rw [List.nodup_append]
    refine ⟨h.accepted, List.nodup_singleton _, fun id hid id' hid' => ?_⟩
    rintro rfl
    exact hnew (List.mem_singleton.mp hid' ▸ hid)
  used := fun c hc hid => by
    obtain ⟨c', hc', rfl⟩ := List.mem_map.mp hc
    by_cases hsame : c'.id = bc.id
    · rw [if_pos hsame]
      exact hused
    · rw [if_neg hsame] at hid ⊢
      rcases List.mem_append.mp hid with hid | hid
      · exact h.used c' hc' hid
      · exact absurd (List.mem_singleton.mp hid) hsame
  alone := .busy i (.update (t.used s.now)) (set_some hattempts _) ⟨Nat.le_refl 0, Nat.zero_le _⟩

/-- The row is saved: either it is locked, or the counter covers the wrong codes. -/
theorem Inv.saveRow (h : Inv s)
    (hattempts : s.attempts = Function.update (fun _ => none) i (some a)) {t : TwoFA}
    (hwrong : s.wrong ≤ t.failedAttempts) : Inv ((s.saveRow t).set i none) where
  accepted := h.accepted
  used := h.used
  alone := by
    refine .idle (set_none hattempts) ?_
    show (if maxFailAttempts ≤ t.failedAttempts then 0 else s.wrong) ≤ t.failedAttempts ∧
      (if maxFailAttempts ≤ t.failedAttempts then 0 else s.wrong) < maxFailAttempts
    split
    · exact ⟨Nat.zero_le _, by decide⟩
    · next hlt => exact ⟨hwrong, hwrong.trans_lt (not_le.mp hlt)⟩

theorem Inv.exec (env : Env) (h : Inv s)
    (hattempts : s.attempts = Function.update (fun _ => none) i (some a)) (hway : OnItsWay s a) :
    Inv (s.step env (.exec i)) := by
  have hi : s.attempts i = some a := by
    rw [hattempts, Function.update_self]
  rw [State.step, hi]
  cases a with
  | loaded t code =>
    obtain ⟨rfl, hcounted⟩ := hway
    cases code with
    | totp code =>
      dsimp only
      rw [State.validateTOTP]
      split
      · exact h.rejected hattempts hcounted
      · split
        · exact h.evaluatedRight hattempts s.row
        · exact h.evaluatedWrong hattempts hcounted
    | backup code =>
      dsimp only
      rw [State.validateBackupCode]
      split
      · exact h.rejected hattempts hcounted
      · split
        · exact h.rejected hattempts hcounted
        · split
          · exact h.evaluatedWrong hattempts hcounted
          · next bc hfind =>
            -- a code that is found is unused, so it was not accepted before
            have hunused : bc.isUsed = false := by
              have hfound := List.find?_some hfind
              rw [Bool.and_eq_true, Bool.not_eq_true'] at hfound
              exact hfound.1
            have hnew : bc.id ∉ s.accepted := by
              intro hmem
              have hused := h.used bc (List.mem_of_find?_eq_some hfind) hmem
              rw [hunused] at hused
              cases hused
            exact ⟨h.accepted, h.used, .busy i _ (set_some hattempts _) ⟨hnew, rfl, hcounted⟩⟩
  | saveCode t bc => exact h.saveCode hway.1 hway.2.1 hattempts
  | update t => exact h.saveRow hattempts hway.1

/-- **A step keeps the invariant.** -/
theorem Inv.step (env : Env) (h : Inv s) (e : Event) (hex : Exclusive s e) :
    Inv (s.step env e) := by
  cases e with
  | tick d =>
    refine ⟨h.accepted, h.used, ?_⟩
    rcases h.alone with ⟨hattempts, hcounted⟩ | ⟨i, a, hattempts, hway⟩
    · exact .idle hattempts hcounted
    · refine .busy i a hattempts ?_
      cases a <;> exact hway
  | load i code =>
    have hnone : s.attempts = fun _ => none := funext hex
    rw [State.step, hex i]
    refine ⟨h.accepted, h.used, .busy i (.loaded s.row code) ?_ ⟨rfl, ?_⟩⟩
    · show Function.update s.attempts i _ = _
      rw [hnone]
    · rcases h.alone with ⟨-, hcounted⟩ | ⟨j, a, hattempts, -⟩
      · exact hcounted
      · have hj := hex j
        rw [hattempts, Function.update_self] at hj
        cases hj
  | exec i =>
    rcases h.alone with ⟨hattempts, -⟩ | ⟨j, a, hattempts, hway⟩
    · rw [State.step, hattempts]
      exact h
    · by_cases hij : i = j
      · subst hij
        exact h.exec env hattempts hway
      · have hi : s.attempts i = none := by
          rw [hattempts, Function.update_of_ne hij]
        rw [State.step, hi]
        exact h

end Step

/-- **Attempts that do not overlap are guarded**, in every state of a run. -/
theorem guarded_of_exclusive (env : Env) {s : State} (hs : Start s) {es : List Event}
    (h : Along (State.step env) Exclusive s es) (n : ℕ) :
    Guarded (run (State.step env) s (es.take n)) :=
  (inv_run (fun _ e hinv hex => hinv.step env e hex) hs.inv (along_take h n)).guarded

/-! ### Two attempts -/

/-- One backup code, `AAAA-AAAA`, whose hash is itself. -/
def oneCode : State where
  now := 0
  row := ⟨1, 1, "secret", true, 0, none, none⟩
  codes := [⟨7, 1, "AAAA-AAAA", false, none⟩]
  attempts _ := none
  wrong := 0
  accepted := []

def plainEnv : Env where
  totpValidate code _ _ := code = "123456"
  compareHashAndPassword codeHash password := codeHash = password

/-- The code twice, one attempt after the other. -/
def again : List Event :=
  [.load 0 (.backup "aaaa-aaaa"), .exec 0, .exec 0, .exec 0, .load 1 (.backup "aaaa-aaaa"),
    .exec 1, .exec 1]

theorem again_exclusive : Along (State.step plainEnv) Exclusive oneCode again := by
  refine ⟨fun _ => rfl, trivial, trivial, trivial, fun j => ?_, trivial, trivial, trivial⟩
  cases j with
  | zero => decide
  | succ j => rfl

theorem guarded_again : Guarded (run (State.step plainEnv) oneCode (again.take 7)) :=
  guarded_of_exclusive plainEnv ⟨rfl, rfl, rfl⟩ again_exclusive 7

/-- **The code twice, in two attempts that overlap**: it is accepted twice. -/
theorem backup_code_twice :
    ¬Guarded (run (State.step plainEnv) oneCode [.load 0 (.backup "aaaa-aaaa"),
      .load 1 (.backup "aaaa-aaaa"), .exec 0, .exec 1, .exec 0, .exec 1]) := by
  intro h
  exact absurd h.accepted (by decide)

end NewApiPool.TwoFactor
