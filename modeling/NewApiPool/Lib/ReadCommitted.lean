import Mathlib.Logic.Function.Basic
import NewApiPool.Lib.Runs

/-!
# Transactions at READ COMMITTED

A store of rows, and any number of transactions on it that are interleaved statement by
statement. A `SELECT` sees what is committed, or what its own transaction has written,
and takes no lock. An `UPDATE` locks the row until its transaction ends, waits for the
lock if another one has it, and works on the value the row has then. A transaction can
fail at any statement, and is rolled back.

Nothing here orders two transactions that have read the same row. The one rule proved
about such a store is what a program gets from keeping its transactions apart: if none
begins to read while another one that has read may still write, the committed store is
that of the transactions executed one after the other
(`ReadCommitted.replay_of_exclusive`).
-/

namespace ReadCommitted

open EventSystem

variable {K : Type} [DecidableEq K] {V : K → Type}

/-! ### The statements -/

/-- What is left of a transaction to execute. -/
inductive Prog (V : K → Type) where
  | commit
  | abort
  | read (k : K) (next : V k → Prog V)
  | write (k : K) (f : V k → V k) (next : Prog V)

namespace Prog

/-- The transaction has no statement left but its end. -/
def ended : Prog V → Bool
  | .commit => true
  | .abort => true
  | .read _ _ => false
  | .write _ _ _ => false

/-- **The transaction on its own**, from a store to the one it commits. -/
def atomic : Prog V → (∀ k, V k) → Option (∀ k, V k)
  | .commit, st => some st
  | .abort, _ => none
  | .read k next, st => (next (st k)).atomic st
  | .write k f next, st => next.atomic (Function.update st k (f (st k)))

/-- The store after the transaction on its own, committed or not. -/
def apply (st : ∀ k, V k) (p : Prog V) : ∀ k, V k := (p.atomic st).getD st

end Prog

/-- Transactions one after the other. -/
def replay (st : ∀ k, V k) (ps : List (Prog V)) : ∀ k, V k := ps.foldl Prog.apply st

/-! ### The store -/

/-- A transaction in progress: its program, what is left of it, the values it has
written, whether it has executed a statement and whether it has written. -/
structure Tx (V : K → Type) where
  program : Prog V
  prog : Prog V
  own : ∀ k, Option (V k)
  started : Bool
  dirty : Bool

/-- The committed rows, the transactions in progress, who has locked which row, and the
programs that have committed a change, in order. -/
structure Store (V : K → Type) where
  committed : ∀ k, V k
  running : Nat → Option (Tx V)
  locks : K → Option Nat
  history : List (Prog V)

/-- What happens: a transaction begins, executes its next statement, or fails. -/
inductive Event (V : K → Type) where
  | begin (i : Nat) (p : Prog V)
  | exec (i : Nat)
  | fail (i : Nat)

/-- The transaction an event is about. -/
def Event.index : Event V → Nat
  | .begin i _ => i
  | .exec i => i
  | .fail i => i

namespace Tx

/-- A transaction that has executed nothing yet. -/
def new (p : Prog V) : Tx V := ⟨p, p, fun _ => none, false, false⟩

/-- The rows as the transaction sees them. -/
def view (tx : Tx V) (committed : ∀ k, V k) : ∀ k, V k :=
  fun k => (tx.own k).getD (committed k)

/-- **The transaction has read and may still write.** -/
def busy (tx : Tx V) : Bool := tx.started && (tx.dirty || !tx.prog.ended)

end Tx

namespace Store

/-- A store without transactions in progress. -/
def start (committed : ∀ k, V k) : Store V := ⟨committed, fun _ => none, fun _ => none, []⟩

/-- The transaction ends, and its locks are released. -/
def close (s : Store V) (i : Nat) : Store V :=
  { s with
    running := Function.update s.running i none
    locks := fun k => if s.locks k = some i then none else s.locks k }

/-- The transaction has executed a statement. -/
def advance (s : Store V) (i : Nat) (tx : Tx V) : Store V :=
  { s with running := Function.update s.running i (some { tx with started := true }) }

/-- One step. A write that has to wait for a lock leaves the store alone. -/
def step (s : Store V) : Event V → Store V
  | .begin i p =>
    match s.running i with
    | some _ => s
    | none => { s with running := Function.update s.running i (some (Tx.new p)) }
  | .fail i => s.close i
  | .exec i =>
    match s.running i with
    | none => s
    | some tx =>
      match tx.prog with
      | .commit =>
        { s.close i with
          committed := tx.view s.committed
          history := if tx.dirty then s.history ++ [tx.program] else s.history }
      | .abort => s.close i
      | .read k next => s.advance i { tx with prog := next (tx.view s.committed k) }
      | .write k f next =>
        if s.locks k = none ∨ s.locks k = some i then
          { s.advance i
              { tx with
                prog := next
                own := Function.update tx.own k (some (f (tx.view s.committed k)))
                dirty := true } with
            locks := Function.update s.locks k (some i) }
        else s

end Store

/-- **No transaction executes its first statement while another is busy.** -/
def Exclusive (s : Store V) : Event V → Prop
  | .exec i => ∀ tx, s.running i = some tx → tx.started = false →
    ∀ j t, j ≠ i → s.running j = some t → t.busy = false
  | _ => True

/-- The transactions that begin are of a kind. -/
def Begins (P : Prog V → Prop) : Event V → Prop
  | .begin _ p => P p
  | _ => True

/-! ### One after the other -/

/-- What is known of a transaction in progress: before its first statement it is as it
began; while it may still write, what is left of it does to its view what the whole of it
does to the committed store. -/
structure OnItsWay (committed : ∀ k, V k) (tx : Tx V) : Prop where
  clean : tx.dirty = false → tx.own = fun _ => none
  fresh : tx.started = false → tx.dirty = false ∧ tx.prog = tx.program
  rest : tx.busy = true → tx.program.atomic committed = tx.prog.atomic (tx.view committed)

/-- The committed store is that of the history, and one transaction at most is busy. -/
structure Serial (P : Prog V → Prop) (init : ∀ k, V k) (s : Store V) : Prop where
  replayed : s.committed = replay init s.history
  kinds : ∀ p ∈ s.history, P p
  programs : ∀ i tx, s.running i = some tx → P tx.program
  way : ∀ i tx, s.running i = some tx → OnItsWay s.committed tx
  alone : ∀ i j tx t, s.running i = some tx → s.running j = some t → tx.busy = true →
    t.busy = true → i = j

section Proof

variable {P : Prog V → Prop} {init : ∀ k, V k} {s : Store V} {i : Nat} {tx : Tx V}

theorem replay_append (st : ∀ k, V k) (ps : List (Prog V)) (p : Prog V) :
    replay st (ps ++ [p]) = p.apply (replay st ps) := by
  simp [replay]

omit [DecidableEq K] in
theorem Tx.view_clean (h : tx.own = fun _ => none) (committed : ∀ k, V k) :
    tx.view committed = committed := by
  funext k
  simp [Tx.view, h]

omit [DecidableEq K] in
/-- A transaction that has not written and is past its statements, or has not started, is
not busy. -/
theorem Tx.not_busy (hd : tx.dirty = false) (h : tx.started = false ∨ tx.prog.ended = true) :
    tx.busy = false := by
  rcases h with h | h
  · simp [Tx.busy, h]
  · simp [Tx.busy, hd, h]

/-- A transaction ends without a change to the committed store. -/
theorem Serial.close (h : Serial P init s) (i : Nat) : Serial P init (s.close i) := by
  have hold : ∀ j t, (s.close i).running j = some t → s.running j = some t := by
    intro j t ht
    by_cases hj : j = i
    · subst hj
      simp [Store.close] at ht
    · simpa [Store.close, hj] using ht
  exact ⟨h.replayed, h.kinds, fun j t ht => h.programs j t (hold j t ht),
    fun j t ht => h.way j t (hold j t ht),
    fun j j' t t' ht ht' => h.alone j j' t t' (hold j t ht) (hold j' t' ht')⟩

/-- A transaction begins, and writes nothing yet: what was committed is the same serial run. -/
theorem Serial.begin {p : Prog V} (h : Serial P init s) (hp : P p) (hfree : s.running i = none) :
    Serial P init (s.step (.begin i p)) := by
  simp only [Store.step, hfree]
  have hidle : (Tx.new p).busy = false := Tx.not_busy rfl (Or.inl rfl)
  refine ⟨h.replayed, h.kinds, ?_, ?_, ?_⟩
  · intro j t ht
    rcases update_eq_some ht with ⟨-, rfl⟩ | ⟨-, ht⟩
    · exact hp
    · exact h.programs j t ht
  · intro j t ht
    rcases update_eq_some ht with ⟨-, rfl⟩ | ⟨-, ht⟩
    · refine ⟨fun _ => rfl, fun _ => ⟨rfl, rfl⟩, fun hb => ?_⟩
      rw [hidle] at hb
      cases hb
    · exact h.way j t ht
  · intro j j' t t' ht ht' hb hb'
    rcases update_eq_some ht with ⟨-, rfl⟩ | ⟨-, ht⟩
    · rw [hidle] at hb
      cases hb
    · rcases update_eq_some ht' with ⟨-, rfl⟩ | ⟨-, ht'⟩
      · rw [hidle] at hb'
        cases hb'
      · exact h.alone j j' t t' ht ht' hb hb'

/-- Before it executes a statement other than its end, what is left of a transaction does
to its view what the whole of it does to the committed store. -/
theorem Serial.rest (h : Serial P init s) (hi : s.running i = some tx)
    (hprog : tx.prog.ended = false) :
    tx.program.atomic s.committed = tx.prog.atomic (tx.view s.committed) := by
  have hway := h.way i tx hi
  cases hst : tx.started with
  | true =>
    refine hway.rest ?_
    simp [Tx.busy, hst, hprog]
  | false =>
    obtain ⟨hd, hp⟩ := hway.fresh hst
    rw [Tx.view_clean (hway.clean hd), hp]

/-- The others are not busy when a transaction executes a statement other than its end. -/
theorem Serial.others (h : Serial P init s) (hex : Exclusive s (.exec i))
    (hi : s.running i = some tx) (hprog : tx.prog.ended = false) {j : Nat} {t : Tx V}
    (hj : j ≠ i) (ht : s.running j = some t) : t.busy = false := by
  cases hst : tx.started with
  | true =>
    have hbusy : tx.busy = true := by simp [Tx.busy, hst, hprog]
    by_contra hcon
    exact hj (h.alone j i t tx ht hi (by simpa using hcon) hbusy)
  | false => exact hex tx hi hst j t hj ht

/-- A transaction executes a statement other than its end. -/
theorem Serial.advance (h : Serial P init s) (hex : Exclusive s (.exec i))
    (hi : s.running i = some tx) (hprog : tx.prog.ended = false) {tx' : Tx V}
    {locks : K → Option Nat} (hprogram : tx'.program = tx.program)
    (hclean : tx'.dirty = false → tx'.own = fun _ => none)
    (hrest : tx.prog.atomic (tx.view s.committed) = tx'.prog.atomic (tx'.view s.committed)) :
    Serial P init { s.advance i tx' with locks := locks } := by
  have hcases : ∀ j t, (s.advance i tx').running j = some t →
      (j = i ∧ t = { tx' with started := true }) ∨ (j ≠ i ∧ s.running j = some t) :=
    fun _ _ ht => update_eq_some ht
  refine ⟨h.replayed, h.kinds, ?_, ?_, ?_⟩
  · intro j t ht
    rcases hcases j t ht with ⟨-, rfl⟩ | ⟨-, ht⟩
    · exact hprogram ▸ h.programs i tx hi
    · exact h.programs j t ht
  · intro j t ht
    rcases hcases j t ht with ⟨-, rfl⟩ | ⟨-, ht⟩
    · refine ⟨hclean, fun hcon => (by cases hcon), fun _ => ?_⟩
      exact (hprogram ▸ h.rest hi hprog).trans hrest
    · exact h.way j t ht
  · intro j j' t t' ht ht' hb hb'
    rcases hcases j t ht with ⟨hj, -⟩ | ⟨hj, hold⟩
    · rcases hcases j' t' ht' with ⟨hj', -⟩ | ⟨hj', hold'⟩
      · rw [hj, hj']
      · rw [h.others hex hi hprog hj' hold'] at hb'
        cases hb'
    · rcases hcases j' t' ht' with ⟨-, -⟩ | ⟨-, hold'⟩
      · rw [h.others hex hi hprog hj hold] at hb
        cases hb
      · exact h.alone j j' t t' hold hold' hb hb'

theorem Serial.commit (h : Serial P init s) (hi : s.running i = some tx)
    (hprog : tx.prog = .commit) (hd : tx.dirty = true) :
    Serial P init { s.close i with
      committed := tx.view s.committed
      history := s.history ++ [tx.program] } := by
  have hst : tx.started = true := by
    by_contra hcon
    have := ((h.way i tx hi).fresh (by simpa using hcon)).1
    rw [hd] at this
    cases this
  have hbusy : tx.busy = true := by simp [Tx.busy, hst, hd]
  have hrest : tx.program.atomic s.committed = some (tx.view s.committed) := by
    rw [(h.way i tx hi).rest hbusy, hprog]
    rfl
  have hclosed := h.close i
  have hother : ∀ j t, (s.close i).running j = some t → t.busy = false := by
    intro j t ht
    by_cases hj : j = i
    · subst hj
      simp [Store.close] at ht
    · have hold : s.running j = some t := by simpa [Store.close, hj] using ht
      by_contra hcon
      exact hj (h.alone j i t tx hold hi (by simpa using hcon) hbusy)
  refine ⟨?_, ?_, hclosed.programs, ?_, hclosed.alone⟩
  · dsimp only
    rw [replay_append, ← h.replayed]
    unfold Prog.apply
    rw [hrest]
    rfl
  · intro p hp
    rcases List.mem_append.mp hp with hp | hp
    · exact h.kinds p hp
    · rw [List.mem_singleton.mp hp]
      exact h.programs i tx hi
  · intro j t ht
    have hway := hclosed.way j t ht
    refine ⟨hway.clean, hway.fresh, fun hb => ?_⟩
    rw [hother j t ht] at hb
    cases hb

/-- **A step keeps the store serial.** -/
theorem Serial.step (h : Serial P init s) (e : Event V) (hex : Exclusive s e) (hp : Begins P e) :
    Serial P init (s.step e) := by
  cases e with
  | begin i p =>
    rcases hi : s.running i with _ | tx
    · exact h.begin hp hi
    · simpa only [Store.step, hi] using h
  | fail i => exact h.close i
  | exec i =>
    rcases hi : s.running i with _ | tx
    · simpa only [Store.step, hi] using h
    have hway := h.way i tx hi
    simp only [Store.step, hi]
    cases hprog : tx.prog with
    | commit =>
      cases hd : tx.dirty with
      | true => exact h.commit hi hprog hd
      | false =>
        dsimp only
        rw [Tx.view_clean (hway.clean hd)]
        exact h.close i
    | abort => exact h.close i
    | read k next =>
      refine h.advance hex hi (by rw [hprog]; rfl) rfl hway.clean ?_
      rw [hprog]
      rfl
    | write k f next =>
      dsimp only
      split
      · refine h.advance hex hi (by rw [hprog]; rfl) rfl (fun hcon => by cases hcon) ?_
        have hview : Function.update (tx.view s.committed) k (f (tx.view s.committed k)) =
            Tx.view { tx with
              prog := next
              own := Function.update tx.own k (some (f (tx.view s.committed k)))
              dirty := true } s.committed := by
          funext k'
          by_cases hk : k' = k
          · subst hk
            simp [Tx.view]
          · simp [Tx.view, hk]
        rw [hprog, ← hview]
        rfl
      · exact h

/-- **Transactions that are kept apart are executed one after the other.** -/
theorem replay_of_exclusive {es : List (Event V)}
    (h : Along Store.step (fun s e => Exclusive s e ∧ Begins P e) (.start init) es) :
    ∃ ps, (∀ p ∈ ps, P p) ∧ (run Store.step (.start init) es).committed = replay init ps := by
  have hstart : Serial P init (.start init) :=
    ⟨rfl, nofun, nofun, nofun, nofun⟩
  have hserial : Serial P init (run Store.step (.start init) es) :=
    inv_run (I := Serial P init) (fun _ e hs he => hs.step e he.1 he.2) hstart h
  exact ⟨_, hserial.kinds, hserial.replayed⟩

theorem running_other {e : Event V} {j : Nat} (h : j ≠ e.index) :
    (s.step e).running j = s.running j := by
  cases e with
  | begin i p =>
    simp only [Store.step]
    split
    · rfl
    · exact Function.update_of_ne h _ _
  | fail i => exact Function.update_of_ne h _ _
  | exec i =>
    simp only [Store.step]
    split
    · rfl
    split
    · exact Function.update_of_ne h _ _
    · exact Function.update_of_ne h _ _
    · exact Function.update_of_ne h _ _
    · split
      · exact Function.update_of_ne h _ _
      · rfl

theorem exclusive_of_one {es : List (Event V)} (halone : ∀ j, j ≠ i → s.running j = none)
    (hone : ∀ e ∈ es, e.index = i ∧ Begins P e) :
    Along Store.step (fun s e => Exclusive s e ∧ Begins P e) s es := by
  induction es generalizing s with
  | nil => trivial
  | cons e es ih =>
    obtain ⟨rfl, hp⟩ := hone e List.mem_cons_self
    refine ⟨⟨?_, hp⟩, ih (fun j hj => ?_) fun e' he' => hone e' (List.mem_cons_of_mem e he')⟩
    · cases e with
      | begin i p => trivial
      | fail i => trivial
      | exec i =>
        intro tx _ _ j t hj ht
        rw [halone j hj] at ht
        cases ht
    · rw [running_other hj, halone j hj]

end Proof

end ReadCommitted
