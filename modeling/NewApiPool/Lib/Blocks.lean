import Mathlib.Algebra.Order.Group.Int
import Mathlib.Logic.Function.Basic

/-!
# Numbered blocks

A stream of numbered blocks: a block is started, has deltas of its own kind, and is
stopped. The blocks are numbered 0, 1, 2, … in the order of their starts, and several may
be open at a time.

`NumberedBlocks.Board` is what a reader has to know of the stream so far: the number of
the next block and the blocks that are open. `NumberedBlocks.Disciplined` says of a stream
that it never starts a block under another number than the next, never names a block that
is not open, or one of another kind, and leaves none open. So every number has one start,
then deltas of its kind, then one stop.

The open blocks of a writer are mostly an interval of numbers of one kind
(`NumberedBlocks.interval`); `NumberedBlocks.Board.run_stops` says when they can be
stopped one after the other.
-/

namespace NumberedBlocks

/-- What is done to a block. -/
inductive Act (κ : Type*) where
  | start (i : Int) (kind : κ)
  | delta (i : Int) (kind : κ)
  | stop (i : Int)

/-- The number of the next block, and the kinds of the open ones. -/
structure Board (κ : Type*) where
  next : Int
  opened : Int → Option κ

variable {κ : Type*}

/-- Nothing is open, and the next block is `next`. -/
def Board.clear (next : Int) : Board κ := ⟨next, fun _ => none⟩

section Run

variable [DecidableEq κ]

/-- One act, if the discipline allows it. -/
def Board.step (b : Board κ) : Act κ → Option (Board κ)
  | .start i kind =>
    if i = b.next then some ⟨b.next + 1, Function.update b.opened i (some kind)⟩ else none
  | .delta i kind => if b.opened i = some kind then some b else none
  | .stop i =>
    if (b.opened i).isSome then some ⟨b.next, Function.update b.opened i none⟩ else none

theorem Board.step_start (b : Board κ) (i : Int) (kind : κ) :
    b.step (.start i kind) =
      if i = b.next then some ⟨b.next + 1, Function.update b.opened i (some kind)⟩ else none :=
  rfl

theorem Board.step_delta (b : Board κ) (i : Int) (kind : κ) :
    b.step (.delta i kind) = if b.opened i = some kind then some b else none := rfl

/-- The acts one after the other, as long as each is allowed on the board that the ones before it
leave. -/
def Board.run (b : Board κ) : List (Act κ) → Option (Board κ)
  | [] => some b
  | a :: as => (b.step a).bind fun b' => b'.run as

/-- **The discipline of blocks.** -/
def Disciplined (as : List (Act κ)) : Prop :=
  ∃ next, (Board.clear 0).run as = some (Board.clear next)

@[simp] theorem Board.run_nil (b : Board κ) : b.run [] = some b := rfl

@[simp] theorem Board.run_cons (b : Board κ) (a : Act κ) (as : List (Act κ)) :
    b.run (a :: as) = (b.step a).bind fun b' => b'.run as := rfl

theorem Board.run_append (b : Board κ) (as bs : List (Act κ)) :
    b.run (as ++ bs) = (b.run as).bind fun b' => b'.run bs := by
  induction as generalizing b with
  | nil => rfl
  | cons a as ih => simp only [List.cons_append, Board.run_cons, ih, Option.bind_assoc]

end Run

/-! ### Intervals of open blocks -/

/-- The blocks from `lo` on and below `hi` are open. -/
def interval (lo hi : Int) (kind : κ) : Int → Option κ :=
  fun i => if lo ≤ i ∧ i < hi then some kind else none

theorem interval_eq_some {lo hi i : Int} {kind : κ} :
    interval lo hi kind i = some kind ↔ lo ≤ i ∧ i < hi := by
  simp [interval]

theorem isSome_interval {lo hi i : Int} {kind : κ} :
    (interval lo hi kind i).isSome = true ↔ lo ≤ i ∧ i < hi := by
  by_cases h : lo ≤ i ∧ i < hi <;> simp [interval, h]

theorem interval_of_le {lo hi : Int} (h : hi ≤ lo) (kind : κ) :
    interval lo hi kind = fun _ => none := by
  funext i
  exact if_neg (by omega)

theorem update_interval_start {lo hi : Int} (h : lo ≤ hi) (kind : κ) :
    Function.update (interval lo hi kind) hi (some kind) = interval lo (hi + 1) kind := by
  funext i
  by_cases hi' : i = hi
  · subst hi'
    rw [Function.update_self, interval, if_pos ⟨h, Int.lt_succ i⟩]
  · rw [Function.update_of_ne hi']
    exact if_congr (by omega) rfl rfl

theorem update_interval_stop (lo hi : Int) (kind : κ) :
    Function.update (interval lo hi kind) lo none = interval (lo + 1) hi kind := by
  funext i
  by_cases hi' : i = lo
  · subst hi'
    rw [Function.update_self, interval, if_neg (by omega)]
  · rw [Function.update_of_ne hi']
    exact if_congr (by omega) rfl rfl

theorem update_clear (i : Int) (kind : κ) :
    Function.update (fun _ => none) i (some kind) = interval i (i + 1) kind := by
  rw [← interval_of_le (le_refl i) kind]
  exact update_interval_start le_rfl kind

/-- **Blocks are stopped one after the other** as long as there are any. -/
theorem Board.run_stops [DecidableEq κ] (next lo hi : Int) (kind : κ) (n : Nat) :
    (Board.mk next (interval lo hi kind)).run
        ((List.range n).map fun offset : Nat => Act.stop (lo + offset)) =
      if lo + n ≤ hi ∨ n = 0 then some ⟨next, interval (lo + n) hi kind⟩ else none := by
  induction n with
  | zero => simp
  | succ n ih =>
    rw [List.range_succ, List.map_append, Board.run_append, ih]
    by_cases hn : lo + n ≤ hi ∨ n = 0
    · rw [if_pos hn, Option.bind_some, List.map_singleton, Board.run_cons, Board.step]
      by_cases hlt : lo + n < hi
      · rw [if_pos (isSome_interval.mpr ⟨le_rfl, hlt⟩), if_pos (by omega), update_interval_stop]
        simp [add_assoc]
      · rw [if_neg (fun h => hlt (isSome_interval.mp h).2), if_neg (by omega)]
        rfl
    · rw [if_neg hn, if_neg (by omega)]
      rfl

end NumberedBlocks
