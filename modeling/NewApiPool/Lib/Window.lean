import Mathlib.Data.List.Basic
import Mathlib.Data.List.TakeWhile

/-!
# Windows on a log

A log is a list of entries, newest first, and a window is a test `p` that the recent entries pass:
where an entry passes, every newer one does (`Window.Recent`). To know whether `n + 1` entries are
in the window it is enough to look at the entry in position `n` (`Window.lt_countP_iff`), so that a
limiter has to keep no more than the `n + 1` newest entries. There are rules for the log that is
kept that way, also oldest first, as a queue.
-/

namespace Window

variable {α : Type*} {p : α → Bool} {l : List α} {a : α} {n : ℕ}

/-- Where an entry passes, every newer one does. -/
def Recent (p : α → Bool) (l : List α) : Prop :=
  l.Pairwise fun a b => p b = true → p a = true

theorem Recent.of_cons (h : Recent p (a :: l)) : Recent p l :=
  (List.pairwise_cons.mp h).2

/-- **How many entries are in the window** shows in one entry. -/
theorem lt_countP_iff (h : Recent p l) : n < l.countP p ↔ ∃ a, l[n]? = some a ∧ p a = true := by
  induction l generalizing n with
  | nil => simp
  | cons a l ih =>
    have hnewer := (List.pairwise_cons.mp h).1
    by_cases ha : p a = true
    · rw [List.countP_cons_of_pos ha]
      cases n with
      | zero => simp [ha]
      | succ n =>
        rw [Nat.add_lt_add_iff_right, ih h.of_cons, List.getElem?_cons_succ]
    · have hnone : l.countP p = 0 := by
        rw [List.countP_eq_zero]
        exact fun b hb hpb => ha (hnewer b hb hpb)
      rw [List.countP_cons_of_neg ha, hnone]
      constructor
      · intro hlt
        omega
      · rintro ⟨b, hb, hpb⟩
        rcases List.mem_cons.mp (List.mem_of_getElem? hb) with rfl | hmem
        · exact absurd hpb ha
        · exact absurd (hnewer b hmem hpb) ha

/-! ### The entries that are kept -/

theorem take_cons_take (n : ℕ) (a : α) (l : List α) :
    (a :: l.take n).take n = (a :: l).take n := by
  cases n with
  | zero => rfl
  | succ n => rw [List.take_succ_cons, List.take_succ_cons, List.take_take, min_eq_left n.le_succ]

theorem getLast?_take_succ (n : ℕ) (h : n < l.length) : (l.take (n + 1)).getLast? = l[n]? := by
  rw [List.getLast?_eq_getElem?, List.length_take, min_eq_left h, Nat.add_sub_cancel,
    List.getElem?_take_of_lt n.lt_succ_self]

/-- The oldest entry that is kept is the first of the queue. -/
theorem head?_reverse_take_succ (n : ℕ) (h : n < l.length) :
    (l.take (n + 1)).reverse.head? = l[n]? := by
  rw [List.head?_reverse, getLast?_take_succ n h]

theorem reverse_take_cons_of_lt (h : l.length < n) (a : α) :
    ((a :: l).take n).reverse = (l.take n).reverse ++ [a] := by
  have hlen : (a :: l).length ≤ n := h
  rw [List.take_of_length_le hlen, List.take_of_length_le h.le, List.reverse_cons]

theorem reverse_take_cons_of_le (h : n + 1 ≤ l.length) (a : α) :
    ((a :: l).take (n + 1)).reverse = (l.take (n + 1)).reverse.tail ++ [a] := by
  have hdrop : (l.take (n + 1)).dropLast = l.take n := by
    rw [List.dropLast_eq_take, List.length_take, min_eq_left h, Nat.add_sub_cancel, List.take_take,
      min_eq_left n.le_succ]
  rw [List.take_succ_cons, List.reverse_cons, List.tail_reverse, hdrop]

end Window
