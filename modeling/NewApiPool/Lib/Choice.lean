import Mathlib.Algebra.BigOperators.Group.Finset.Basic
import Mathlib.Algebra.Order.BigOperators.Group.Finset
import Mathlib.Algebra.Ring.Int.Defs
import Mathlib.Algebra.GroupWithZero.Nat
import Mathlib.Data.Finset.Card
import Mathlib.Data.List.Sort
import Mathlib.Data.List.Dedup
import Mathlib.Data.Int.Order.Basic
import Mathlib.Order.Interval.Finset.Nat

/-!
# Sorting, ranking and drawing

What a weighted choice among ranked candidates rests on, over arbitrary types.

* `Sorter r` – a sorting routine of which only this is known: it permutes its argument
  and its result is ordered by `r`. An unstable sort, and a query with an `ORDER BY`
  that leaves ties open, are values of it; what is proved of every sorter holds of both.
* `ranks` – the distinct values of a list in descending order. It depends on the set of
  the values only (`ranks_congr`), and its head is their maximum (`ranks_head?`).
* `draw` – the loop that takes the weights off a drawn number until the rest meets the
  stopping test. With the test `· < t`, a drawn number below the total always stops
  (`draw_isSome`), and every entry with a weight above `t` is reached by some number
  (`exists_draw_eq`). With the test `· < 0` an entry is drawn by as many numbers as it weighs
  (`card_draw_lt_zero`), and a name by those of all entries that bear it (`card_map_drawn`).
-/

namespace Choice

variable {α : Type*}

/-! ### Sorting -/

/-- **A sorting routine**: a permutation of its argument, ordered by `r`. -/
structure Sorter (α : Type*) (r : α → α → Prop) where
  sort : List α → List α
  perm : ∀ l, (sort l).Perm l
  sorted : ∀ l, (sort l).Pairwise r

namespace Sorter

variable {r : α → α → Prop}

@[simp] theorem mem_sort (S : Sorter α r) {a : α} {l : List α} : a ∈ S.sort l ↔ a ∈ l :=
  (S.perm l).mem_iff

/-- Insertion sort, by a key in descending order. -/
def byKey (key : α → ℤ) : Sorter α fun a b => key b ≤ key a where
  sort := List.insertionSort fun a b => key b ≤ key a
  perm := List.perm_insertionSort _
  sorted := by
    have htotal : Std.Total fun a b : α => key b ≤ key a := ⟨fun a b => le_total (key b) (key a)⟩
    have htrans : IsTrans α fun a b => key b ≤ key a := ⟨fun _ _ _ h₁ h₂ => h₂.trans h₁⟩
    exact List.pairwise_insertionSort _

end Sorter

/-! ### Ranks -/

/-- The distinct values of a list, in descending order. -/
def ranks (l : List ℤ) : List ℤ := l.dedup.insertionSort (· ≥ ·)

@[simp] theorem mem_ranks {l : List ℤ} {p : ℤ} : p ∈ ranks l ↔ p ∈ l := by
  simp [ranks, List.mem_insertionSort]

theorem ranks_pairwise (l : List ℤ) : (ranks l).Pairwise (· > ·) := by
  have hsorted : (ranks l).Pairwise (· ≥ ·) := List.pairwise_insertionSort _ _
  have hnodup : (ranks l).Nodup :=
    (List.perm_insertionSort _ _).nodup_iff.2 (List.nodup_dedup l)
  refine (hsorted.and hnodup).imp ?_
  rintro a b ⟨hge, hne⟩
  exact lt_of_le_of_ne hge (Ne.symm hne)

/-- **Ranks forget the order and the repetitions** of the list. -/
theorem ranks_congr {l l' : List ℤ} (h : ∀ p, p ∈ l ↔ p ∈ l') : ranks l = ranks l' := by
  refine (ranks_pairwise l).eq_of_mem_iff (ranks_pairwise l') fun p => ?_
  rw [mem_ranks, mem_ranks, h]

@[simp] theorem ranks_nil : ranks [] = [] := rfl

theorem ranks_eq_nil {l : List ℤ} : ranks l = [] ↔ l = [] := by
  rw [List.eq_nil_iff_forall_not_mem, List.eq_nil_iff_forall_not_mem]
  simp

/-- **The first rank is the maximum.** -/
theorem ranks_head? (l : List ℤ) : (ranks l).head? = l.max? := by
  cases hl : ranks l with
  | nil =>
    rw [ranks_eq_nil.1 hl]
    rfl
  | cons p ps =>
    have hp : p ∈ l := by
      rw [← mem_ranks, hl]
      exact List.mem_cons_self
    have hsorted := ranks_pairwise l
    rw [hl, List.pairwise_cons] at hsorted
    symm
    rw [List.head?_cons, List.max?_eq_some_iff]
    refine ⟨hp, fun q hq => ?_⟩
    rw [← mem_ranks, hl, List.mem_cons] at hq
    rcases hq with rfl | hq
    · exact le_refl _
    · exact le_of_lt (hsorted.1 q hq)

/-! ### Drawing -/

/-- **The draw loop**: each entry takes its weight off the drawn number, and the first one
after which the rest meets the test is chosen. -/
def draw (stops : ℤ → Bool) (w : α → ℕ) : ℤ → List α → Option α
  | _, [] => none
  | r, x :: xs => if stops (r - w x) then some x else draw stops w (r - w x) xs

section Draw

variable {stops : ℤ → Bool} {t : ℕ} (hstops : ∀ r, stops r = true ↔ r < t) {w : α → ℕ}

variable {xs : List α}

theorem mem_of_draw {r : ℤ} {x : α} (h : draw stops w r xs = some x) : x ∈ xs := by
  induction xs generalizing r with
  | nil => cases h
  | cons y ys ih =>
    unfold draw at h
    split at h
    · cases h
      exact List.mem_cons_self
    · exact List.mem_cons_of_mem y (ih h)

include hstops

/-- A number below the total, plus what the test leaves, stops the loop. -/
theorem draw_isSome {r : ℤ} (h : r < t + (xs.map w).sum) (hne : xs ≠ []) :
    (draw stops w r xs).isSome := by
  induction xs generalizing r with
  | nil => exact absurd rfl hne
  | cons y ys ih =>
    unfold draw
    split
    · rfl
    · rename_i hgo
      rw [hstops, not_lt] at hgo
      simp only [List.map_cons, List.sum_cons, Int.natCast_add] at h
      refine ih (by omega) ?_
      rintro rfl
      simp only [List.map_nil, List.sum_nil, Int.natCast_zero] at h
      omega

/-- The loop never stops at an entry of weight `0`, if it did not before. -/
theorem pos_of_draw {r : ℤ} {x : α} (hr : t ≤ r) (h : draw stops w r xs = some x) : 0 < w x := by
  induction xs generalizing r with
  | nil => cases h
  | cons y ys ih =>
    unfold draw at h
    split at h
    · rename_i hstop
      rw [hstops] at hstop
      cases h
      omega
    · rename_i hgo
      rw [hstops, not_lt] at hgo
      exact ih hgo h

/-- **Every entry that weighs more than the test leaves is drawn by some number.** -/
theorem exists_draw_eq {x : α} (hx : x ∈ xs) (hw : t < w x) :
    ∃ r : ℤ, t ≤ r ∧ r < (xs.map w).sum ∧ draw stops w r xs = some x := by
  induction xs with
  | nil => cases hx
  | cons y ys ih =>
    rcases List.mem_cons.1 hx with rfl | hx
    · -- the least number that is still in play at the head
      refine ⟨t, le_refl _, ?_, ?_⟩
      · simp only [List.map_cons, List.sum_cons]
        omega
      · unfold draw
        rw [if_pos ((hstops _).2 (by omega))]
    · obtain ⟨r, hr, hlt, hdraw⟩ := ih hx
      refine ⟨r + w y, by omega, ?_, ?_⟩
      · simp only [List.map_cons, List.sum_cons, Int.natCast_add]
        omega
      · unfold draw
        have hgo : ¬ stops (r + w y - w y) = true := by
          rw [hstops]
          omega
        rw [if_neg hgo, Int.add_sub_cancel]
        exact hdraw

end Draw

variable {w : α → ℕ} {xs : List α}

/-- **Stopping below `0`**, the numbers below the total draw the entries of positive
weight. -/
theorem exists_draw_lt_zero_iff {x : α} :
    (∃ d < (xs.map w).sum, draw (fun r => r < 0) w d xs = some x) ↔ x ∈ xs ∧ 0 < w x := by
  have hstops : ∀ r : ℤ, decide (r < 0) = true ↔ r < (0 : ℕ) := by simp
  constructor
  · rintro ⟨d, -, hdraw⟩
    exact ⟨mem_of_draw hdraw, pos_of_draw hstops (Int.natCast_nonneg d) hdraw⟩
  · rintro ⟨hx, hw⟩
    obtain ⟨r, hr, hlt, hdraw⟩ := exists_draw_eq hstops hx hw
    obtain ⟨d, rfl⟩ := Int.eq_ofNat_of_zero_le hr
    exact ⟨d, by omega, hdraw⟩

/-- **Each entry has the numbers of its own interval**, behind those of the entries before
it. -/
theorem draw_lt_zero_split {pre post : List α} {x : α} (hpre : x ∉ pre) (hpost : x ∉ post) (d : ℕ) :
    draw (fun r => r < 0) w d (pre ++ x :: post) = some x ↔
      (pre.map w).sum ≤ d ∧ d < (pre.map w).sum + w x := by
  induction pre generalizing d with
  | nil =>
    rw [List.nil_append, draw]
    constructor
    · intro h
      split at h
      · next hstop =>
        rw [decide_eq_true_iff] at hstop
        exact ⟨Nat.zero_le d, by simpa using hstop⟩
      · exact absurd (mem_of_draw h) hpost
    · rintro ⟨-, hlt⟩
      rw [List.map_nil, List.sum_nil, Nat.zero_add] at hlt
      rw [if_pos (by simp; omega)]
  | cons y pre ih =>
    rw [List.mem_cons, not_or] at hpre
    obtain ⟨hxy, hpre⟩ := hpre
    rw [List.cons_append, draw, List.map_cons, List.sum_cons]
    split
    · next hstop =>
      rw [decide_eq_true_iff] at hstop
      exact iff_of_false (fun h => hxy (Option.some.inj h).symm) (by omega)
    · next hgo =>
      rw [decide_eq_true_iff, not_lt] at hgo
      obtain ⟨e, he⟩ := Int.eq_ofNat_of_zero_le hgo
      rw [he, ih hpre e]
      omega

section Count

variable [DecidableEq α]

variable {xs : List α}

/-- **Each entry is drawn by as many numbers as it weighs.** -/
theorem card_draw_lt_zero {w : α → ℕ} (hnodup : xs.Nodup) {x : α} (hx : x ∈ xs) :
    ((Finset.range (xs.map w).sum).filter fun d : ℕ =>
      draw (fun r => r < 0) w d xs = some x).card = w x := by
  obtain ⟨pre, post, rfl⟩ := List.append_of_mem hx
  rw [List.nodup_append, List.nodup_cons] at hnodup
  obtain ⟨-, ⟨hpost, -⟩, hdisj⟩ := hnodup
  have hpre : x ∉ pre := fun h => hdisj x h x List.mem_cons_self rfl
  have hinterval : (Finset.range ((pre ++ x :: post).map w).sum).filter (fun d : ℕ =>
      draw (fun r => r < 0) w d (pre ++ x :: post) = some x) =
      Finset.Ico (pre.map w).sum ((pre.map w).sum + w x) := by
    ext d
    rw [Finset.mem_filter, Finset.mem_range, Finset.mem_Ico, draw_lt_zero_split hpre hpost,
      and_iff_right_of_imp]
    rintro ⟨-, hlt⟩
    rw [List.map_append, List.sum_append, List.map_cons, List.sum_cons]
    omega
  rw [hinterval, Nat.card_Ico, Nat.add_sub_cancel_left]

/-- The numbers of all entries are among those that there are. -/
theorem sum_card_le (hnodup : xs.Nodup) (n : ℕ) (f : ℕ → Option α) :
    (xs.map fun x => ((Finset.range n).filter fun d => f d = some x).card).sum ≤ n := by
  have hsum : (xs.map fun x => ((Finset.range n).filter fun d => f d = some x).card).sum =
      ∑ x ∈ xs.toFinset, ((Finset.range n).filter fun d => f d = some x).card :=
    (List.sum_toFinset _ hnodup).symm
  rw [hsum, ← Finset.card_biUnion]
  · exact (Finset.card_le_card (Finset.biUnion_subset.mpr fun x _ =>
      Finset.filter_subset _ _)).trans_eq (Finset.card_range n)
  · intro x _ y _ hxy
    rw [Function.onFun, Finset.disjoint_filter]
    rintro d - hx hy
    exact hxy (Option.some.inj (hx.symm.trans hy))

/-- **Entries of one name**: where each of them is drawn by `k` of the numbers, the name is drawn
by `k` numbers for each time it is listed. -/
theorem card_map_drawn {β : Type*} [DecidableEq β] (hnodup : xs.Nodup) {n k : ℕ}
    {g : ℕ → Option α} (hmem : ∀ d x, g d = some x → x ∈ xs) (f : α → β) {b : β}
    (hshare : ∀ x ∈ xs, f x = b → ((Finset.range n).filter fun d => g d = some x).card = k) :
    ((Finset.range n).filter fun d => (g d).map f = some b).card = (xs.map f).count b * k := by
  have hunion : ((Finset.range n).filter fun d => (g d).map f = some b) =
      (xs.filter fun x => f x = b).toFinset.biUnion fun x =>
        (Finset.range n).filter fun d => g d = some x := by
    ext d
    simp only [Finset.mem_filter, Option.map_eq_some_iff, Finset.mem_biUnion, List.mem_toFinset,
      List.mem_filter, decide_eq_true_eq]
    constructor
    · rintro ⟨hd, x, hx, hb⟩
      exact ⟨x, ⟨hmem d x hx, hb⟩, hd, hx⟩
    · rintro ⟨x, ⟨-, hb⟩, hd, hx⟩
      exact ⟨hd, x, hx, hb⟩
  have hcount : (xs.filter fun x => f x = b).toFinset.card = (xs.map f).count b := by
    rw [List.toFinset_card_of_nodup (hnodup.filter _), List.count, List.countP_map,
      ← List.countP_eq_length_filter]
    rfl
  -- the numbers of two entries are apart
  rw [hunion, Finset.card_biUnion]
  · rw [← hcount]
    refine Finset.sum_const_nat fun x hx => ?_
    rw [List.mem_toFinset, List.mem_filter, decide_eq_true_eq] at hx
    exact hshare x hx.1 hx.2
  · intro x _ y _ hxy
    rw [Function.onFun, Finset.disjoint_filter]
    rintro d - hx hy
    exact hxy (Option.some.inj (hx.symm.trans hy))

end Count

theorem le_zero_iff_lt_one (r : ℤ) : decide (r ≤ 0) = true ↔ r < (1 : ℕ) := by
  rw [decide_eq_true_iff]
  omega

/-- Stopping at `0`, a number below the total stops the loop. -/
theorem draw_le_zero_isSome {d : ℕ} (hd : d < (xs.map w).sum) :
    (draw (fun r => r ≤ 0) w d xs).isSome := by
  refine draw_isSome le_zero_iff_lt_one (by omega) ?_
  rintro rfl
  simp at hd

/-- **Stopping at `0`**, they draw every entry, if all weigh at least `2`. -/
theorem exists_draw_le_zero_iff {x : α} (hw : ∀ x, 2 ≤ w x) :
    (∃ d < (xs.map w).sum, draw (fun r => r ≤ 0) w d xs = some x) ↔ x ∈ xs := by
  constructor
  · rintro ⟨d, -, hdraw⟩
    exact mem_of_draw hdraw
  · intro hx
    obtain ⟨r, hr, hlt, hdraw⟩ := exists_draw_eq le_zero_iff_lt_one hx (hw x)
    obtain ⟨d, rfl⟩ := Int.eq_ofNat_of_zero_le (Int.le_of_lt hr)
    exact ⟨d, by omega, hdraw⟩

end Choice
