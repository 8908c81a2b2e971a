import Mathlib.Algebra.Order.Group.Unbundled.Int
import Mathlib.Data.List.Sort

/-!
# Intervals of integers

A list of intervals, each from its `start` to its `stop`, stands for what they cover together.
Sorted by their beginnings they can be merged from the left (`merge`): the result covers the same
(`covers_merge_iff`), and between two of its intervals there is a gap (`separated_merge`). Whoever
looks for a number in such a list may stop at the first interval that begins behind it
(`find_iff`).
-/

namespace Intervals

/-- The integers from `start` to `stop`. -/
structure Interval where
  start : ℤ
  stop : ℤ
deriving DecidableEq, Repr

def Interval.Covers (r : Interval) (n : ℤ) : Prop := r.start ≤ n ∧ n ≤ r.stop

instance (r : Interval) (n : ℤ) : Decidable (r.Covers n) :=
  inferInstanceAs (Decidable (_ ∧ _))

def Covers (l : List Interval) (n : ℤ) : Prop := ∃ r ∈ l, r.Covers n

/-- One interval is not behind another, by its beginning and then by its end. -/
def Le (r s : Interval) : Prop := r.start < s.start ∨ r.start = s.start ∧ r.stop ≤ s.stop

instance : DecidableRel Le := fun _ _ => inferInstanceAs (Decidable (_ ∨ _))

instance : IsTrans Interval Le := ⟨fun _ _ _ h h' => by unfold Le at *; omega⟩

instance : Std.Total Le := ⟨fun _ _ => by unfold Le; omega⟩

instance : Std.Antisymm Le := ⟨fun r s h h' => by
  cases r
  cases s
  simp only [Le, Interval.mk.injEq] at *
  omega⟩

/-- **There is a gap** between every two intervals. -/
def Separated (l : List Interval) : Prop := l.Pairwise fun r s => r.stop + 1 < s.start

/-- The interval, up to where another one ends. -/
def Interval.grow (last r : Interval) : Interval :=
  if last.stop < r.stop then { last with stop := r.stop } else last

/-- Merging from the left, where `last` is the interval that may still grow. -/
def mergeFrom : Interval → List Interval → List Interval
  | last, [] => [last]
  | last, r :: l =>
    if r.start ≤ last.stop + 1 then mergeFrom (last.grow r) l else last :: mergeFrom r l

def merge : List Interval → List Interval
  | [] => []
  | r :: l => mergeFrom r l

/-- Looking for a number from the left. -/
def find (n : ℤ) : List Interval → Bool
  | [] => false
  | r :: l => if n < r.start then false else if n ≤ r.stop then true else find n l

variable {r last : Interval} {l l' : List Interval} {n lower upper : ℤ}

@[simp] theorem covers_nil : ¬Covers [] n := fun ⟨_, h, _⟩ => List.not_mem_nil h

@[simp] theorem covers_cons : Covers (r :: l) n ↔ r.Covers n ∨ Covers l n :=
  List.exists_mem_cons_iff _ _ _

theorem covers_of_perm (h : l.Perm l') : Covers l n ↔ Covers l' n :=
  exists_congr fun _ => and_congr_left fun _ => h.mem_iff

theorem Interval.start_grow : (last.grow r).start = last.start := by
  rw [grow]
  split <;> rfl

theorem Interval.stop_grow : (last.grow r).stop = max last.stop r.stop := by
  rw [grow]
  split
  · rename_i h
    exact (max_eq_right h.le).symm
  · rename_i h
    exact (max_eq_left (not_lt.1 h)).symm

/-- The interval that grows covers what the next one does, if they touch. -/
theorem covers_grow (hstart : last.start ≤ r.start) (htouch : r.start ≤ last.stop + 1) :
    (last.grow r).Covers n ↔ last.Covers n ∨ r.Covers n := by
  rw [Interval.Covers, Interval.start_grow, Interval.stop_grow]
  unfold Interval.Covers
  omega

theorem pairwise_grow (h : (last :: r :: l).Pairwise fun r s => r.start ≤ s.start) :
    (last.grow r :: l).Pairwise fun r s => r.start ≤ s.start := by
  obtain ⟨hlast, hsorted⟩ := List.pairwise_cons.1 h
  refine List.pairwise_cons.2 ⟨fun s hs => ?_, (List.pairwise_cons.1 hsorted).2⟩
  exact Interval.start_grow.trans_le (hlast s (List.mem_cons_of_mem r hs))

/-- **Merging changes nothing** about what is covered. -/
theorem covers_mergeFrom_iff (h : (last :: l).Pairwise fun r s => r.start ≤ s.start) :
    Covers (mergeFrom last l) n ↔ last.Covers n ∨ Covers l n := by
  induction l generalizing last with
  | nil => rw [mergeFrom, covers_cons]
  | cons r l ih =>
    obtain ⟨hlast, hsorted⟩ := List.pairwise_cons.1 h
    rw [mergeFrom]
    split
    · rename_i htouch
      rw [ih (pairwise_grow h), covers_grow (hlast r List.mem_cons_self) htouch, covers_cons,
        or_assoc]
    · rw [covers_cons, ih hsorted, covers_cons]

theorem covers_merge_iff (h : l.Pairwise fun r s => r.start ≤ s.start) :
    Covers (merge l) n ↔ Covers l n := by
  cases l with
  | nil => exact Iff.rfl
  | cons r l => rw [merge, covers_mergeFrom_iff h, covers_cons]

/-- What holds of the intervals, and of one that grew, holds of the merged ones. -/
theorem forall_mergeFrom {P : Interval → Prop} (hgrow : ∀ r s, P r → P s → P (r.grow s))
    (h : ∀ s ∈ last :: l, P s) : ∀ s ∈ mergeFrom last l, P s := by
  induction l generalizing last with
  | nil => exact h
  | cons r l ih =>
    obtain ⟨hlast, hrest⟩ := List.forall_mem_cons.1 h
    rw [mergeFrom]
    split
    · refine ih (List.forall_mem_cons.2 ⟨hgrow last r hlast (hrest r List.mem_cons_self), ?_⟩)
      exact fun s hs => hrest s (List.mem_cons_of_mem r hs)
    · exact List.forall_mem_cons.2 ⟨hlast, ih hrest⟩

theorem forall_merge {P : Interval → Prop} (hgrow : ∀ r s, P r → P s → P (r.grow s))
    (h : ∀ s ∈ l, P s) : ∀ s ∈ merge l, P s := by
  cases l with
  | nil => exact h
  | cons r l => exact forall_mergeFrom hgrow h

/-- **Merging leaves gaps.** -/
theorem separated_mergeFrom (h : (last :: l).Pairwise fun r s => r.start ≤ s.start) :
    Separated (mergeFrom last l) := by
  induction l generalizing last with
  | nil => exact List.pairwise_singleton _ _
  | cons r l ih =>
    obtain ⟨-, hsorted⟩ := List.pairwise_cons.1 h
    rw [mergeFrom]
    split
    · exact ih (pairwise_grow h)
    · rename_i hgap
      refine List.pairwise_cons.2 ⟨?_, ih hsorted⟩
      refine forall_mergeFrom (fun s t hs _ => Interval.start_grow.symm ▸ hs) fun s hs => ?_
      rcases List.mem_cons.1 hs with rfl | hs
      · exact not_le.1 hgap
      · exact (not_le.1 hgap).trans_le ((List.pairwise_cons.1 hsorted).1 s hs)

theorem separated_merge (h : l.Pairwise fun r s => r.start ≤ s.start) : Separated (merge l) := by
  cases l with
  | nil => exact List.Pairwise.nil
  | cons r l => exact separated_mergeFrom h

theorem merge_of_separated (h : Separated l) : merge l = l := by
  have hfrom (last : Interval) (l : List Interval) (h : Separated (last :: l)) :
      mergeFrom last l = last :: l := by
    induction l generalizing last with
    | nil => rfl
    | cons r l ih =>
      obtain ⟨hlast, hrest⟩ := List.pairwise_cons.1 h
      rw [mergeFrom, if_neg (not_le.2 (hlast r List.mem_cons_self)), ih r hrest]
  cases l with
  | nil => rfl
  | cons r l => exact hfrom r l h

/-- **The search from the left is right** where there are gaps: an interval behind the number has
only such intervals after it. -/
theorem find_iff (h : Separated l) (hle : ∀ r ∈ l, r.start ≤ r.stop) :
    find n l = true ↔ Covers l n := by
  induction l with
  | nil => exact iff_of_false Bool.false_ne_true covers_nil
  | cons r l ih =>
    obtain ⟨hlater, hrest⟩ := List.pairwise_cons.1 h
    obtain ⟨hr, hle⟩ := List.forall_mem_cons.1 hle
    rw [find, covers_cons]
    split
    · rename_i hlt
      refine iff_of_false Bool.false_ne_true ?_
      rintro (hcover | ⟨s, hs, hcover⟩)
      · exact absurd hcover.1 (not_le.2 hlt)
      · have hgap := hlater s hs
        have hstart := hcover.1
        omega
    · rename_i hge
      split
      · rename_i hstop
        exact iff_of_true rfl (Or.inl ⟨not_lt.1 hge, hstop⟩)
      · rename_i hstop
        rw [ih hrest hle]
        exact ⟨Or.inr, fun hcover => hcover.resolve_left fun hc => hstop hc.2⟩

/-! ### Sorting -/

theorem start_le_of_le (h : Le r last) : r.start ≤ last.start := by
  unfold Le at h
  omega

theorem pairwise_start_sort (l : List Interval) :
    (l.insertionSort Le).Pairwise fun r s => r.start ≤ s.start :=
  (List.pairwise_insertionSort Le l).imp start_le_of_le

theorem sort_eq_of_perm (h : l.Perm l') : l.insertionSort Le = l'.insertionSort Le :=
  ((List.perm_insertionSort Le l).trans (h.trans (List.perm_insertionSort Le l').symm))
    |>.eq_of_pairwise' (List.pairwise_insertionSort Le l) (List.pairwise_insertionSort Le l')

theorem sort_of_separated (h : Separated l) (hle : ∀ r ∈ l, r.start ≤ r.stop) :
    l.insertionSort Le = l := by
  refine List.Pairwise.insertionSort_eq (List.Pairwise.imp_of_mem (fun hr _ hgap => ?_) h)
  have := hle _ hr
  exact Or.inl (by omega)

end Intervals
