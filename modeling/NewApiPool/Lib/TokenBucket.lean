import Mathlib.Algebra.Order.BigOperators.Group.List
import Mathlib.Algebra.Order.Group.Unbundled.Basic
import Mathlib.Tactic.Abel

/-!
# Token buckets

A bucket has so many tokens at a time, and gains tokens as time passes, up to its capacity. What it
gains is given by its *supply*, the tokens that a bucket without capacity would have at a time. A
log has the calls of a bucket, newest first, each with its time and what it took out.

`TokenBucket.le_level_iff` says what a bucket is for: it has the tokens for one more call exactly
if every window that ends with the call has taken no more than the capacity and the supply of the
window. Hence a log whose calls never took more than there was is within these bounds in every
window (`TokenBucket.Within.cons`).
-/

namespace TokenBucket

variable {τ α : Type*} [LinearOrder τ] {t t' w u : τ} {spent : α} {log : List (τ × α)}

/-- The calls of the log came one after the other, and up to some time. -/
structure Until (t : τ) (log : List (τ × α)) : Prop where
  sorted : log.Pairwise fun e e' => e'.1 ≤ e.1
  le : ∀ e ∈ log, e.1 ≤ t

theorem Until.of_cons (h : Until t ((t', spent) :: log)) : Until t' log where
  sorted := (List.pairwise_cons.mp h.sorted).2
  le := (List.pairwise_cons.mp h.sorted).1

theorem Until.mono (h : Until t log) (hle : t ≤ t') : Until t' log where
  sorted := h.sorted
  le e he := (h.le e he).trans hle

theorem Until.cons (h : Until t log) : Until t ((t, spent) :: log) where
  sorted := List.pairwise_cons.mpr ⟨h.le, h.sorted⟩
  le e he := by
    rcases List.mem_cons.mp he with rfl | he
    · exact le_rfl
    · exact h.le e he

variable [AddCommGroup α]

/-- What the calls between two times took out. -/
def taken (w u : τ) (log : List (τ × α)) : α :=
  ((log.filter fun e => decide (w ≤ e.1 ∧ e.1 ≤ u)).map Prod.snd).sum

theorem taken_cons (h : w ≤ t ∧ t ≤ u) :
    taken w u ((t, spent) :: log) = spent + taken w u log := by
  rw [taken, List.filter_cons, if_pos (decide_eq_true h), List.map_cons, List.sum_cons]
  rfl

theorem taken_cons_of_not (h : ¬(w ≤ t ∧ t ≤ u)) :
    taken w u ((t, spent) :: log) = taken w u log := by
  rw [taken, List.filter_cons, if_neg (by rwa [decide_eq_true_eq])]
  rfl

theorem taken_eq_zero (h : ∀ e ∈ log, e.1 < w) : taken w u log = 0 := by
  have hnone : log.filter (fun e => decide (w ≤ e.1 ∧ e.1 ≤ u)) = [] := by
    rw [List.filter_eq_nil_iff]
    intro e he hw
    exact absurd (of_decide_eq_true hw).1 (not_le.mpr (h e he))
  rw [taken, hnone, List.map_nil, List.sum_nil]

/-- What comes after the log does not matter to its windows. -/
theorem Until.taken_eq (h : Until t log) (hu : t ≤ u) : taken w u log = taken w t log := by
  have hfilter : log.filter (fun e => decide (w ≤ e.1 ∧ e.1 ≤ u)) =
      log.filter fun e => decide (w ≤ e.1 ∧ e.1 ≤ t) := by
    refine List.filter_congr fun e he => ?_
    have hle := h.le e he
    rw [decide_eq_decide]
    exact and_congr_right fun _ => iff_of_true (hle.trans hu) hle
  rw [taken, hfilter]
  rfl

variable [LinearOrder α]

/-- The tokens at some time, after the calls of a log. -/
def level (supply : τ → α) (capacity : α) : List (τ × α) → τ → α
  | [], _ => capacity
  | (t', spent) :: log, t =>
    min capacity (level supply capacity log t' - spent + (supply t - supply t'))

/-- **No window has taken more than the capacity and its supply.** -/
def Within (supply : τ → α) (capacity : α) (log : List (τ × α)) : Prop :=
  ∀ w u, w ≤ u → taken w u log ≤ capacity + (supply u - supply w)

variable [IsOrderedAddMonoid α] {supply : τ → α} {capacity c : α}

theorem taken_nonneg (hspent : ∀ e ∈ log, 0 ≤ e.2) : 0 ≤ taken w u log := by
  refine List.sum_nonneg fun a ha => ?_
  obtain ⟨e, he, rfl⟩ := List.mem_map.mp ha
  exact hspent e (List.mem_filter.mp he).1

/-- **There are enough tokens for a call exactly if no window that ends with it is exceeded.** -/
theorem le_level_iff (hsupply : Monotone supply) (h : Until t log)
    (hspent : ∀ e ∈ log, 0 ≤ e.2) : c ≤ level supply capacity log t ↔
      ∀ w ≤ t, taken w t log + c ≤ capacity + (supply t - supply w) := by
  have hgain {w u : τ} (hw : w ≤ u) : capacity ≤ capacity + (supply u - supply w) :=
    le_add_of_nonneg_right (sub_nonneg.mpr (hsupply hw))
  induction log generalizing t c with
  | nil =>
    constructor
    · intro hc w hw
      rw [taken_eq_zero fun e he => absurd he List.not_mem_nil, zero_add]
      exact hc.trans (hgain hw)
    · intro hall
      have hnow : c ≤ capacity := by simpa [taken] using hall t le_rfl
      exact hnow
  | cons e log ih =>
    obtain ⟨t', spent⟩ := e
    have ht : t' ≤ t := h.le (t', spent) List.mem_cons_self
    have hrest (e : τ × α) (he : e ∈ log) : 0 ≤ e.2 := hspent e (List.mem_cons_of_mem _ he)
    -- the call and the newest one of the log together, as a call at the time of that one
    have hmove : c ≤ level supply capacity log t' - spent + (supply t - supply t') ↔
        spent + c - (supply t - supply t') ≤ level supply capacity log t' := by
      rw [← sub_le_iff_le_add, le_sub_iff_add_le', add_sub_assoc]
    have hwindow (w : τ) (hw : w ≤ t') :
        taken w t ((t', spent) :: log) + c ≤ capacity + (supply t - supply w) ↔
          taken w t' log + (spent + c - (supply t - supply t')) ≤
            capacity + (supply t' - supply w) := by
      rw [taken_cons ⟨hw, ht⟩, h.of_cons.taken_eq ht, ← sub_nonneg,
        ← sub_nonneg (a := capacity + _)]
      refine iff_of_eq (congrArg (0 ≤ ·) ?_)
      abel
    rw [level, le_min_iff]
    refine (and_congr_right' (hmove.trans (ih h.of_cons hrest))).trans ?_
    constructor
    · rintro ⟨hcap, hall⟩ w hw
      rcases le_or_gt w t' with hle | hlt
      · exact (hwindow w hle).mpr (hall w hle)
      · rw [taken_eq_zero, zero_add]
        · exact hcap.trans (hgain hw)
        · intro e he
          rcases List.mem_cons.mp he with rfl | he
          · exact hlt
          · exact (h.of_cons.le e he).trans_lt hlt
    · intro hall
      refine ⟨?_, fun w hw => (hwindow w hw).mp (hall w (hw.trans ht))⟩
      have hnow := hall t le_rfl
      rw [sub_self, add_zero] at hnow
      exact (le_add_of_nonneg_left (taken_nonneg hspent)).trans hnow

theorem within_nil (hsupply : Monotone supply) (h : 0 ≤ capacity) :
    Within supply capacity [] := by
  intro w u hw
  rw [taken_eq_zero fun e he => absurd he List.not_mem_nil]
  exact add_nonneg h (sub_nonneg.mpr (hsupply hw))

/-- **A call that finds its tokens** keeps every window within its bound. -/
theorem Within.cons (hlog : Within supply capacity log) (hsupply : Monotone supply)
    (h : Until t log) (hspent : ∀ e ∈ log, 0 ≤ e.2) (hc : c ≤ level supply capacity log t) :
    Within supply capacity ((t, c) :: log) := by
  intro w u hu
  by_cases hin : w ≤ t ∧ t ≤ u
  · rw [taken_cons hin, h.taken_eq hin.2, add_comm]
    refine ((le_level_iff hsupply h hspent).mp hc w hin.1).trans ?_
    exact add_le_add_right (sub_le_sub_right (hsupply hin.2) (supply w)) capacity
  · rw [taken_cons_of_not hin]
    exact hlog w u hu

end TokenBucket
