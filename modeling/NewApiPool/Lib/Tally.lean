import Mathlib.Algebra.Ring.Int.Defs
import Mathlib.Algebra.BigOperators.Group.List.Basic
import Mathlib.Algebra.Order.BigOperators.Group.List

/-!
# Tallies

The sum of an integer over the entries of a list: what a ledger comes to when every
entry has an amount outstanding. An operation changes the amount of one entry of a
list without repetitions, replaces or removes the entry at a position, or adds an
entry; there is a rule for each of these that says what happens to the sum.
-/

namespace Tally

variable {α : Type*} {l : List α} {f g : α → Int} {a : α}

/-- The sum of `f` over `l`. -/
def tally (l : List α) (f : α → Int) : Int := (l.map f).sum

@[simp] theorem tally_nil (f : α → Int) : tally [] f = 0 := rfl

@[simp] theorem tally_cons (a : α) (l : List α) (f : α → Int) :
    tally (a :: l) f = f a + tally l f := by
  simp [tally]

theorem tally_congr (h : ∀ b ∈ l, g b = f b) : tally l g = tally l f := by
  unfold tally
  rw [List.map_congr_left h]

@[simp] theorem tally_append (l m : List α) (f : α → Int) :
    tally (l ++ m) f = tally l f + tally m f := by
  simp [tally]

theorem tally_perm {m : List α} (h : l.Perm m) (f : α → Int) : tally l f = tally m f :=
  (h.map f).sum_eq

theorem tally_eq_zero (h : ∀ b ∈ l, f b = 0) : tally l f = 0 := by
  induction l with
  | nil => rfl
  | cons b l ih =>
    rw [tally_cons, h b List.mem_cons_self, ih fun c hc => h c (List.mem_cons_of_mem b hc)]
    rfl

/-- **Replacing the entry at a position.** -/
theorem tally_set {i : Nat} (ha : l[i]? = some a) (b : α) (f : α → Int) :
    tally (l.set i b) f = tally l f + (f b - f a) := by
  induction l generalizing i with
  | nil => simp at ha
  | cons c l ih =>
    cases i with
    | zero =>
      obtain rfl : c = a := by simpa using ha
      simp only [List.set_cons_zero, tally_cons]
      omega
    | succ i =>
      have := ih (i := i) (by simpa using ha)
      simp only [List.set_cons_succ, tally_cons]
      omega

/-- **Removing the entry at a position.** -/
theorem tally_eraseIdx {i : Nat} (ha : l[i]? = some a) (f : α → Int) :
    tally (l.eraseIdx i) f = tally l f - f a := by
  induction l generalizing i with
  | nil => simp at ha
  | cons c l ih =>
    cases i with
    | zero =>
      obtain rfl : c = a := by simpa using ha
      simp only [List.eraseIdx_cons_zero, tally_cons]
      omega
    | succ i =>
      have := ih (i := i) (by simpa using ha)
      simp only [List.eraseIdx_cons_succ, tally_cons]
      omega

/-- **Changing one entry** changes the sum by as much. -/
theorem tally_change (hl : l.Nodup) (ha : a ∈ l) (h : ∀ b ∈ l, b ≠ a → g b = f b) :
    tally l g = tally l f + (g a - f a) := by
  induction l with
  | nil => cases ha
  | cons b l ih =>
    obtain ⟨hb, hl⟩ := List.nodup_cons.mp hl
    rw [tally_cons, tally_cons]
    rcases List.mem_cons.mp ha with rfl | hal
    · have htail : tally l g = tally l f :=
        tally_congr fun c hc => h c (List.mem_cons_of_mem _ hc) (fun hca => hb (hca ▸ hc))
      omega
    · have hba : b ≠ a := fun hba => hb (hba ▸ hal)
      have htail := ih hl hal fun c hc => h c (List.mem_cons_of_mem _ hc)
      rw [h b List.mem_cons_self hba, htail]
      omega

theorem tally_nonneg (h : ∀ b ∈ l, 0 ≤ f b) : 0 ≤ tally l f := by
  refine List.sum_nonneg fun x hx => ?_
  obtain ⟨b, hb, rfl⟩ := List.mem_map.mp hx
  exact h b hb

theorem le_tally (h : ∀ b ∈ l, 0 ≤ f b) (ha : a ∈ l) : f a ≤ tally l f := by
  induction l with
  | nil => cases ha
  | cons b l ih =>
    have hrest := tally_nonneg fun c hc => h c (List.mem_cons_of_mem b hc)
    have hb := h b List.mem_cons_self
    rw [tally_cons]
    rcases List.mem_cons.mp ha with rfl | hal
    · omega
    · have := ih (fun c hc => h c (List.mem_cons_of_mem b hc)) hal
      omega

end Tally
