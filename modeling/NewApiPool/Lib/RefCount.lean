import Mathlib.Data.Multiset.AddSub

/-!
# Reference counts

A counter shared by many parties, each of which has some references: it is right when it is the
number of all of them. It stays right while a party takes one or gives one back with the counter,
and at zero no party has any.
-/

namespace RefCount

variable {G : Type*} [DecidableEq G] {refs refs' : G → ℕ} {n : ℤ} {g : G}

/-- The counter is the number of the references of all parties, of which only finitely many have
any. -/
def Counted (refs : G → ℕ) (n : ℤ) : Prop :=
  ∃ users : Multiset G, n = Multiset.card users ∧ ∀ g, users.count g = refs g

theorem counted_zero : Counted (fun _ : G => 0) 0 := ⟨0, rfl, fun _ => rfl⟩

theorem Counted.congr (h : Counted refs n) (heq : ∀ g, refs' g = refs g) : Counted refs' n := by
  obtain ⟨users, hn, hcount⟩ := h
  exact ⟨users, hn, fun g => (hcount g).trans (heq g).symm⟩

/-- **At zero, no party has a reference.** -/
theorem Counted.eq_zero (h : Counted refs 0) (g : G) : refs g = 0 := by
  obtain ⟨users, hn, hcount⟩ := h
  obtain rfl : users = 0 := Multiset.card_eq_zero.1 (by omega)
  exact (hcount g).symm

theorem Counted.add (h : Counted refs n) (hg : refs' g = refs g + 1)
    (hother : ∀ g', g' ≠ g → refs' g' = refs g') : Counted refs' (n + 1) := by
  obtain ⟨users, rfl, hcount⟩ := h
  refine ⟨g ::ₘ users, by rw [Multiset.card_cons]; rfl, fun g' => ?_⟩
  by_cases hg' : g' = g
  · rw [hg', Multiset.count_cons_self, hcount, hg]
  · rw [Multiset.count_cons_of_ne hg', hcount, hother g' hg']

theorem Counted.sub (h : Counted refs n) (hg : refs g = refs' g + 1)
    (hother : ∀ g', g' ≠ g → refs' g' = refs g') : Counted refs' (n - 1) := by
  obtain ⟨users, rfl, hcount⟩ := h
  have hmem : g ∈ users := Multiset.count_pos.1 (by rw [hcount, hg]; exact Nat.succ_pos _)
  refine ⟨users.erase g, ?_, fun g' => ?_⟩
  · have hcard := Multiset.card_erase_add_one hmem
    omega
  · by_cases hg' : g' = g
    · rw [hg', Multiset.count_erase_self, hcount, hg, Nat.add_sub_cancel]
    · rw [Multiset.count_erase_of_ne hg', hcount, hother g' hg']

end RefCount
