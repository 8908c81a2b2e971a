import Mathlib.Data.List.AList

/-!
# Stores of keys and values

What is read from a store after keys were deleted from it, one after the other, and what is answered
about each of them.
-/

namespace KeyStore

universe u v

variable {κ : Type u} [DecidableEq κ] {α : Type v}

/-- A store of keys with a value each. -/
abbrev Store (κ : Type u) (α : Type v) := AList fun _ : κ => α

/-- A key is deleted, and it is noted whether it was there. -/
def delete (p : Store κ α × Store κ Bool) (k : κ) : Store κ α × Store κ Bool :=
  (p.1.erase k, p.2.insert k (decide (k ∈ p.1)))

def deleteMany (s : Store κ α) (ks : List κ) : Store κ α × Store κ Bool := ks.foldl delete (s, ∅)

/-- How many of the keys were there, by the answers that the deletion gives for each of them. -/
def deletedCount (res : Store κ Bool) : ℕ := (res.entries.filter fun e => e.2).length

variable {s : Store κ α} {k k' : κ} {ks : List κ}

theorem lookup_insert_eq (s : Store κ α) (k k' : κ) (a : α) :
    (s.insert k a).lookup k' = if k' = k then some a else s.lookup k' := by
  split_ifs with h
  · rw [h, AList.lookup_insert]
  · exact AList.lookup_insert_ne h

theorem lookup_erase_eq (s : Store κ α) (k k' : κ) :
    (s.erase k).lookup k' = if k' = k then none else s.lookup k' := by
  split_ifs with h
  · rw [h, AList.lookup_erase]
  · exact AList.lookup_erase_ne h

theorem foldl_delete_fst (p : Store κ α × Store κ Bool) (ks : List κ) :
    (ks.foldl delete p).1 = ks.foldl (fun s k => s.erase k) p.1 := by
  induction ks generalizing p with
  | nil => rfl
  | cons k ks ih => exact ih (delete p k)

/-- **The keys that were deleted** are no longer there, and the others are as before. -/
theorem lookup_deleteMany (s : Store κ α) (ks : List κ) (k : κ) :
    (deleteMany s ks).1.lookup k = if k ∈ ks then none else s.lookup k := by
  rw [deleteMany, foldl_delete_fst]
  dsimp only
  induction ks generalizing s with
  | nil => rfl
  | cons k' ks ih =>
    rw [List.foldl_cons, ih, lookup_erase_eq]
    by_cases hk : k = k'
    · simp [hk]
    · simp [hk]

/-- Stores that have the same of the keys answer the same. -/
theorem deleteMany_snd_congr {β : Type*} {s : Store κ α} {t : Store κ β}
    (h : ∀ k ∈ ks, k ∈ s ↔ k ∈ t) : (deleteMany s ks).2 = (deleteMany t ks).2 := by
  have hall (res : Store κ Bool) : (ks.foldl delete (s, res)).2 = (ks.foldl delete (t, res)).2 := by
    induction ks generalizing s t res with
    | nil => rfl
    | cons k ks ih =>
      obtain ⟨hk, hks⟩ := List.forall_mem_cons.mp h
      rw [List.foldl_cons, List.foldl_cons, delete, delete]
      dsimp only
      rw [decide_eq_decide.mpr hk]
      refine ih (fun k' hk' => ?_) _
      rw [AList.mem_erase, AList.mem_erase, hks k' hk']
  exact hall ∅

theorem deletedCount_deleteMany (hnodup : ks.Nodup) (h : ∀ k ∈ ks, k ∈ s) :
    deletedCount (deleteMany s ks).2 = ks.length := by
  have hall (res : Store κ Bool) (hres : ∀ k ∈ ks, k ∉ res) :
      deletedCount (ks.foldl delete (s, res)).2 = ks.length + deletedCount res := by
    induction ks generalizing s res with
    | nil => exact (Nat.zero_add _).symm
    | cons k ks ih =>
      rw [List.nodup_cons] at hnodup
      obtain ⟨hk, hks⟩ := List.forall_mem_cons.mp h
      obtain ⟨hkres, hksres⟩ := List.forall_mem_cons.mp hres
      rw [List.foldl_cons, delete, ih hnodup.2]
      · rw [deletedCount, AList.entries_insert_of_notMem hkres, List.filter_cons,
          if_pos (decide_eq_true hk), List.length_cons, List.length_cons, deletedCount]
        omega
      · intro k' hk'
        have hne : k' ≠ k := fun heq => hnodup.1 (heq ▸ hk')
        exact AList.mem_erase.mpr ⟨hne, hks k' hk'⟩
      · intro k' hk'
        have hne : k' ≠ k := fun heq => hnodup.1 (heq ▸ hk')
        rw [AList.mem_insert]
        exact not_or.mpr ⟨hne, hksres k' hk'⟩
  rw [deleteMany, hall ∅ fun k _ => AList.notMem_empty k]
  rfl

end KeyStore
