import Mathlib.Data.List.Forall2

/-!
# Steps that may fail

Loops whose steps may fail, in `Except`: when all of the steps come to a result
(`exists_foldlM_ok`), and what the result is made of (`mapM_eq_ok_iff`).
-/

namespace Fallible

variable {ε α β : Type} {f : α → Except ε β}

theorem bind_eq_ok_iff {x : Except ε α} {b : β} :
    (x >>= f) = .ok b ↔ ∃ a, x = .ok a ∧ f a = .ok b := by
  cases x with
  | error e =>
    refine iff_of_false (fun h => ?_) ?_
    · cases h
    · rintro ⟨a, ha, -⟩
      cases ha
  | ok a =>
    refine ⟨fun h => ⟨a, rfl, h⟩, ?_⟩
    rintro ⟨a', ha, h⟩
    obtain rfl := Except.ok.inj ha
    exact h

variable {l : List α}

/-- A loop over a list has a result just in case each of its elements has. -/
theorem mapM_eq_ok_iff {bs : List β} :
    l.mapM f = .ok bs ↔ List.Forall₂ (fun a b => f a = .ok b) l bs := by
  induction l generalizing bs with
  | nil =>
    rw [List.mapM_nil, List.forall₂_nil_left_iff]
    exact ⟨fun h => (Except.ok.inj h).symm, fun h => h ▸ rfl⟩
  | cons a l ih =>
    rw [List.mapM_cons, bind_eq_ok_iff, List.forall₂_cons_left_iff]
    refine exists_congr fun b => ?_
    rw [bind_eq_ok_iff]
    constructor
    · rintro ⟨ha, bs', hbs, h⟩
      exact ⟨bs', ha, ih.mp hbs, (Except.ok.inj h).symm⟩
    · rintro ⟨bs', ha, hbs, rfl⟩
      exact ⟨ha, bs', ih.mpr hbs, rfl⟩

theorem exists_of_mem_mapM {bs : List β}
    (h : l.mapM f = .ok bs) {b : β} (hb : b ∈ bs) : ∃ a ∈ l, f a = .ok b := by
  have hall := mapM_eq_ok_iff.mp h
  clear h
  induction hall with
  | nil => cases hb
  | @cons a b' l bs ha _ ih =>
    rcases List.mem_cons.mp hb with rfl | hb
    · exact ⟨a, List.mem_cons_self, ha⟩
    · obtain ⟨a', ha', h⟩ := ih hb
      exact ⟨a', List.mem_cons_of_mem a ha', h⟩

theorem exists_foldlM_ok {f : β → α → Except ε β}
    (h : ∀ a ∈ l, ∀ b, ∃ b', f b a = .ok b') (b : β) : ∃ b', l.foldlM f b = .ok b' := by
  induction l generalizing b with
  | nil => exact ⟨b, rfl⟩
  | cons a l ih =>
    obtain ⟨ha, hl⟩ := List.forall_mem_cons.mp h
    obtain ⟨b', hb'⟩ := ha b
    rw [List.foldlM_cons, hb']
    exact ih hl b'

theorem toOption_foldlM (f : β → α → Except ε β) (l : List α) (b : β) :
    (l.foldlM f b).toOption = l.foldlM (fun b a => (f b a).toOption) b := by
  induction l generalizing b with
  | nil => rfl
  | cons a l ih =>
    rw [List.foldlM_cons, List.foldlM_cons]
    cases f b a with
    | error e => rfl
    | ok b' => exact ih b'

theorem foldlM_congr_of_mem {m : Type → Type} [Monad m] [LawfulMonad m] {f g : β → α → m β}
    (h : ∀ a ∈ l, ∀ b, f b a = g b a) (b : β) : l.foldlM f b = l.foldlM g b := by
  induction l generalizing b with
  | nil => rfl
  | cons a l ih =>
    obtain ⟨ha, hl⟩ := List.forall_mem_cons.mp h
    rw [List.foldlM_cons, List.foldlM_cons, ha]
    exact congrArg _ (funext fun b' => ih hl b')

end Fallible
