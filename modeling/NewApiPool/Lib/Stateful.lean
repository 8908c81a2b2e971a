import Mathlib.Data.List.Basic
import Mathlib.Order.Defs.Unbundled

/-!
# Programs that keep what they have written when they fail

A program of `EStateM` has a state also where it ends with an error: what it has written up to
there. `Respects R` says that the state after is related to the state before, however the program
ends; it is proved by the parts of the program. A frame condition is of this form, and `AgreeBelow`
is the frame of programs that write only to cells they have allocated.
-/

namespace Stateful

variable {ε ε' σ α β : Type}

/-- The state a program ends in. -/
def final : EStateM.Result ε σ α → σ
  | .ok _ s => s
  | .error _ s => s

/-- The errors of a program get another text. -/
def mapError (f : ε → ε') (m : EStateM ε σ α) : EStateM ε' σ α := fun s =>
  match m s with
  | .ok a s' => .ok a s'
  | .error e s' => .error (f e) s'

/-! ### Frames -/

/-- However the program ends, the state is related to the one before. -/
structure Respects (R : σ → σ → Prop) (m : EStateM ε σ α) : Prop where
  run : ∀ s, R s (final (m s))

section Respects

variable {R : σ → σ → Prop} {m : EStateM ε σ α}

theorem respects_pure [Std.Refl R] (a : α) : Respects R (pure a : EStateM ε σ α) :=
  ⟨fun s => Std.Refl.refl s⟩

theorem respects_throw [Std.Refl R] (e : ε) : Respects R (throw e : EStateM ε σ α) :=
  ⟨fun s => Std.Refl.refl s⟩

theorem respects_get [Std.Refl R] : Respects R (get : EStateM ε σ σ) :=
  ⟨fun s => Std.Refl.refl s⟩

theorem respects_modify {f : σ → σ} (h : ∀ s, R s (f s)) :
    Respects R (modify f : EStateM ε σ PUnit) := ⟨h⟩

theorem respects_ofExcept [Std.Refl R] (x : Except ε α) :
    Respects R (ofExcept x : EStateM ε σ α) := by
  cases x with
  | ok a => exact respects_pure a
  | error e => exact respects_throw e

theorem Respects.mapError (h : Respects R m) (f : ε → ε') : Respects R (mapError f m) := by
  refine ⟨fun s => ?_⟩
  have hs := h.run s
  rw [Stateful.mapError]
  cases hm : m s with
  | ok a s' => rwa [hm] at hs
  | error e s' => rwa [hm] at hs

/-- **One program after another.** -/
theorem Respects.bind [IsTrans σ R] {f : α → EStateM ε σ β} (hm : Respects R m)
    (hf : ∀ a, Respects R (f a)) : Respects R (m >>= f) := by
  refine ⟨fun s => ?_⟩
  have hs := hm.run s
  show R s (final (EStateM.bind m f s))
  rw [EStateM.bind]
  cases h : m s with
  | ok a s' =>
    rw [h] at hs
    exact IsTrans.trans _ _ _ hs ((hf a).run s')
  | error e s' => rwa [h] at hs

theorem respects_foldlM [IsTrans σ R] [Std.Refl R] {f : β → α → EStateM ε σ β}
    (hf : ∀ b a, Respects R (f b a)) (l : List α) (b : β) : Respects R (l.foldlM f b) := by
  induction l generalizing b with
  | nil => exact respects_pure b
  | cons a l ih =>
    rw [List.foldlM_cons]
    exact (hf b a).bind ih

end Respects

/-! ### Cells -/

/-- The cells that were there are as they were. -/
def AgreeBelow (n : ℕ) (cells cells' : List α) : Prop :=
  n ≤ cells.length → n ≤ cells'.length ∧ ∀ i < n, cells'[i]? = cells[i]?

theorem AgreeBelow.refl (n : ℕ) (cells : List α) : AgreeBelow n cells cells :=
  fun h => ⟨h, fun _ _ => rfl⟩

theorem AgreeBelow.trans {n : ℕ} {cells cells' cells'' : List α} (h : AgreeBelow n cells cells')
    (h' : AgreeBelow n cells' cells'') : AgreeBelow n cells cells'' := by
  intro hn
  obtain ⟨hn', hcells⟩ := h hn
  obtain ⟨hn'', hcells'⟩ := h' hn'
  exact ⟨hn'', fun i hi => (hcells' i hi).trans (hcells i hi)⟩

theorem agreeBelow_set {n i : ℕ} (h : n ≤ i) (cells : List α) (x : α) :
    AgreeBelow n cells (cells.set i x) := by
  refine fun hn => ⟨by simpa using hn, fun j hj => ?_⟩
  rw [List.getElem?_set_ne (by omega)]

end Stateful
