import Mathlib.Data.List.Basic
import Mathlib.Logic.Function.Basic

/-!
# Runs of an event-driven system

A system is a total function `step : σ → ε → σ`: an event is one call, or one
statement of one party, and an event that is not enabled leaves the state alone.
A run is a list of events, so that “every interleaving” and “every sequence of
calls” are both a quantifier over lists.

Five things are proved once and used by the developments on top of this file.

* `EventSystem.inv_run`: what one step preserves, a run preserves. The step may
  assume a condition on the state it is fired in; then the run is one along which
  the condition holds (`EventSystem.Along`).
* `EventSystem.forall_take_iff`: where that condition is also needed for the step, a run is
  right in all its states exactly when it holds along the run.
* `EventSystem.sim_run`: two systems fed with the same events stay related.
* `EventSystem.refines_run`: where the coarser system is a relation, because it leaves
  open what an event does, a run seen through a view is one of its runs
  (`EventSystem.Runs`).
* `EventSystem.along_append`: a run splits at any point, which is how a statement
  about the last state of a run becomes one about every state it goes through.

The states keep their rows in functions to `Option`, and a step updates one of them;
`EventSystem.update_eq_some` says which rows there are then.
-/

namespace EventSystem

variable {σ τ ε : Type*} (step : σ → ε → σ)

/-- The state a list of events leads to. -/
def run (s : σ) : List ε → σ
  | [] => s
  | e :: es => run (step s e) es

/-- **Every event of the list is fired in a state that meets `C`.** -/
def Along (C : σ → ε → Prop) : σ → List ε → Prop
  | _, [] => True
  | s, e :: es => C s e ∧ Along C (step s e) es

instance decidableAlong {C : σ → ε → Prop} [∀ s e, Decidable (C s e)] :
    ∀ (s : σ) (es : List ε), Decidable (Along step C s es)
  | _, [] => inferInstanceAs (Decidable True)
  | s, e :: es => @instDecidableAnd _ _ _ (decidableAlong (step s e) es)

@[simp] theorem run_nil (s : σ) : run step s [] = s := rfl

@[simp] theorem run_cons (s : σ) (e : ε) (es : List ε) :
    run step s (e :: es) = run step (step s e) es := rfl

@[simp] theorem run_append (s : σ) (es fs : List ε) :
    run step s (es ++ fs) = run step (run step s es) fs := by
  induction es generalizing s with
  | nil => rfl
  | cons e es ih => exact ih (step s e)

variable {step} {C : σ → ε → Prop}

@[simp] theorem along_nil (s : σ) : Along step C s [] := trivial

@[simp] theorem along_cons (s : σ) (e : ε) (es : List ε) :
    Along step C s (e :: es) ↔ C s e ∧ Along step C (step s e) es := Iff.rfl

theorem along_append (s : σ) (es fs : List ε) :
    Along step C s (es ++ fs) ↔ Along step C s es ∧ Along step C (run step s es) fs := by
  induction es generalizing s with
  | nil => simp
  | cons e es ih => simp [ih, and_assoc]

variable {I : σ → Prop} {s : σ} {es : List ε}

/-- **What a step preserves, a run preserves.** -/
theorem inv_run (hstep : ∀ s e, I s → C s e → I (step s e))
    (hs : I s) (hC : Along step C s es) : I (run step s es) := by
  induction es generalizing s with
  | nil => exact hs
  | cons e es ih => exact ih (hstep s e hs hC.1) hC.2

theorem inv_run_always (hstep : ∀ s e, I s → I (step s e))
    (hs : I s) (es : List ε) : I (run step s es) := by
  induction es generalizing s with
  | nil => exact hs
  | cons e es ih => exact ih (hstep s e hs)

theorem along_take (h : Along step C s es) (n : ℕ) :
    Along step C s (es.take n) := by
  rw [← List.take_append_drop n es, along_append] at h
  exact h.1

/-- **A condition that is exact for one step is exact for a run**: where the invariant gives
the property, a step that meets the condition keeps the invariant, and a step after which
the property holds meets the condition, the property holds in every state of a run exactly
when every step of it meets the condition. -/
theorem forall_take_iff {P : σ → Prop} (hIP : ∀ s, I s → P s)
    (hkeep : ∀ s e, I s → C s e → I (step s e)) (honly : ∀ s e, I s → P (step s e) → C s e)
    (hs : I s) (es : List ε) :
    (∀ n, P (run step s (es.take n))) ↔ Along step C s es := by
  constructor
  · intro h
    induction es generalizing s with
    | nil => trivial
    | cons e es ih =>
      have hC : C s e := honly s e hs (by simpa using h 1)
      exact ⟨hC, ih (hkeep s e hs hC) fun n => by simpa using h (n + 1)⟩
  · intro h n
    exact hIP _ (inv_run hkeep hs (along_take h n))

/-- **Two conditions that are the same where the invariant holds** hold along the same runs, if
the steps that meet them keep it. -/
theorem along_congr {D : σ → ε → Prop} (hiff : ∀ s e, I s → (D s e ↔ C s e))
    (hkeep : ∀ s e, I s → C s e → I (step s e)) (hs : I s) (es : List ε) :
    Along step D s es ↔ Along step C s es := by
  induction es generalizing s with
  | nil => exact Iff.rfl
  | cons e es ih =>
    rw [along_cons, along_cons, hiff s e hs]
    exact and_congr_right fun hC => ih (hkeep s e hs hC)

/-- **Two systems fed with the same events stay related.** The condition is on
the second of them, the one whose steps are being justified. -/
theorem sim_run (step : σ → ε → σ) (astep : τ → ε → τ) {R : τ → σ → Prop}
    (hstep : ∀ a s e, R a s → C s e → R (astep a e) (step s e)) {a : τ}
    (hR : R a s) (hC : Along step C s es) : R (run astep a es) (run step s es) := by
  induction es generalizing a s with
  | nil => exact hR
  | cons e es ih => exact ih (hstep a s e hR hC.1) hC.2

/-- The runs of a system given by a relation. -/
inductive Runs (R : τ → ε → τ → Prop) : τ → List ε → τ → Prop
  | nil (a : τ) : Runs R a [] a
  | cons {a b c : τ} {e : ε} {es : List ε} (head : R a e b) (tail : Runs R b es c) :
    Runs R a (e :: es) c

/-- **A run seen through `view` is a run of the relation**, if a step from a state with
the invariant is one. -/
theorem refines_run {R : τ → ε → τ → Prop} (view : σ → τ) (hinv : ∀ s e, I s → C s e → I (step s e))
    (hstep : ∀ s e, I s → C s e → R (view s) e (view (step s e)))
    (hs : I s) (hC : Along step C s es) : Runs R (view s) es (view (run step s es)) := by
  induction es generalizing s with
  | nil => exact Runs.nil _
  | cons e es ih => exact Runs.cons (hstep s e hs hC.1) (ih (hinv s e hs hC.1) hC.2)

/-- **The rows after one was written**: that one, and the others as they were. -/
theorem update_eq_some {α β : Type*} [DecidableEq α] {rows : α → Option β} {a i : α} {v t : β}
    (h : Function.update rows a (some v) i = some t) :
    (i = a ∧ t = v) ∨ (i ≠ a ∧ rows i = some t) := by
  by_cases hi : i = a
  · subst hi
    rw [Function.update_self] at h
    exact Or.inl ⟨rfl, (Option.some.inj h).symm⟩
  · rw [Function.update_of_ne hi] at h
    exact Or.inr ⟨hi, h⟩

end EventSystem
