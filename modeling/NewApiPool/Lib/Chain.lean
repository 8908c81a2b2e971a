import Mathlib.Data.Finset.Card
import Mathlib.Logic.Relation

/-!
# Chains of redirections

Every name may be redirected to another one, which may be redirected in turn. A chain ends at a
name that is not redirected, or is redirected to itself; it may also run into a cycle, and then
it has no end.

`chase` follows a chain and remembers what it has visited. It stops, because the targets are
finitely many: at the end of the chain, or in a cycle (`chase_cases`), and then there is no end
(`Leads.not_cycles`).
-/

namespace Chain

variable {α : Type*}

/-- Redirections, with a list of their targets. -/
structure Redirects (α : Type*) where
  next : α → Option α
  targets : List α
  mem_targets : ∀ {a b}, next a = some b → b ∈ targets

variable (r : Redirects α)

/-- The chain from `a` ends at `t`. -/
inductive Leads : α → α → Prop
  | stop {a : α} (h : r.next a = none) : Leads a a
  | loop {a : α} (h : r.next a = some a) : Leads a a
  | step {a b t : α} (h : r.next a = some b) (hne : b ≠ a) (hrest : Leads b t) : Leads a t

/-- How a chain ends: at a name without a redirection, at one that is redirected to itself, or not
at all, in a cycle. -/
inductive End (α : Type*)
  /-- at a name that is not redirected -/
  | stop (t : α)
  /-- at a name that is redirected to itself -/
  | loop (t : α)
  | cycle
  deriving DecidableEq

/-- Following the chain from `current`. -/
def chase [DecidableEq α] (visited : List α) (current : α) : End α :=
  match _h : r.next current with
  | none => .stop current
  | some b =>
    if _hb : b ∈ visited then
      if b = current then .loop current else .cycle
    else chase (b :: visited) b
termination_by (r.targets.toFinset \ visited.toFinset).card
decreasing_by
  refine Finset.card_lt_card (Finset.ssubset_iff_of_subset ?_ |>.mpr ⟨b, ?_, ?_⟩)
  · intro x hx
    simp only [List.toFinset_cons, Finset.mem_sdiff, Finset.mem_insert, not_or] at hx ⊢
    exact ⟨hx.1, hx.2.2⟩
  · simp only [Finset.mem_sdiff, List.mem_toFinset]
    exact ⟨r.mem_targets _h, _hb⟩
  · simp

variable {r} {a b t : α} {visited : List α}

/-- A chain has one end, since there is at most one next value. -/
theorem Leads.unique {t' : α} (h : Leads r a t) (h' : Leads r a t') : t = t' := by
  induction h with
  | stop h =>
    cases h' with
    | stop _ => rfl
    | loop h' => rfl
    | step h' _ _ => cases h.symm.trans h'
  | loop h =>
    cases h' with
    | stop _ => rfl
    | loop _ => rfl
    | step h' hne _ =>
      cases h.symm.trans h'
      exact absurd rfl hne
  | step h hne _ ih =>
    cases h' with
    | stop h' => cases h.symm.trans h'
    | loop h' =>
      cases h.symm.trans h'
      exact absurd rfl hne
    | step h' _ hrest' =>
      cases h.symm.trans h'
      exact ih hrest'

/-- One redirection, to another name. -/
def Step (r : Redirects α) (a b : α) : Prop := r.next a = some b ∧ b ≠ a

/-- **A chain that ends is in no cycle.** -/
theorem Leads.not_cycle (h : Leads r a t) (hab : Step r a b) :
    ¬Relation.ReflTransGen (Step r) b a := by
  induction h generalizing b with
  | stop h =>
    cases h.symm.trans hab.1
  | loop h =>
    cases h.symm.trans hab.1
    exact absurd rfl hab.2
  | step h hne _ ih =>
    cases h.symm.trans hab.1
    intro hba
    rcases Relation.ReflTransGen.cases_head hba with heq | ⟨c, hbc, hca⟩
    · exact hne heq
    · exact ih hbc (hca.tail hab)

/-- Where the chain goes, and that there is an end there. -/
theorem leads_iff : Leads r a t ↔
    Relation.ReflTransGen (Step r) a t ∧ (r.next t = none ∨ r.next t = some t) := by
  constructor
  · intro h
    induction h with
    | stop h => exact ⟨.refl, Or.inl h⟩
    | loop h => exact ⟨.refl, Or.inr h⟩
    | step h hne _ ih => exact ⟨.head ⟨h, hne⟩ ih.1, ih.2⟩
  · rintro ⟨hchain, hend⟩
    induction hchain using Relation.ReflTransGen.head_induction_on with
    | refl => exact hend.elim .stop .loop
    | head hab _ ih => exact .step hab.1 hab.2 ih

theorem Leads.of_chain (h : Leads r a t) (hab : Relation.ReflTransGen (Step r) a b) :
    Leads r b t := by
  induction hab with
  | refl => exact h
  | tail _ hstep ih =>
    cases ih with
    | stop hnone => cases hnone.symm.trans hstep.1
    | loop hloop =>
      cases hloop.symm.trans hstep.1
      exact absurd rfl hstep.2
    | step hnext _ hrest =>
      cases hnext.symm.trans hstep.1
      exact hrest

/-- The chain from `a` comes to a cycle of two names or more. -/
def Cycles (r : Redirects α) (a : α) : Prop :=
  ∃ b c, Relation.ReflTransGen (Step r) a b ∧ Step r b c ∧ Relation.ReflTransGen (Step r) c b

theorem Leads.not_cycles (h : Leads r a t) : ¬Cycles r a := by
  rintro ⟨b, c, hab, hbc, hcb⟩
  exact (h.of_chain hab).not_cycle hbc hcb

/-- **What is visited leads to where the chain is.** -/
def Trail (r : Redirects α) (visited : List α) (a : α) : Prop :=
  a ∈ visited ∧ ∀ v ∈ visited, Relation.ReflTransGen (Step r) v a

theorem trail_start (a : α) : Trail r [a] a :=
  ⟨List.mem_singleton_self a, fun _ hv => List.mem_singleton.mp hv ▸ Relation.ReflTransGen.refl⟩

theorem Trail.cons (h : Trail r visited a) (hab : r.next a = some b) (hb : b ∉ visited) :
    Trail r (b :: visited) b := by
  have hne : b ≠ a := fun heq => hb (heq ▸ h.1)
  refine ⟨List.mem_cons_self, fun v hv => ?_⟩
  rcases List.mem_cons.mp hv with rfl | hv
  · exact Relation.ReflTransGen.refl
  · exact (h.2 v hv).tail ⟨hab, hne⟩

variable [DecidableEq α]

theorem chase_of_none (h : r.next a = none) : chase r visited a = .stop a := by
  rw [chase]
  split
  · rfl
  · rename_i b hb
    cases h.symm.trans hb

theorem chase_of_not_mem (h : r.next a = some b) (hb : b ∉ visited) :
    chase r visited a = chase r (b :: visited) b := by
  rw [chase]
  split
  · rename_i hnone
    cases h.symm.trans hnone
  · rename_i b' hb'
    cases h.symm.trans hb'
    rw [dif_neg hb]

theorem chase_of_mem (h : r.next a = some b) (hb : b ∈ visited) :
    chase r visited a = if b = a then .loop a else .cycle := by
  rw [chase]
  split
  · rename_i hnone
    cases h.symm.trans hnone
  · rename_i b' hb'
    cases h.symm.trans hb'
    rw [dif_pos hb]

omit [DecidableEq α] in
/-- A name that was visited, and is not the last one, is in a cycle. -/
theorem Trail.cycles (h : Trail r visited a) (hab : r.next a = some b) (hne : b ≠ a)
    (hb : b ∈ visited) : Cycles r a :=
  ⟨a, b, .refl, ⟨hab, hne⟩, h.2 b hb⟩

/-- **A chain is followed to its end**: where it stops or loops it leads there, and where a cycle
is found there is one. -/
theorem chase_cases (h : Trail r visited a) : match chase r visited a with
    | .stop t => Leads r a t ∧ r.next t = none
    | .loop t => Leads r a t ∧ r.next t = some t
    | .cycle => Cycles r a := by
  induction visited, a using chase.induct (r := r) with
  | case1 visited a hnone =>
    rw [chase_of_none hnone]
    exact ⟨.stop hnone, hnone⟩
  | case2 visited a hmem hab =>
    rw [chase_of_mem hab hmem, if_pos rfl]
    exact ⟨.loop hab, hab⟩
  | case3 visited a b hab hmem hba =>
    rw [chase_of_mem hab hmem, if_neg hba]
    exact h.cycles hab hba hmem
  | case4 visited a b hab hmem ih =>
    have hne : b ≠ a := fun heq => hmem (heq ▸ h.1)
    have hrest := ih (h.cons hab hmem)
    rw [chase_of_not_mem hab hmem]
    cases hchase : chase r (b :: visited) b with
    | stop t =>
      rw [hchase] at hrest
      exact ⟨.step hab hne hrest.1, hrest.2⟩
    | loop t =>
      rw [hchase] at hrest
      exact ⟨.step hab hne hrest.1, hrest.2⟩
    | cycle =>
      rw [hchase] at hrest
      obtain ⟨c, d, hbc, hcd, hdc⟩ := hrest
      exact ⟨c, d, .head ⟨hab, hne⟩ hbc, hcd, hdc⟩

theorem chase_spec (h : Trail r visited a) : match chase r visited a with
    | .stop t => Leads r a t ∧ r.next t = none
    | .loop t => Leads r a t ∧ r.next t = some t
    | .cycle => ∀ t, ¬Leads r a t := by
  have hspec := chase_cases h
  cases hchase : chase r visited a with
  | stop t =>
    rw [hchase] at hspec
    exact hspec
  | loop t =>
    rw [hchase] at hspec
    exact hspec
  | cycle =>
    rw [hchase] at hspec
    exact fun t ht => ht.not_cycles hspec

end Chain
