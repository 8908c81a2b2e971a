import Mathlib.Data.List.AList
import Mathlib.Data.Set.BooleanAlgebra
import Mathlib.Data.Set.Disjoint
import Mathlib.Order.CompletePartialOrder
import NewApiPool.Lib.GoText

/-!
# The models of a channel and those of its upstream

A job compares the models of a channel with those that the upstream offers, and proposes which to
add and which to remove. What is ignored, or a target of the channel's model mapping, is not added,
and what is a source of the mapping is not removed. Both lists may then be applied.

As sets of names this settles in one step: after both lists are applied there is nothing left to
propose (`NewApiPool.UpstreamModels.Plan.additions_applied`,
`NewApiPool.UpstreamModels.Plan.removals_applied`). The lists of the code are these sets, without
surrounding white space and without repetitions
(`NewApiPool.UpstreamModels.collect_applied`).
-/

namespace NewApiPool.UpstreamModels

open GoText

/-! ### Sets of models -/

/-- What a plan depends on, the local models apart. -/
structure Plan (α : Type*) where
  upstream : Set α
  ignored : Set α
  sources : Set α
  targets : Set α

namespace Plan

variable {α : Type*} (P : Plan α) (present : Set α)

def additions : Set α := P.upstream \ (present ∪ P.targets ∪ P.ignored)

def removals : Set α := present \ (P.sources ∪ P.upstream)

/-- The local models after the changes; what is both added and removed is added. -/
def applied (present add remove : Set α) : Set α := (present ∪ add) \ (remove \ add)

theorem disjoint_additions_removals : Disjoint (P.additions present) (P.removals present) :=
  Set.disjoint_left.2 fun _ hadd hremove => hremove.2 (Or.inr hadd.1)

/-- **After the changes there is nothing to add**: what was local and is offered has stayed. -/
theorem additions_applied :
    P.additions (applied present (P.additions present) (P.removals present)) = ∅ := by
  refine Set.eq_empty_of_forall_notMem fun m ⟨hup, hnot⟩ => hnot (Or.inl (Or.inl ?_))
  by_cases hlocal : m ∈ present
  · exact ⟨Or.inl hlocal, fun h => h.1.2 (Or.inr hup)⟩
  · have hadd : m ∈ P.additions present := by
      refine ⟨hup, ?_⟩
      rintro ((h | h) | h)
      · exact hlocal h
      · exact hnot (Or.inl (Or.inr h))
      · exact hnot (Or.inr h)
    exact ⟨Or.inr hadd, fun h => h.2 hadd⟩

/-- **After the changes there is nothing to remove.** -/
theorem removals_applied :
    P.removals (applied present (P.additions present) (P.removals present)) = ∅ := by
  refine Set.eq_empty_of_forall_notMem ?_
  rintro m ⟨⟨hlocal | hadd, hkept⟩, hnot⟩
  · have hremove : m ∈ P.removals present := ⟨hlocal, hnot⟩
    exact hkept ⟨hremove, fun hadd => hnot (Or.inr hadd.1)⟩
  · exact hnot (Or.inr hadd.1)

end Plan

/-! ### Lists of names -/

/-- `lo.Uniq` of the trimmed names that are not empty. -/
def normalizeModelNames (models : List String) : List String :=
  ((models.map trimSpace).filter (· ≠ "")).eraseDups

def mergeModelNames (base appended : List String) : List String :=
  (normalizeModelNames appended).foldl
    (fun merged model => if model ∈ merged then merged else merged ++ [model])
    (normalizeModelNames base)

def subtractModelNames (base removed : List String) : List String :=
  (normalizeModelNames base).filter (· ∉ normalizeModelNames removed)

/-- Add wins when the same model appears in both selected lists. -/
def applySelectedModelChanges (originModels addModels removeModels : List String) : List String :=
  let normalizedAdd := normalizeModelNames addModels
  let normalizedRemove := subtractModelNames (normalizeModelNames removeModels) normalizedAdd
  subtractModelNames (mergeModelNames originModels normalizedAdd) normalizedRemove

/-- `regexp.MatchString`: whether a text matches, if the expression is one. -/
abbrev MatchString : Type := String → String → Option Bool

/-- Whether a model is ignored by one entry of the list. -/
def ignores (matchString : MatchString) (ignoredModel modelName : String) : Bool :=
  if startsWith ignoredModel "regex:" then
    matchString (trimSpace (String.ofList (ignoredModel.toList.drop 6))) modelName = some true
  else ignoredModel = modelName

/-- `collectPendingUpstreamModelChangesFromModels`: the models to add, and those to remove. -/
def collectPendingUpstreamModelChangesFromModels (matchString : MatchString)
    (localModels upstreamModels ignoredModels : List String)
    (modelMapping : AList fun _ : String => String) : List String × List String :=
  let localSet := normalizeModelNames localModels
  let upstreamSet := normalizeModelNames upstreamModels
  let redirectTargetSet := modelMapping.entries.map Sigma.snd
  let pendingAdd := upstreamSet.filter fun modelName =>
    decide (modelName ∉ localSet ∧ modelName ∉ redirectTargetSet) &&
      !(normalizeModelNames ignoredModels).any fun ignoredModel =>
        ignores matchString ignoredModel modelName
  let pendingRemove := localSet.filter fun modelName =>
    decide (modelName ∉ modelMapping.keys ∧ modelName ∉ upstreamSet)
  (normalizeModelNames pendingAdd, normalizeModelNames pendingRemove)

/-! ### The lists as sets -/

variable {m : String} {models : List String}

/-- A list of names as a set: without white space around them, and without the empty name. -/
def names (models : List String) : Set String :=
  {m | m ≠ "" ∧ ∃ model ∈ models, trimSpace model = m}

@[simp] theorem mem_normalizeModelNames : m ∈ normalizeModelNames models ↔ m ∈ names models := by
  rw [normalizeModelNames, List.mem_eraseDups, List.mem_filter, List.mem_map, decide_eq_true_eq]
  exact and_comm

theorem trimSpace_of_mem_names (h : m ∈ names models) : trimSpace m = m := by
  obtain ⟨-, model, -, rfl⟩ := h
  exact trimSpace_trimSpace model

theorem mem_names_of_forall (h : ∀ model ∈ models, trimSpace model = model ∧ model ≠ "") :
    m ∈ names models ↔ m ∈ models := by
  constructor
  · rintro ⟨-, model, hmem, rfl⟩
    rwa [(h model hmem).1]
  · exact fun hmem => ⟨(h m hmem).2, m, hmem, (h m hmem).1⟩

theorem normal_of_mem_names (h : m ∈ names models) : trimSpace m = m ∧ m ≠ "" :=
  ⟨trimSpace_of_mem_names h, h.1⟩

theorem mem_names_filter (p : String → Bool) :
    m ∈ names ((normalizeModelNames models).filter p) ↔ m ∈ names models ∧ p m = true := by
  rw [mem_names_of_forall fun model h =>
    normal_of_mem_names (mem_normalizeModelNames.1 (List.mem_filter.1 h).1), List.mem_filter,
    mem_normalizeModelNames]

@[simp] theorem names_normalizeModelNames : names (normalizeModelNames models) = names models :=
  Set.ext fun _ => (mem_names_of_forall fun _ h =>
    normal_of_mem_names (mem_normalizeModelNames.1 h)).trans mem_normalizeModelNames

theorem names_subtractModelNames (removed : List String) :
    names (subtractModelNames models removed) = names models \ names removed := by
  refine Set.ext fun m => (mem_names_filter _).trans ?_
  rw [decide_eq_true_eq, mem_normalizeModelNames]
  exact Iff.rfl

theorem mem_foldl_merge {merged appended : List String} :
    m ∈ appended.foldl (fun merged model => if model ∈ merged then merged else merged ++ [model])
      merged ↔ m ∈ merged ∨ m ∈ appended := by
  induction appended generalizing merged with
  | nil => simp
  | cons model appended ih =>
    rw [List.foldl_cons, ih, List.mem_cons, ← or_assoc]
    refine or_congr_left ?_
    by_cases hmem : model ∈ merged
    · rw [if_pos hmem]
      exact ⟨Or.inl, fun h => h.elim id fun heq => heq ▸ hmem⟩
    · rw [if_neg hmem, List.mem_append, List.mem_singleton]

theorem names_mergeModelNames (base appended : List String) :
    names (mergeModelNames base appended) = names base ∪ names appended := by
  have hmem (m : String) : m ∈ mergeModelNames base appended ↔ m ∈ names base ∪ names appended := by
    rw [mergeModelNames, mem_foldl_merge, mem_normalizeModelNames, mem_normalizeModelNames]
    exact Iff.rfl
  refine Set.ext fun m => (mem_names_of_forall fun model h => ?_).trans (hmem m)
  exact ((hmem model).1 h).elim normal_of_mem_names normal_of_mem_names

/-- **What is applied**: the models of the channel without those to remove, and then those to add
that are not there. -/
theorem names_applySelectedModelChanges (originModels addModels removeModels : List String) :
    names (applySelectedModelChanges originModels addModels removeModels) =
      Plan.applied (names originModels) (names addModels) (names removeModels) := by
  rw [applySelectedModelChanges, names_subtractModelNames, names_subtractModelNames,
    names_mergeModelNames]
  simp only [names_normalizeModelNames]
  rfl

/-! ### What is proposed -/

variable (matchString : MatchString) (localModels upstreamModels ignoredModels : List String)
  (modelMapping : AList fun _ : String => String)

/-- The models that an entry of the list ignores. -/
def Ignored (m : String) : Prop :=
  ∃ ignoredModel ∈ names ignoredModels, ignores matchString ignoredModel m = true

/-- The plan of the job. -/
def plan : Plan String where
  upstream := names upstreamModels
  ignored := {m | Ignored matchString ignoredModels m}
  sources := {m | m ∈ modelMapping}
  targets := {m | ∃ source, modelMapping.lookup source = some m}

theorem mem_targets : m ∈ modelMapping.entries.map Sigma.snd ↔
    ∃ source, modelMapping.lookup source = some m := by
  rw [List.mem_map]
  constructor
  · rintro ⟨⟨source, target⟩, hmem, rfl⟩
    exact ⟨source, AList.mem_lookup_iff.2 hmem⟩
  · rintro ⟨source, h⟩
    exact ⟨⟨source, m⟩, AList.mem_lookup_iff.1 h, rfl⟩

theorem mem_add_iff : m ∈ (collectPendingUpstreamModelChangesFromModels matchString localModels
    upstreamModels ignoredModels modelMapping).1 ↔
      m ∈ (plan matchString upstreamModels ignoredModels modelMapping).additions
        (names localModels) := by
  have hignored : Ignored matchString ignoredModels m ↔
      (normalizeModelNames ignoredModels).any (fun i => ignores matchString i m) = true := by
    rw [List.any_eq_true]
    exact exists_congr fun _ => and_congr_left' mem_normalizeModelNames.symm
  rw [collectPendingUpstreamModelChangesFromModels, mem_normalizeModelNames, mem_names_filter,
    Bool.and_eq_true, decide_eq_true_eq, Bool.not_eq_true', ← Bool.not_eq_true, ← hignored,
    mem_normalizeModelNames, mem_targets, ← not_or, ← not_or]
  exact Iff.rfl

theorem mem_remove_iff : m ∈ (collectPendingUpstreamModelChangesFromModels matchString localModels
    upstreamModels ignoredModels modelMapping).2 ↔
      m ∈ (plan matchString upstreamModels ignoredModels modelMapping).removals
        (names localModels) := by
  rw [collectPendingUpstreamModelChangesFromModels, mem_normalizeModelNames, mem_names_filter,
    decide_eq_true_eq, mem_normalizeModelNames, ← AList.mem_keys, ← not_or]
  exact Iff.rfl

/-- What is proposed is normalised, so it is its own set of names. -/
theorem names_add : names (collectPendingUpstreamModelChangesFromModels matchString localModels
    upstreamModels ignoredModels modelMapping).1 =
      (plan matchString upstreamModels ignoredModels modelMapping).additions
        (names localModels) := by
  refine Set.ext fun m => Iff.trans ?_ (mem_add_iff matchString localModels upstreamModels _ _)
  exact mem_names_of_forall fun _ h => normal_of_mem_names (mem_normalizeModelNames.1 h)

theorem names_remove : names (collectPendingUpstreamModelChangesFromModels matchString localModels
    upstreamModels ignoredModels modelMapping).2 =
      (plan matchString upstreamModels ignoredModels modelMapping).removals
        (names localModels) := by
  refine Set.ext fun m => Iff.trans ?_ (mem_remove_iff matchString localModels upstreamModels _ _)
  exact mem_names_of_forall fun _ h => normal_of_mem_names (mem_normalizeModelNames.1 h)

/-- **The job settles in one step**: after all proposed changes are applied, nothing is proposed.
What is proposed for addition is not local, no target of the mapping, and not ignored; no source
of the mapping is removed, and no model is both added and removed. -/
theorem collect_applied :
    collectPendingUpstreamModelChangesFromModels matchString
      (applySelectedModelChanges localModels
        (collectPendingUpstreamModelChangesFromModels matchString localModels upstreamModels
          ignoredModels modelMapping).1
        (collectPendingUpstreamModelChangesFromModels matchString localModels upstreamModels
          ignoredModels modelMapping).2)
      upstreamModels ignoredModels modelMapping = ([], []) ∧
    (∀ m ∈ (collectPendingUpstreamModelChangesFromModels matchString localModels upstreamModels
        ignoredModels modelMapping).1,
      (∀ model ∈ localModels, trimSpace model ≠ m) ∧
      (∀ source target, modelMapping.lookup source = some target → target ≠ m) ∧
      ∀ ignoredModel ∈ normalizeModelNames ignoredModels,
        ignores matchString ignoredModel m = false) ∧
    (∀ m ∈ (collectPendingUpstreamModelChangesFromModels matchString localModels upstreamModels
        ignoredModels modelMapping).2, modelMapping.lookup m = none) ∧
    ∀ m ∈ (collectPendingUpstreamModelChangesFromModels matchString localModels upstreamModels
        ignoredModels modelMapping).1,
      m ∉ (collectPendingUpstreamModelChangesFromModels matchString localModels upstreamModels
        ignoredModels modelMapping).2 := by
  generalize hP : plan matchString upstreamModels ignoredModels modelMapping = P
  have happlied : names (applySelectedModelChanges localModels
      (collectPendingUpstreamModelChangesFromModels matchString localModels upstreamModels
        ignoredModels modelMapping).1
      (collectPendingUpstreamModelChangesFromModels matchString localModels upstreamModels
        ignoredModels modelMapping).2) =
      Plan.applied (names localModels) (P.additions (names localModels))
        (P.removals (names localModels)) := by
    rw [names_applySelectedModelChanges, names_add, names_remove, hP]
  refine ⟨Prod.ext ?_ ?_, fun m hm => ?_, fun m hm => ?_, fun m hadd hremove => ?_⟩
  · refine List.eq_nil_iff_forall_not_mem.2 fun m hm => ?_
    rw [mem_add_iff, happlied, hP, Plan.additions_applied] at hm
    exact hm
  · refine List.eq_nil_iff_forall_not_mem.2 fun m hm => ?_
    rw [mem_remove_iff, happlied, hP, Plan.removals_applied] at hm
    exact hm
  · have hnormal := normal_of_mem_names (mem_normalizeModelNames.1 hm)
    rw [mem_add_iff] at hm
    refine ⟨fun model hmem heq => ?_, fun source target h heq => ?_, fun ignoredModel hmem => ?_⟩
    · exact hm.2 (Or.inl (Or.inl ⟨hnormal.2, model, hmem, heq⟩))
    · exact hm.2 (Or.inl (Or.inr ⟨source, heq ▸ h⟩))
    · refine Bool.eq_false_iff.2 fun h => hm.2 (Or.inr ?_)
      exact ⟨ignoredModel, mem_normalizeModelNames.1 hmem, h⟩
  · rw [mem_remove_iff] at hm
    exact AList.lookup_eq_none.2 fun h => hm.2 (Or.inl h)
  · rw [mem_add_iff, hP] at hadd
    rw [mem_remove_iff, hP] at hremove
    exact Set.disjoint_left.1 (P.disjoint_additions_removals _) hadd hremove

end NewApiPool.UpstreamModels
