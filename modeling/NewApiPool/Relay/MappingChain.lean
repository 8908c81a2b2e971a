import NewApiPool.Relay.ModelMapping

/-!
# Where a model mapping leads

For a request whose response is not a compact one, `ModelMappedHelper` follows the redirections of
the channel's map from the model that was asked for. It returns an error exactly if they come to a
cycle of two models or more, and else the upstream model is the last one of the chain
(`NewApiPool.Relay.modelMappedHelper_chain`). The loop itself is total
(`Chain.chase`), as every round visits another model of the map.
-/

namespace NewApiPool.Relay

open Chain

variable {m : ModelMap} {a t : String}

/-- **The last model of the chain**: one that is not mapped, is mapped to the empty name, or to
itself. -/
def LastModel (m : ModelMap) (origin t : String) : Prop :=
  Relation.ReflTransGen (Step m.redirects) origin t ∧
    (m.lookup t = none ∨ m.lookup t = some "" ∨ m.lookup t = some t)

theorem ModelMap.next_eq_none_iff : m.redirects.next t = none ↔
    m.lookup t = none ∨ m.lookup t = some "" := by
  rw [ModelMap.redirects, Option.filter_eq_none_iff]
  cases h : m.lookup t with
  | none => simp
  | some b => simp

theorem ModelMap.next_eq_self_iff : m.redirects.next t = some t ↔ m.lookup t = some t ∧ t ≠ "" := by
  rw [ModelMap.redirects, Option.filter_eq_some_iff, decide_eq_true_eq]

theorem lastModel_iff : LastModel m a t ↔ Leads m.redirects a t := by
  rw [LastModel, leads_iff, ModelMap.next_eq_none_iff, ModelMap.next_eq_self_iff, or_assoc]
  refine and_congr_right fun _ => or_congr_right ?_
  by_cases ht : t = ""
  · subst ht
    simp
  · exact or_congr_right (and_iff_left ht).symm

namespace ModelInfo

variable {info : ModelInfo}

/-- **What the helper leaves of an ordinary request**: an error in a cycle, else the end of the
chain. -/
theorem modelMappedHelper_cases (info : ModelInfo) (m : ModelMap) :
    (Cycles m.redirects info.originModelName ∧
      (info.initChannelMeta.modelMappedHelper false (some m)).1 =
        some "model_mapping_contains_cycle") ∨
    ∃ t, Leads m.redirects info.originModelName t ∧
      (info.initChannelMeta.modelMappedHelper false (some m)).1 = none ∧
      (info.initChannelMeta.modelMappedHelper false (some m)).2 =
        ⟨info.originModelName, t, decide (t ≠ info.originModelName), t⟩ := by
  have hspec := chase_cases (trail_start (r := m.redirects) info.originModelName)
  have hstart : mappingModelName false info.initChannelMeta.originModelName =
      info.originModelName := rfl
  rw [modelMappedHelper, hstart]
  cases hchase : chase m.redirects [info.originModelName] info.originModelName with
  | cycle =>
    rw [hchase] at hspec
    exact Or.inl ⟨hspec, rfl⟩
  | loop t =>
    rw [hchase] at hspec
    refine Or.inr ⟨t, hspec.1, ?_⟩
    dsimp only
    by_cases ht : t = info.initChannelMeta.originModelName
    · rw [if_pos ht]
      obtain rfl : t = info.originModelName := ht
      exact ⟨rfl, by simp [initChannelMeta]⟩
    · rw [if_neg ht]
      have hne : t ≠ info.originModelName := ht
      exact ⟨rfl, by simp [finish, initChannelMeta, hne]⟩
  | stop t =>
    rw [hchase] at hspec
    refine Or.inr ⟨t, hspec.1, rfl, ?_⟩
    dsimp only
    by_cases ht : t = info.originModelName
    · rw [if_pos ht]
      simp [finish, initChannelMeta, ht]
    · rw [if_neg ht]
      simp [finish, initChannelMeta, ht]

end ModelInfo

/-- **The mapping follows the chain**: the helper returns the error exactly if the chain from the
model comes to a cycle of two models or more; else the chain has one last model, this is the
upstream model, and the model is mapped exactly if it is another one. -/
theorem modelMappedHelper_chain (info : ModelInfo) (m : ModelMap) :
    ((info.initChannelMeta.modelMappedHelper false (some m)).1 =
        some "model_mapping_contains_cycle" ↔ Cycles m.redirects info.originModelName) ∧
    (¬Cycles m.redirects info.originModelName →
      (info.initChannelMeta.modelMappedHelper false (some m)).1 = none ∧
      (∀ t, LastModel m info.originModelName t ↔
        t = (info.initChannelMeta.modelMappedHelper false (some m)).2.upstreamModelName) ∧
      ((info.initChannelMeta.modelMappedHelper false (some m)).2.isModelMapped = true ↔
        (info.initChannelMeta.modelMappedHelper false (some m)).2.upstreamModelName ≠
          info.originModelName)) := by
  rcases info.modelMappedHelper_cases m with ⟨hcycle, herror⟩ | ⟨t, hleads, hnone, hinfo⟩
  · exact ⟨iff_of_true herror hcycle, fun hnot => absurd hcycle hnot⟩
  · rw [hnone, hinfo]
    refine ⟨iff_of_false (Option.some_ne_none _).symm hleads.not_cycles, fun _ => ⟨rfl, ?_, ?_⟩⟩
    · exact fun t' => lastModel_iff.trans
        ⟨fun h => h.unique hleads, fun h => h ▸ hleads⟩
    · exact decide_eq_true_iff

end NewApiPool.Relay
