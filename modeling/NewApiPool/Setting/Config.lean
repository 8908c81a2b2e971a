import NewApiPool.Lib.GoJson

/-!
# Saving and loading the settings

`configToMap` writes the fields of a settings struct as texts, one for each field, and
`updateConfigFromMap` reads them back into a struct that has other values. A text is kept as
what it is the text of (`Stored`): what `strconv` and `encoding/json` write, they read back.

Scalars are restored whatever was there before, and maps are read into fresh ones. The fields
that are structs, slices or pointers are decoded into what is there (`updateConfigFromMap_iff`),
and an old rule can leave a part of it in a new one (`not_updateConfigFromMap`).
-/

namespace NewApiPool.Setting

open GoJson

/-! ### The settings as texts -/

/-- A text, as what it is the text of. -/
inductive Stored
  | text (s : String)
  | bool (b : Bool)
  | int (z : ℤ)
  | float (q : ℚ)
  | json (j : Json)

/-- The branches of `configToMap`, one for each kind. -/
def storeField : (t : Ty) → t.Val → Stored
  | .string, s => .text s
  | .bool, b => .bool b
  | .int, z => .int z
  | .uint, (n : ℕ) => .int n
  | .float, q => .float q
  | .map value, m => .json (Ty.marshal (.map value) m)
  | .slice elem, s => .json (Ty.marshal (.slice elem) s)
  | .struct fields, v => .json (Ty.marshal (.struct fields) v)
  | .ptr _, none => .json .null
  | .ptr target, some v => .json (target.marshal v)

/-- The branches of `updateConfigFromMap`. A text that is not read leaves the field as it is. -/
def loadField : (t : Ty) → t.Val → Stored → t.Val
  | .string, _, .text s => s
  | .bool, _, .bool b => b
  | .int, _, .int z => z
  -- the text of a float, as in "2.000000"
  | .int, _, .float q => q.num.tdiv q.den
  | .uint, old, .int z => if 0 ≤ z then z.toNat else old
  | .uint, old, .float q => if 0 ≤ q then (q.num.tdiv q.den).toNat else old
  | .float, _, .int z => (z : ℚ)
  | .float, _, .float q => q
  | .ptr _, _, .json .null => none
  | .ptr target, old, .json j => some (target.unmarshal (old.getD target.zero) j)
  -- decoded into a fresh map
  | .map value, old, .json j =>
    if Ty.accepts (.map value) j then Ty.unmarshal (.map value) none j else old
  | .slice elem, old, .json j => Ty.unmarshal (.slice elem) old j
  | .struct fields, old, .json j => Ty.unmarshal (.struct fields) old j
  | _, old, _ => old

/-- The whole tag of a field is its key, `omitempty` included. -/
def tagKey (name : String) (omitempty : Bool) : String :=
  if omitempty then name ++ ",omitempty" else name

/-- `configToMap`. Of two fields with the same key, the last one is in the map. -/
def configToMap : (fs : Fields) → fs.Val → String → Option Stored
  | .nil, _, _ => none
  | .cons name omitempty type rest, (v, vs), key =>
    (configToMap rest vs key).or
      (if key = tagKey name omitempty then some (storeField type v) else none)

def updateConfigFromMap : (fs : Fields) → fs.Val → (String → Option Stored) → fs.Val
  | .nil, _, _ => ()
  | .cons name omitempty type rest, (v, vs), configMap =>
    (match configMap (tagKey name omitempty) with
      | none => v
      | some strValue => loadField type v strValue,
      updateConfigFromMap rest vs configMap)

/-! ### What is to hold -/

/-- **What an old field has to be**: a map is read into a fresh one. -/
def FieldLoads : (t : Ty) → t.Val → t.Val → Prop
  | .map value, _, new => Ty.Restores (.map value) none new
  | t, old, new => t.Restores old new

theorem same_loadField_iff (t : Ty) (hd : t.Distinct) (old new : t.Val) :
    t.Same (loadField t old (storeField t new)) new ↔ FieldLoads t old new := by
  cases t with
  | string => exact iff_of_true rfl trivial
  | bool => exact iff_of_true rfl trivial
  | int => exact iff_of_true rfl trivial
  | uint =>
    have hload (old n : ℕ) : (if (0 : ℤ) ≤ n then (n : ℤ).toNat else old) = n := by
      rw [if_pos (Int.natCast_nonneg n), Int.toNat_natCast]
    exact iff_of_true (hload old new) trivial
  | float => exact iff_of_true rfl trivial
  | map value =>
    have hload : loadField (.map value) old (storeField (.map value) new) =
        (Ty.map value).unmarshal none ((Ty.map value).marshal new) :=
      if_pos ((Ty.map value).accepts_marshal hd new)
    rw [hload]
    exact (Ty.map value).same_unmarshal_iff hd none new
  | slice elem => exact (Ty.slice elem).same_unmarshal_iff hd old new
  | struct fields => exact (Ty.struct fields).same_unmarshal_iff hd old new
  | ptr target =>
    have hload : loadField (.ptr target) old (storeField (.ptr target) new) =
        (Ty.ptr target).unmarshal old ((Ty.ptr target).marshal new) := by
      cases new with
      | none => rfl
      | some v =>
        show loadField (.ptr target) old (.json (target.marshal v)) =
          (Ty.ptr target).unmarshal old (target.marshal v)
        cases target.marshal v <;> rfl
    rw [hload]
    exact (Ty.ptr target).same_unmarshal_iff hd old new

/-- The keys of the fields. -/
def keys : Fields → List String
  | .nil => []
  | .cons name omitempty _ rest => tagKey name omitempty :: keys rest

/-- **The fields whose keys are present are those of `new`, and the others are left alone.** -/
def Updated (present : String → Bool) : (fs : Fields) → (result old new : fs.Val) → Prop
  | .nil, _, _, _ => True
  | .cons name omitempty type rest, (r, rs), (v, vs), (v', vs') =>
    (if present (tagKey name omitempty) then type.Same r v' else r = v) ∧
      Updated present rest rs vs vs'

/-- What the old fields have to be, of those whose keys are present. -/
def Loads (present : String → Bool) : (fs : Fields) → (old new : fs.Val) → Prop
  | .nil, _, _ => True
  | .cons name omitempty type rest, (v, vs), (v', vs') =>
    (present (tagKey name omitempty) = true → FieldLoads type v v') ∧ Loads present rest vs vs'

theorem configToMap_of_not_mem {key : String} : (fs : Fields) → (v : fs.Val) → key ∉ keys fs →
    configToMap fs v key = none
  | .nil, _, _ => rfl
  | .cons name omitempty type rest, (v, vs), h => by
    obtain ⟨hne, hrest⟩ := not_or.mp (mt List.mem_cons.mpr h)
    rw [configToMap, configToMap_of_not_mem rest vs hrest, if_neg hne]
    rfl

/-- **Some of the settings are read**: those whose keys are present are restored exactly where
they can be. -/
theorem updated_iff {configMap : String → Option Stored} : (fs : Fields) → fs.Distinct →
    (keys fs).Nodup → (old new : fs.Val) →
      (∀ k ∈ keys fs, ∀ s, configMap k = some s → configToMap fs new k = some s) →
        (Updated (fun k => (configMap k).isSome) fs (updateConfigFromMap fs old configMap) old new ↔
          Loads (fun k => (configMap k).isSome) fs old new)
  | .nil, _, _, _, _, _ => Iff.rfl
  | .cons name omitempty type rest, ⟨hname, htype, hrest⟩, hkeys, (v, vs), (v', vs'), hmap => by
    obtain ⟨hkey, hkeys⟩ := List.nodup_cons.mp hkeys
    have hmapRest : ∀ k ∈ keys rest, ∀ s, configMap k = some s →
        configToMap rest vs' k = some s := by
      intro k hk s hs
      have hk' := hmap k (List.mem_cons_of_mem _ hk) s hs
      have hne : k ≠ tagKey name omitempty := fun heq => hkey (heq ▸ hk)
      rwa [configToMap, if_neg hne, Option.or_none] at hk'
    rw [updateConfigFromMap, Updated, Loads]
    refine and_congr ?_ (updated_iff rest hrest hkeys vs vs' hmapRest)
    cases hs : configMap (tagKey name omitempty) with
    | none => exact iff_of_true rfl nofun
    | some s =>
      have hstore := hmap _ List.mem_cons_self s hs
      rw [configToMap, configToMap_of_not_mem rest vs' hkey, if_pos rfl] at hstore
      cases hstore
      exact (same_loadField_iff type htype v v').trans ⟨fun h _ => h, fun h => h rfl⟩

theorem isSome_configToMap {key : String} : (fs : Fields) → (v : fs.Val) → key ∈ keys fs →
    (configToMap fs v key).isSome = true
  | .cons name omitempty type rest, (v, vs), h => by
    rw [configToMap]
    rcases List.mem_cons.mp h with rfl | h
    · rw [if_pos rfl]
      cases configToMap rest vs (tagKey name omitempty) <;> rfl
    · obtain ⟨s, hs⟩ := Option.isSome_iff_exists.mp (isSome_configToMap rest vs h)
      rw [hs]
      rfl

/-- Where all keys are present, all fields are those of `new`. -/
theorem updated_iff_same {present : String → Bool} : (fs : Fields) →
    (∀ k ∈ keys fs, present k = true) → (result old new : fs.Val) →
      (Updated present fs result old new ↔ fs.Same result new)
  | .nil, _, _, _, _ => Iff.rfl
  | .cons name omitempty type rest, h, (r, rs), (v, vs), (v', vs') => by
    rw [Updated, if_pos (h _ List.mem_cons_self)]
    exact and_congr_right' (updated_iff_same rest (fun k hk => h k (List.mem_cons_of_mem _ hk))
      rs vs vs')

/-- What the old settings have to be. -/
def LoadsAll (fs : Fields) (old new : fs.Val) : Prop := Loads (fun _ => true) fs old new

theorem loads_iff {present : String → Bool} : (fs : Fields) →
    (∀ k ∈ keys fs, present k = true) → (old new : fs.Val) →
      (Loads present fs old new ↔ LoadsAll fs old new)
  | .nil, _, _, _ => Iff.rfl
  | .cons name omitempty type rest, h, (v, vs), (v', vs') => by
    rw [Loads, h _ List.mem_cons_self]
    exact and_congr_right' (loads_iff rest (fun k hk => h k (List.mem_cons_of_mem _ hk)) vs vs')

/-- **Saved settings are restored over old ones exactly where they can be**: a map of all the
texts makes the old settings the new ones, and a map of some of them changes the fields whose
keys it has into the new ones, and no others. -/
theorem updateConfigFromMap_iff (fs : Fields) (hd : fs.Distinct) (hkeys : (keys fs).Nodup)
    (old new : fs.Val) :
    (fs.Same (updateConfigFromMap fs old (configToMap fs new)) new ↔ LoadsAll fs old new) ∧
    ∀ configMap : String → Option Stored,
      (∀ k s, configMap k = some s → configToMap fs new k = some s) →
        (Updated (fun k => (configMap k).isSome) fs (updateConfigFromMap fs old configMap) old new ↔
          Loads (fun k => (configMap k).isSome) fs old new) := by
  refine ⟨?_, fun configMap hmap =>
    updated_iff fs hd hkeys old new fun k _ s hs => hmap k s hs⟩
  have hpresent (k : String) (hk : k ∈ keys fs) := isSome_configToMap fs new hk
  rw [← updated_iff_same fs hpresent _ old, ← loads_iff fs hpresent]
  exact updated_iff fs hd hkeys old new fun _ _ _ hs => hs

/-! ### The rules of the channel affinity -/

/-- A part of `ChannelAffinityRule`. -/
def ruleFields : Fields :=
  .cons "name" false .string (.cons "user_agent_include" true (.slice .string) .nil)

/-- A part of `ChannelAffinitySetting`. -/
def affinityFields : Fields :=
  .cons "enabled" false .bool (.cons "rules" false (.slice (.struct ruleFields)) .nil)

theorem affinityFields_distinct : affinityFields.Distinct :=
  ⟨by decide, trivial, by decide, ⟨by decide, trivial, by decide, trivial, trivial⟩, trivial⟩

/-- A setting with one rule. -/
def oneRule (name : String) (userAgentInclude : Option (Slice String)) : affinityFields.Val :=
  (true, some ⟨[(name, userAgentInclude, ())], []⟩, ())

/-- A rule that names the agents over one that does not. -/
theorem updateConfigFromMap_oneRule : affinityFields.Same
    (updateConfigFromMap affinityFields (oneRule "codex" none)
      (configToMap affinityFields (oneRule "claude" (some ⟨["claude-cli"], []⟩))))
    (oneRule "claude" (some ⟨["claude-cli"], []⟩)) := by
  refine (updateConfigFromMap_iff affinityFields affinityFields_distinct (by decide) _ _).1.mpr
    ⟨fun _ => trivial, fun _ i v hv => ?_, trivial⟩
  cases i with
  | zero =>
    cases hv
    exact ⟨trivial, fun _ _ _ => trivial, trivial⟩
  | succ i => cases hv

/-- A rule that names no agents over one that does keeps them. -/
theorem not_updateConfigFromMap : ¬affinityFields.Same
    (updateConfigFromMap affinityFields (oneRule "claude" (some ⟨["claude-cli"], []⟩))
      (configToMap affinityFields (oneRule "codex" none)))
    (oneRule "codex" none) := by
  rintro ⟨-, hrules, -⟩
  have hrule := Ty.same_slice.mp hrules
  cases hrule with
  | cons hrule _ =>
    obtain ⟨-, hagents, -⟩ := hrule
    cases hagents

end NewApiPool.Setting
