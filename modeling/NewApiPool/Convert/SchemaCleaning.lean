import NewApiPool.Lib.GoText
import NewApiPool.Lib.Json

/-!
# Function schemas for Gemini

`cleanFunctionParameters` takes from the schema of a function what Gemini does not know. At each
schema it keeps the allowed fields, makes one name of the type, and goes into the properties, the
items and the alternatives; of a list of items it keeps the first. At the greatest depth it does not
go on, and drops these three.

What it returns is a normal form if the types are names or lists and the items are a schema, or a
list that starts with one (`normalForm_clean_iff`). It stays as it is when it is cleaned again if no
items are a list that starts with a list that is not empty (`clean_clean_iff`). Other types and
items are left as they are.
-/

namespace NewApiPool.Convert.SchemaCleaning

open JsonDoc

variable {ν : Type}

/-- The fields of a schema. -/
abbrev Fields (ν : Type) := List (String × Doc ν)

def allowedFields : List String :=
  ["anyOf", "default", "description", "enum", "example", "format", "items", "maxItems", "maxLength",
    "maxProperties", "maximum", "minItems", "minLength", "minProperties", "minimum", "nullable",
    "pattern", "properties", "propertyOrdering", "required", "title", "type"]

/-- The fields that are allowed. -/
def keepAllowed (schema : Fields ν) : Fields ν :=
  schema.filter fun field => field.1 ∈ allowedFields

/-! ### Single fields -/

/-- `schema[name] = value` -/
def setField (name : String) (value : Doc ν) (schema : Fields ν) : Fields ν :=
  if name ∈ schema.map Prod.fst then
    schema.map fun field => if field.1 = name then (name, value) else field
  else schema ++ [(name, value)]

/-- `delete(schema, name)` -/
def deleteField (name : String) (schema : Fields ν) : Fields ν :=
  schema.filter fun field => field.1 ≠ name

/-! ### Types -/

/-- The names of types, and how Gemini writes them. -/
def typeNames : List (String × String) :=
  [("object", "OBJECT"), ("array", "ARRAY"), ("string", "STRING"), ("integer", "INTEGER"),
    ("number", "NUMBER"), ("boolean", "BOOLEAN")]

/-- `normalize`: the name of a type as Gemini writes it, none for `null`. -/
def normalize (t : String) : Option String :=
  let name := GoText.toLower (GoText.trimSpace t)
  if name = "null" then none else some ((typeNames.lookup name).getD t)

/-- The names in a list of types; other values are passed over. -/
def namesOf (types : List (Doc ν)) : List (Option String) :=
  types.filterMap fun item =>
    match item with
    | .str s => some (normalize s)
    | _ => none

/-- **`normalizeGeminiSchemaTypeAndNullable`**: of a list the first name that is not empty. -/
def normalizeTypeAndNullable (schema : Fields ν) : Fields ν :=
  match schema.lookup "type" with
  | some (.str t) =>
    match normalize t with
    | none => deleteField "type" (setField "nullable" (.bool true) schema)
    | some normalized => setField "type" (.str normalized) schema
  | some (.arr types) =>
    let names := namesOf types
    let schema' := if none ∈ names then setField "nullable" (.bool true) schema else schema
    match (names.filterMap id).find? (· ≠ "") with
    | some chosen => setField "type" (.str chosen) schema'
    | none => deleteField "type" schema'
  | _ => schema

/-! ### Cleaning -/

/-- What becomes of the properties. -/
def cleanProperties (clean : Doc ν → Doc ν) : Doc ν → Doc ν
  | .obj props => .obj (props.map fun prop => (prop.1, clean prop.2))
  | value => value

/-- What becomes of the items: of a list, the first is kept. -/
def cleanItems (clean : Doc ν → Doc ν) : Doc ν → Doc ν
  | .obj schema => clean (.obj schema)
  | .arr (first :: _) => clean first
  | value => value

/-- What becomes of the alternatives. -/
def cleanAnyOf (clean : Doc ν → Doc ν) : Doc ν → Doc ν
  | .arr nested => .arr (nested.map clean)
  | value => value

/-- What becomes of the value of a field. -/
def cleanField (clean : Doc ν → Doc ν) (name : String) : Doc ν → Doc ν :=
  if name = "properties" then cleanProperties clean
  else if name = "items" then cleanItems clean
  else if name = "anyOf" then cleanAnyOf clean
  else id

def cleanFunctionParametersShallow : Doc ν → Doc ν
  | .obj schema =>
    .obj (deleteField "anyOf" (deleteField "items" (deleteField "properties"
      (normalizeTypeAndNullable (keepAllowed schema)))))
  | .arr _ => .arr []
  | params => params

/-- **`cleanFunctionParametersWithDepth`**, with the depth that is left. -/
def cleanFunctionParametersWithDepth : ℕ → Doc ν → Doc ν
  | 0, params => cleanFunctionParametersShallow params
  | depth + 1, .obj schema =>
    .obj ((normalizeTypeAndNullable (keepAllowed schema)).map fun field =>
      (field.1, cleanField (cleanFunctionParametersWithDepth depth) field.1 field.2))
  | depth + 1, .arr schemas => .arr (schemas.map (cleanFunctionParametersWithDepth depth))
  | _ + 1, params => params

def geminiFunctionSchemaMaxDepth : ℕ := 64

def cleanFunctionParameters (params : Doc ν) : Doc ν :=
  cleanFunctionParametersWithDepth geminiFunctionSchemaMaxDepth params

/-! ### The normal form -/

/-- The schemas in a field. -/
def nodesOf (field : String × Doc ν) : List (Doc ν) :=
  if field.1 = "properties" then
    match field.2 with
    | .obj props => props.map Prod.snd
    | _ => []
  else if field.1 = "items" then [field.2]
  else if field.1 = "anyOf" then
    match field.2 with
    | .arr nested => nested
    | _ => []
  else []

/-- The schemas of a value: itself, and those of its properties, items and alternatives. -/
inductive SchemaNode : Doc ν → Doc ν → Prop
  | root (node : Doc ν) : SchemaNode node node
  | field {schema : Fields ν} {field : String × Doc ν} {sub node : Doc ν} (hfield : field ∈ schema)
      (hsub : sub ∈ nodesOf field) (hnode : SchemaNode sub node) : SchemaNode (.obj schema) node

/-- A value is an object. -/
def IsObject : Doc ν → Prop
  | .obj _ => True
  | _ => False

/-- **The fields of a schema are in the form that Gemini takes.** -/
structure NormalFields (schema : Fields ν) : Prop where
  allowed : ∀ field ∈ schema, field.1 ∈ allowedFields
  type : ∀ field ∈ schema, field.1 = "type" → ∃ t, field.2 = .str t ∧
    ∀ name ∈ typeNames, GoText.toLower (GoText.trimSpace t) = name.1 → t = name.2
  items : ∀ field ∈ schema, field.1 = "items" → IsObject field.2

/-- **Every schema of the value** that is an object is in that form. -/
def NormalForm (value : Doc ν) : Prop :=
  ∀ schema, SchemaNode value (.obj schema) → NormalFields schema

theorem normalForm_of_not_isObject {value : Doc ν} (h : ¬IsObject value) : NormalForm value := by
  rintro schema hnode
  cases hnode with
  | root => exact absurd trivial h
  | field => exact absurd trivial h

theorem normalForm_obj_iff (schema : Fields ν) :
    NormalForm (.obj schema) ↔
      NormalFields schema ∧ ∀ field ∈ schema, ∀ sub ∈ nodesOf field, NormalForm sub := by
  refine ⟨fun h => ⟨h schema (.root _), fun field hfield sub hsub schema' hnode =>
    h schema' (.field hfield hsub hnode)⟩, fun ⟨hfields, hsub⟩ schema' hnode => ?_⟩
  cases hnode with
  | root => exact hfields
  | field hfield hmem hnode => exact hsub _ hfield _ hmem schema' hnode

/-! ### The type of a schema -/

section Types

variable {schema : Fields ν} {field : String × Doc ν} {name t u : String} {value : Doc ν}

theorem mem_setField (h : field ∈ setField name value schema) :
    field = (name, value) ∨ field ∈ schema ∧ field.1 ≠ name := by
  rw [setField] at h
  split_ifs at h with hname
  · obtain ⟨field', hfield, rfl⟩ := List.mem_map.1 h
    split_ifs with heq
    · exact .inl rfl
    · exact .inr ⟨hfield, heq⟩
  · rcases List.mem_append.1 h with hfield | hfield
    · exact .inr ⟨hfield, fun heq => hname (heq ▸ List.mem_map_of_mem hfield)⟩
    · exact .inl (List.mem_singleton.1 hfield)

theorem mem_setField_of_ne (hne : field.1 ≠ name) :
    field ∈ setField name value schema ↔ field ∈ schema := by
  refine ⟨fun h => ?_, fun h => ?_⟩
  · rcases mem_setField h with rfl | hfield
    · exact absurd rfl hne
    · exact hfield.1
  · rw [setField]
    split_ifs with hname
    · exact List.mem_map.2 ⟨field, h, if_neg hne⟩
    · exact List.mem_append_left _ h

theorem mem_deleteField : field ∈ deleteField name schema ↔ field ∈ schema ∧ field.1 ≠ name := by
  simp [deleteField]

theorem mem_keepAllowed :
    field ∈ keepAllowed schema ↔ field ∈ schema ∧ field.1 ∈ allowedFields := by
  simp [keepAllowed]

theorem normalize_of_mem (h : (t, u) ∈ typeNames) : normalize u = some u := by
  have hall : ∀ name ∈ typeNames, normalize name.2 = some name.2 := by decide
  exact hall (t, u) h

/-- Names stay as they are when they are written again. -/
theorem normalize_of_normalize (h : normalize t = some u) : normalize u = some u := by
  have hstep := h
  rw [normalize] at h
  split_ifs at h with hnull
  cases hname : typeNames.lookup (GoText.toLower (GoText.trimSpace t)) with
  | none =>
    rw [hname, Option.getD_none] at h
    obtain rfl := Option.some.inj h
    exact hstep
  | some entry =>
    rw [hname, Option.getD_some] at h
    obtain rfl := Option.some.inj h
    obtain ⟨before, after, htypes, -⟩ := List.lookup_eq_some_iff.1 hname
    have hmem : (GoText.toLower (GoText.trimSpace t), entry) ∈ typeNames := by
      rw [htypes]
      exact List.mem_append_right _ List.mem_cons_self
    exact normalize_of_mem hmem

/-- A name that stays as it is, is no other writing of a type. -/
theorem eq_of_normalize (h : normalize t = some t) :
    ∀ name ∈ typeNames, GoText.toLower (GoText.trimSpace t) = name.1 → t = name.2 := by
  rintro name hname hlower
  have hlookup : ∀ name ∈ typeNames, name.1 ≠ "null" ∧ typeNames.lookup name.1 = some name.2 := by
    decide
  rw [normalize, hlower, if_neg (hlookup name hname).1, (hlookup name hname).2] at h
  exact (Option.some.inj h).symm

/-- The type is a name, a list, or not there. -/
def TypeTaken (schema : Fields ν) : Prop :=
  ∀ value, schema.lookup "type" = some value → (∃ t, value = .str t) ∨ ∃ types, value = .arr types

/-- **The type is one name** as Gemini writes it, or there is none. -/
def TypeNormal (schema : Fields ν) : Prop :=
  ∃ t, normalize t = some t ∧ ∀ value, ("type", value) ∈ schema → value = .str t

theorem typeNormal_deleteField (schema : Fields ν) : TypeNormal (deleteField "type" schema) :=
  ⟨"OBJECT", by decide, fun _ h => absurd rfl (mem_deleteField.1 h).2⟩

theorem typeNormal_setField (h : normalize t = some u) (schema : Fields ν) :
    TypeNormal (setField "type" (.str u) schema) := by
  refine ⟨u, normalize_of_normalize h, fun value hmem => ?_⟩
  rcases mem_setField hmem with heq | hne
  · exact (Prod.mk.inj heq).2
  · exact absurd rfl hne.2

/-- A name in a list of types is written as Gemini does. -/
theorem exists_normalize_of_mem {types : List (Doc ν)} (h : some u ∈ namesOf types) :
    ∃ t, normalize t = some u := by
  obtain ⟨item, -, hitem⟩ := List.mem_filterMap.1 h
  split at hitem
  · exact ⟨_, Option.some.inj hitem⟩
  · exact absurd hitem (Option.some_ne_none _).symm

/-- **A type that is taken** becomes one name. -/
theorem typeNormal_normalize (h : TypeTaken schema) :
    TypeNormal (normalizeTypeAndNullable schema) := by
  rw [normalizeTypeAndNullable]
  cases hlookup : schema.lookup "type" with
  | none =>
    refine ⟨"OBJECT", by decide, fun value hmem => absurd ?_ (lookup_eq_none_iff.1 hlookup)⟩
    exact List.mem_map_of_mem hmem
  | some value =>
    rcases h value hlookup with ⟨t, rfl⟩ | ⟨types, rfl⟩
    · cases hname : normalize t with
      | none => simpa only [hname] using typeNormal_deleteField _
      | some u => simpa only [hname] using typeNormal_setField hname _
    · cases hchosen : ((namesOf types).filterMap id).find? (· ≠ "") with
      | none => simpa only [hchosen] using typeNormal_deleteField _
      | some u =>
        obtain ⟨_, hmem, rfl⟩ := List.mem_filterMap.1 (List.mem_of_find?_eq_some hchosen)
        obtain ⟨t, ht⟩ := exists_normalize_of_mem hmem
        simpa only [hchosen] using typeNormal_setField ht _

theorem normalize_of_not_typeTaken (h : ¬TypeTaken schema) :
    normalizeTypeAndNullable schema = schema := by
  rw [TypeTaken] at h
  push Not at h
  obtain ⟨value, hlookup, hstr, harr⟩ := h
  rw [normalizeTypeAndNullable, hlookup]
  cases value with
  | str t => exact absurd rfl (hstr t)
  | arr types => exact absurd rfl (harr types)
  | null | bool | num | obj => rfl

theorem normalize_of_typeNormal (h : TypeNormal schema) :
    normalizeTypeAndNullable schema = schema := by
  obtain ⟨t, ht, hvalue⟩ := h
  rw [normalizeTypeAndNullable]
  cases hlookup : schema.lookup "type" with
  | none => rfl
  | some value =>
    have hmem := Doc.mem_of_lookup hlookup
    obtain rfl := hvalue value hmem
    simp only [ht]
    rw [setField, if_pos (List.mem_map_of_mem hmem)]
    refine (List.map_congr_left fun field hfield => ?_).trans (List.map_id _)
    split_ifs with hname
    · rw [← hname, ← hvalue field.2 (hname ▸ hfield)]
      rfl
    · rfl

/-- The type is done where it is what the step has left. -/
theorem normalize_eq_self {cleaned : Fields ν}
    (htype : ∀ value, ("type", value) ∈ cleaned →
      ("type", value) ∈ normalizeTypeAndNullable schema)
    (hlookup : cleaned.lookup "type" = (normalizeTypeAndNullable schema).lookup "type") :
    normalizeTypeAndNullable cleaned = cleaned := by
  by_cases h : TypeTaken schema
  · obtain ⟨t, ht, hvalue⟩ := typeNormal_normalize h
    exact normalize_of_typeNormal ⟨t, ht, fun value hmem => hvalue value (htype value hmem)⟩
  · refine normalize_of_not_typeTaken fun htaken => h ?_
    rwa [TypeTaken, hlookup, normalize_of_not_typeTaken h] at htaken

theorem mem_normalize_of_ne (htype : field.1 ≠ "type") (hnullable : field.1 ≠ "nullable") :
    field ∈ normalizeTypeAndNullable schema ↔ field ∈ schema := by
  rw [normalizeTypeAndNullable]
  split
  · split
    · rw [mem_deleteField, mem_setField_of_ne hnullable, and_iff_left htype]
    · exact mem_setField_of_ne htype
  · have hset (value : Doc ν) (p : Prop) [Decidable p] :
        field ∈ (if p then setField "nullable" value schema else schema) ↔ field ∈ schema := by
      split_ifs
      · exact mem_setField_of_ne hnullable
      · rfl
    simp only
    split
    · rw [mem_setField_of_ne htype, hset]
    · rw [mem_deleteField, hset, and_iff_left htype]
  · rfl

end Types

/-! ### The conditions -/

/-- The schemas in a field that are cleaned. -/
def schemasOf (field : String × Doc ν) : List (Doc ν) :=
  if field.1 = "properties" then
    match field.2 with
    | .obj props => props.map Prod.snd
    | _ => []
  else if field.1 = "items" then
    match field.2 with
    | .obj schema => [.obj schema]
    | .arr (first :: _) => [first]
    | _ => []
  else if field.1 = "anyOf" then
    match field.2 with
    | .arr nested => nested
    | _ => []
  else []

/-- Items that are a schema, or a list that starts with one. -/
def ItemsTaken (items : Doc ν) : Prop :=
  IsObject items ∨ ∃ first rest, items = .arr (first :: rest) ∧ IsObject first

/-- Items that are a list and start with a list that is not empty. -/
def ListInList (items : Doc ν) : Prop :=
  ∃ first rest inner rest', items = .arr (first :: rest) ∧ first = .arr (inner :: rest')

/-- **What becomes a normal form**, with the depth that is left. -/
def Cleanable : ℕ → Doc ν → Prop
  | 0, .obj schema => TypeTaken schema
  | depth + 1, .obj schema => TypeTaken schema ∧ ∀ field ∈ schema,
      (field.1 = "items" → ItemsTaken field.2) ∧ ∀ sub ∈ schemasOf field, Cleanable depth sub
  | _, _ => True

/-- **What is clean at once.** At the greatest depth nothing is gone into. -/
def Stable : ℕ → Doc ν → Prop
  | depth + 1, .obj schema => ∀ field ∈ schema,
      (field.1 = "items" → depth ≠ 0 → ¬ListInList field.2) ∧
        ∀ sub ∈ schemasOf field, Stable depth sub
  | depth + 1, .arr schemas => ∀ sub ∈ schemas, Stable depth sub
  | _, _ => True

section Clean

variable {schema : Fields ν} {field : String × Doc ν} {depth : ℕ} {value : Doc ν}

theorem isObject_clean_iff (depth : ℕ) (value : Doc ν) :
    IsObject (cleanFunctionParametersWithDepth depth value) ↔ IsObject value := by
  rcases depth with _ | depth <;> cases value <;>
    simp [cleanFunctionParametersWithDepth, cleanFunctionParametersShallow, IsObject]

/-- A property of the fields is the same before and after the step for the type, if it says
something of the fields with schemas only. -/
theorem forall_normalize_iff {P : String × Doc ν → Prop}
    (hP : ∀ field, field.1 ≠ "properties" → field.1 ≠ "items" → field.1 ≠ "anyOf" → P field) :
    (∀ field ∈ normalizeTypeAndNullable (keepAllowed schema), P field) ↔
      ∀ field ∈ schema, P field := by
  have hstep (field : String × Doc ν) (h : ¬P field) :
      field ∈ normalizeTypeAndNullable (keepAllowed schema) ↔ field ∈ schema := by
    have hname : field.1 = "properties" ∨ field.1 = "items" ∨ field.1 = "anyOf" := by
      by_contra hother
      push Not at hother
      exact h (hP field hother.1 hother.2.1 hother.2.2)
    have hne : field.1 ≠ "type" ∧ field.1 ≠ "nullable" ∧ field.1 ∈ allowedFields := by
      rcases hname with hname | hname | hname <;> rw [hname] <;> decide
    rw [mem_normalize_of_ne hne.1 hne.2.1, mem_keepAllowed, and_iff_left hne.2.2]
  exact forall_congr' fun field =>
    ⟨fun h hmem => by_contra fun hP => hP (h ((hstep field hP).2 hmem)),
      fun h hmem => by_contra fun hP => hP (h ((hstep field hP).1 hmem))⟩

/-- Only allowed fields are left: normalising the type of a schema adds none to those that were
kept. -/
theorem allowed_of_mem_normalize (h : field ∈ normalizeTypeAndNullable (keepAllowed schema)) :
    field.1 ∈ allowedFields := by
  by_cases htype : field.1 = "type"
  · rw [htype]
    decide
  by_cases hnullable : field.1 = "nullable"
  · rw [hnullable]
    decide
  · exact (mem_keepAllowed.1 ((mem_normalize_of_ne htype hnullable).1 h)).2

theorem typeTaken_keepAllowed_iff (schema : Fields ν) :
    TypeTaken (keepAllowed schema) ↔ TypeTaken schema := by
  have hlookup : (keepAllowed schema).lookup "type" = schema.lookup "type" :=
    lookup_filter (p := fun name => decide (name ∈ allowedFields)) (by decide) schema
  rw [TypeTaken, TypeTaken, hlookup]

theorem cleanField_of_ne {name : String} (clean : Doc ν → Doc ν)
    (h : name ≠ "properties" ∧ name ≠ "items" ∧ name ≠ "anyOf") : cleanField clean name = id := by
  rw [cleanField, if_neg h.1, if_neg h.2.1, if_neg h.2.2]

variable {clean : Doc ν → Doc ν}

theorem mem_cleanFields_iff (h : field.1 ≠ "properties" ∧ field.1 ≠ "items" ∧ field.1 ≠ "anyOf") :
    (field ∈ schema.map fun field => (field.1, cleanField clean field.1 field.2)) ↔
      field ∈ schema := by
  refine ⟨fun hmem => ?_, fun hmem => List.mem_map.2 ⟨field, hmem, ?_⟩⟩
  · obtain ⟨field', hfield, rfl⟩ := List.mem_map.1 hmem
    rw [cleanField_of_ne clean h]
    exact hfield
  · rw [cleanField_of_ne clean h]
    rfl

theorem forall_nodesOf_cleanField {P : Doc ν → Prop}
    (hP : ∀ value, ¬IsObject value → P value) (field : String × Doc ν) :
    (∀ sub ∈ nodesOf (field.1, cleanField clean field.1 field.2), P sub) ↔
      ∀ sub ∈ schemasOf field, P (clean sub) := by
  obtain ⟨name, value⟩ := field
  simp only [nodesOf, cleanField, schemasOf]
  split_ifs with hprops hitems hanyOf
  · cases value with
    | obj props =>
      have hvalues : (props.map fun prop => (prop.1, clean prop.2)).map Prod.snd =
          (props.map Prod.snd).map clean := by
        rw [List.map_map, List.map_map]
        rfl
      simp only [cleanProperties, hvalues, List.forall_mem_map]
    | null | bool | num | str | arr => exact iff_of_true nofun nofun
  · have hnone {value : Doc ν} (h : ¬IsObject value) : (∀ sub ∈ [value], P sub) ↔
        ∀ sub ∈ ([] : List (Doc ν)), P (clean sub) := by
      simp [hP value h]
    cases value with
    | obj schema => simp [cleanItems]
    | arr list =>
      cases list with
      | nil => exact hnone id
      | cons first rest => simp [cleanItems]
    | null | bool | num | str => exact hnone id
  · cases value with
    | arr nested => simp [cleanAnyOf]
    | null | bool | num | str | obj => exact iff_of_true nofun nofun
  · exact iff_of_true nofun nofun

/-- The items of a field that was cleaned are a schema if they are taken. -/
theorem isObject_cleanItems_iff
    (hclean : ∀ value, IsObject (clean value) ↔ IsObject value) (value : Doc ν) :
    IsObject (cleanItems clean value) ↔ ItemsTaken value := by
  cases value with
  | obj schema => exact iff_of_true ((hclean _).2 trivial) (.inl trivial)
  | arr list =>
    cases list with
    | nil => exact iff_of_false id (by rintro (h | ⟨_, _, h, -⟩) <;> cases h)
    | cons first rest =>
      rw [cleanItems, hclean]
      refine ⟨fun h => .inr ⟨first, rest, rfl, h⟩, ?_⟩
      rintro (h | ⟨first', rest', heq, h⟩)
      · exact absurd h id
      · injection heq with heq
        rwa [(List.cons.inj heq).1]
  | null | bool | num | str => exact iff_of_false id (by rintro (h | ⟨_, _, h, -⟩) <;> cases h)

/-- The type is in normal form after its step if and only if it is taken. -/
theorem forall_type_iff (schema : Fields ν) :
    (∀ field ∈ normalizeTypeAndNullable schema, field.1 = "type" → ∃ t, field.2 = .str t ∧
        ∀ name ∈ typeNames, GoText.toLower (GoText.trimSpace t) = name.1 → t = name.2) ↔
      TypeTaken schema := by
  refine ⟨fun h => by_contra fun htaken => ?_, fun h => ?_⟩
  · rw [normalize_of_not_typeTaken htaken] at h
    refine htaken fun value hlookup => .inl ?_
    obtain ⟨t, ht, -⟩ := h _ (Doc.mem_of_lookup hlookup) rfl
    exact ⟨t, ht⟩
  · obtain ⟨t, ht, hvalue⟩ := typeNormal_normalize h
    rintro ⟨_, value⟩ hfield rfl
    exact ⟨t, hvalue value hfield, eq_of_normalize ht⟩

theorem normalFields_iff (schema : Fields ν) {cleaned : Fields ν}
    (hallowed : ∀ field ∈ cleaned, field.1 ∈ allowedFields)
    (htype : ∀ field : String × Doc ν, field.1 = "type" →
      (field ∈ cleaned ↔ field ∈ normalizeTypeAndNullable (keepAllowed schema))) :
    NormalFields cleaned ↔
      TypeTaken schema ∧ ∀ field ∈ cleaned, field.1 = "items" → IsObject field.2 := by
  rw [← typeTaken_keepAllowed_iff, ← forall_type_iff]
  refine ⟨fun h => ⟨fun field hfield hname => h.type field ((htype field hname).2 hfield) hname,
    h.items⟩, fun ⟨h, hitems⟩ => ⟨hallowed, fun field hfield hname => ?_, hitems⟩⟩
  exact h field ((htype field hname).1 hfield) hname

/-- At the greatest depth, no schemas are left in a schema. -/
theorem normalForm_shallow_iff (schema : Fields ν) :
    NormalForm (cleanFunctionParametersShallow (.obj schema)) ↔ TypeTaken schema := by
  have hmem (field : String × Doc ν) : field ∈ deleteField "anyOf" (deleteField "items"
      (deleteField "properties" (normalizeTypeAndNullable (keepAllowed schema)))) ↔
        field ∈ normalizeTypeAndNullable (keepAllowed schema) ∧ field.1 ≠ "properties" ∧
          field.1 ≠ "items" ∧ field.1 ≠ "anyOf" := by
    rw [mem_deleteField, mem_deleteField, mem_deleteField, and_assoc, and_assoc]
  rw [cleanFunctionParametersShallow, normalForm_obj_iff, normalFields_iff schema]
  · refine ⟨fun h => h.1.1, fun h => ⟨⟨h, fun field hfield hitems => ?_⟩, fun field hfield => ?_⟩⟩
    · exact absurd hitems ((hmem field).1 hfield).2.2.1
    · obtain ⟨-, hprops, hitems, hanyOf⟩ := (hmem field).1 hfield
      rw [nodesOf, if_neg hprops, if_neg hitems, if_neg hanyOf]
      exact nofun
  · exact fun field hfield => allowed_of_mem_normalize ((hmem field).1 hfield).1
  · rintro ⟨_, value⟩ rfl
    rw [hmem]
    exact and_iff_left (by simp)

/-- **What is cleaned is a normal form** if and only if the types and the items are taken. -/
theorem normalForm_clean_iff (depth : ℕ) (value : Doc ν) :
    NormalForm (cleanFunctionParametersWithDepth depth value) ↔ Cleanable depth value := by
  have hscalar {value' : Doc ν} {depth' : ℕ} (hobject : ¬IsObject value')
      (hclean : Cleanable depth' value') :
      NormalForm (cleanFunctionParametersWithDepth depth' value') ↔ Cleanable depth' value' :=
    iff_of_true (normalForm_of_not_isObject (mt (isObject_clean_iff depth' value').1 hobject))
      hclean
  induction depth generalizing value with
  | zero =>
    cases value with
    | obj schema => exact normalForm_shallow_iff schema
    | null | bool | num | str | arr => exact hscalar id trivial
  | succ depth ih =>
    cases value with
    | obj schema =>
      have hobject := isObject_clean_iff (ν := ν) depth
      rw [cleanFunctionParametersWithDepth, normalForm_obj_iff, normalFields_iff schema,
        List.forall_mem_map, List.forall_mem_map, Cleanable, and_assoc, ← forall₂_and]
      · refine and_congr_right fun _ => ?_
        rw [forall_normalize_iff]
        · refine forall₂_congr fun field _ => and_congr ?_ ?_
          · refine forall_congr' fun hname => ?_
            rw [hname]
            exact isObject_cleanItems_iff hobject field.2
          · rw [forall_nodesOf_cleanField (fun _ => normalForm_of_not_isObject)]
            exact forall₂_congr fun sub _ => ih sub
        · rintro field hprops hitems hanyOf
          refine ⟨fun hname => absurd hname hitems, ?_⟩
          rw [nodesOf, if_neg hprops, if_neg hitems, if_neg hanyOf]
          exact nofun
      · rintro field hfield
        obtain ⟨field, hmem, rfl⟩ := List.mem_map.1 hfield
        exact (allowed_of_mem_normalize hmem : field.1 ∈ allowedFields)
      · rintro field hname
        exact mem_cleanFields_iff (by rw [hname]; decide)
    | null | bool | num | str | arr => exact hscalar id trivial

/-- A list that was cleaned does not begin with what its first element was. -/
theorem clean_ne_arr_cons (depth : ℕ) (value : Doc ν) (rest : List (Doc ν)) :
    cleanFunctionParametersWithDepth depth value ≠ .arr (value :: rest) := by
  induction depth generalizing value rest with
  | zero =>
    cases value <;> simp [cleanFunctionParametersWithDepth, cleanFunctionParametersShallow]
  | succ depth ih =>
    cases value with
    | arr schemas =>
      cases schemas with
      | nil => simp [cleanFunctionParametersWithDepth]
      | cons first schemas =>
        rw [cleanFunctionParametersWithDepth, List.map_cons]
        intro heq
        injection heq with heq
        exact ih first schemas (List.cons.inj heq).1
    | null | bool | num | str | obj => simp [cleanFunctionParametersWithDepth]

theorem keepAllowed_eq_self (h : ∀ field ∈ schema, field.1 ∈ allowedFields) :
    keepAllowed schema = schema :=
  List.filter_eq_self.2 fun field hfield => decide_eq_true (h field hfield)

/-- The fields that were cleaned are cleaned again, apart from their type. -/
theorem clean_obj_eq_iff (depth : ℕ) (schema : Fields ν) :
    cleanFunctionParametersWithDepth (depth + 1)
          (cleanFunctionParametersWithDepth (depth + 1) (.obj schema)) =
        cleanFunctionParametersWithDepth (depth + 1) (.obj schema) ↔
      ∀ field ∈ schema, cleanField (cleanFunctionParametersWithDepth depth) field.1
          (cleanField (cleanFunctionParametersWithDepth depth) field.1 field.2) =
        cleanField (cleanFunctionParametersWithDepth depth) field.1 field.2 := by
  set clean := cleanFunctionParametersWithDepth (ν := ν) depth
  set cleaned := (normalizeTypeAndNullable (keepAllowed schema)).map fun field =>
    (field.1, cleanField clean field.1 field.2)
  have hallowed : keepAllowed cleaned = cleaned := by
    refine keepAllowed_eq_self fun field hfield => ?_
    obtain ⟨field, hmem, rfl⟩ := List.mem_map.1 hfield
    exact (allowed_of_mem_normalize hmem : field.1 ∈ allowedFields)
  have htype : normalizeTypeAndNullable cleaned = cleaned := by
    refine normalize_eq_self (fun value => (mem_cleanFields_iff (by simp)).1) ?_
    rw [lookup_map, cleanField_of_ne clean (by decide), Option.map_id]
    rfl
  have hclean (schema : Fields ν) : cleanFunctionParametersWithDepth (depth + 1) (.obj schema) =
      .obj ((normalizeTypeAndNullable (keepAllowed schema)).map fun field =>
        (field.1, cleanField clean field.1 field.2)) := rfl
  rw [hclean schema, hclean, hallowed, htype, Doc.obj.injEq, List.map_map, List.map_inj_left,
    forall_normalize_iff]
  · refine forall₂_congr fun field _ => ?_
    simp
  · rintro field hprops hitems hanyOf
    rw [Function.comp_apply, cleanField_of_ne clean ⟨hprops, hitems, hanyOf⟩]
    rfl

theorem shallow_shallow (value : Doc ν) :
    cleanFunctionParametersShallow (cleanFunctionParametersShallow value) =
      cleanFunctionParametersShallow value := by
  cases value with
  | obj schema =>
    set cleaned := deleteField "anyOf" (deleteField "items" (deleteField "properties"
      (normalizeTypeAndNullable (keepAllowed schema)))) with hcleaned
    have hmem {field : String × Doc ν} (h : field ∈ cleaned) :
        field ∈ normalizeTypeAndNullable (keepAllowed schema) ∧ field.1 ≠ "properties" ∧
          field.1 ≠ "items" ∧ field.1 ≠ "anyOf" := by
      rwa [hcleaned, mem_deleteField, mem_deleteField, mem_deleteField, and_assoc, and_assoc] at h
    have hdelete {name : String} (h : ∀ field ∈ cleaned, field.1 ≠ name) :
        deleteField name cleaned = cleaned :=
      List.filter_eq_self.2 fun field hfield => decide_eq_true (h field hfield)
    have hlookup : cleaned.lookup "type" =
        (normalizeTypeAndNullable (keepAllowed schema)).lookup "type" := by
      have hstep {name : String} (hne : "type" ≠ name) (schema : Fields ν) :
          (deleteField name schema).lookup "type" = schema.lookup "type" :=
        lookup_filter (p := fun key => decide (key ≠ name)) (decide_eq_true hne) schema
      rw [hcleaned, hstep (by decide), hstep (by decide), hstep (by decide)]
    have hself : cleanFunctionParametersShallow (.obj cleaned) = .obj cleaned := by
      rw [cleanFunctionParametersShallow,
        keepAllowed_eq_self fun field hfield => allowed_of_mem_normalize (hmem hfield).1,
        normalize_eq_self (fun value hvalue => (hmem hvalue).1) hlookup,
        hdelete fun field hfield => (hmem hfield).2.1,
        hdelete fun field hfield => (hmem hfield).2.2.1,
        hdelete fun field hfield => (hmem hfield).2.2.2]
    exact hself
  | null | bool | num | str | arr => rfl

/-- The first element of a list of items, cleaned and cleaned again. -/
theorem cleanItems_clean_iff (depth : ℕ) (first : Doc ν) :
    cleanItems (cleanFunctionParametersWithDepth depth)
          (cleanFunctionParametersWithDepth depth first) =
        cleanFunctionParametersWithDepth depth first ↔
      (depth ≠ 0 → ∀ inner rest, first ≠ .arr (inner :: rest)) ∧
        cleanFunctionParametersWithDepth depth (cleanFunctionParametersWithDepth depth first) =
          cleanFunctionParametersWithDepth depth first := by
  cases first with
  | obj schema =>
    have hobject := (isObject_clean_iff depth (.obj schema)).2 trivial
    rw [and_iff_right fun _ _ _ => nofun]
    cases h : cleanFunctionParametersWithDepth depth (.obj schema) with
    | obj cleaned => rfl
    | null | bool | num | str | arr => exact absurd hobject (by rw [h]; exact id)
  | arr list =>
    rcases depth with _ | depth
    · exact iff_of_true rfl ⟨fun h => absurd rfl h, rfl⟩
    · cases list with
      | nil => exact iff_of_true rfl ⟨fun _ _ _ => nofun, rfl⟩
      | cons inner rest =>
        refine iff_of_false ?_ fun h => h.1 (Nat.succ_ne_zero depth) inner rest rfl
        exact clean_ne_arr_cons (depth + 1) (cleanFunctionParametersWithDepth depth inner) _
  | null | bool | num | str =>
    rcases depth with _ | depth <;> exact iff_of_true rfl ⟨fun _ _ _ => nofun, rfl⟩

/-- Items that were cleaned are clean, where they are and they are no list in a list. -/
theorem cleanItems_cleanItems_iff (depth : ℕ) (items : Doc ν) :
    cleanItems (cleanFunctionParametersWithDepth depth)
          (cleanItems (cleanFunctionParametersWithDepth depth) items) =
        cleanItems (cleanFunctionParametersWithDepth depth) items ↔
      (depth ≠ 0 → ¬ListInList items) ∧ ∀ sub ∈ schemasOf ("items", items),
        cleanFunctionParametersWithDepth depth (cleanFunctionParametersWithDepth depth sub) =
          cleanFunctionParametersWithDepth depth sub := by
  have hlist (first : Doc ν) (rest : List (Doc ν)) :
      ¬ListInList (.arr (first :: rest)) ↔ ∀ inner rest', first ≠ .arr (inner :: rest') := by
    refine ⟨fun h inner rest' hfirst => h ⟨first, rest, inner, rest', rfl, hfirst⟩, ?_⟩
    rintro h ⟨first', rest', inner, rest'', heq, hfirst⟩
    injection heq with heq
    exact h inner rest'' ((List.cons.inj heq).1.trans hfirst)
  have hnone {items : Doc ν} (h : ∀ first rest, items ≠ .arr (first :: rest)) :
      ¬ListInList items := fun ⟨first, rest, _, _, heq, _⟩ => h first rest heq
  cases items with
  | obj schema =>
    have hobj (inner : Doc ν) (rest : List (Doc ν)) :
        Doc.obj schema ≠ .arr (inner :: rest) := nofun
    have hnot : ¬ListInList (.obj schema) := hnone nofun
    rw [cleanItems, cleanItems_clean_iff, and_iff_right fun _ => hobj, and_iff_right fun _ => hnot]
    simp [schemasOf]
  | arr list =>
    cases list with
    | nil => exact iff_of_true rfl ⟨fun _ => hnone nofun, nofun⟩
    | cons first rest =>
      rw [cleanItems, cleanItems_clean_iff, hlist]
      simp [schemasOf]
  | null | bool | num | str => exact iff_of_true rfl ⟨fun _ => hnone nofun, nofun⟩

/-- A field that was cleaned is clean, where its schemas are and no list is in a list. -/
theorem cleanField_cleanField_iff (depth : ℕ) (field : String × Doc ν) :
    cleanField (cleanFunctionParametersWithDepth depth) field.1
          (cleanField (cleanFunctionParametersWithDepth depth) field.1 field.2) =
        cleanField (cleanFunctionParametersWithDepth depth) field.1 field.2 ↔
      (field.1 = "items" → depth ≠ 0 → ¬ListInList field.2) ∧ ∀ sub ∈ schemasOf field,
        cleanFunctionParametersWithDepth depth (cleanFunctionParametersWithDepth depth sub) =
          cleanFunctionParametersWithDepth depth sub := by
  obtain ⟨name, value⟩ := field
  by_cases hitems : name = "items"
  · subst hitems
    exact (cleanItems_cleanItems_iff depth value).trans (and_congr_left fun _ =>
      ⟨fun h _ => h, fun h => h rfl⟩)
  rw [and_iff_right fun hname => absurd hname hitems]
  simp only [cleanField, schemasOf]
  split_ifs with hprops hanyOf
  · cases value with
    | obj props =>
      simp only [cleanProperties, List.map_map, Doc.obj.injEq, List.map_inj_left,
        List.forall_mem_map]
      exact forall₂_congr fun prop _ => by simp
    | null | bool | num | str | arr => exact iff_of_true rfl nofun
  · cases value with
    | arr nested => simp [cleanAnyOf]
    | null | bool | num | str | obj => exact iff_of_true rfl nofun
  · exact iff_of_true rfl nofun

/-- **What is cleaned is clean** if and only if no items are a list in a list. -/
theorem clean_clean_iff (depth : ℕ) (value : Doc ν) :
    cleanFunctionParametersWithDepth depth (cleanFunctionParametersWithDepth depth value) =
        cleanFunctionParametersWithDepth depth value ↔ Stable depth value := by
  induction depth generalizing value with
  | zero => exact iff_of_true (shallow_shallow value) (by cases value <;> trivial)
  | succ depth ih =>
    cases value with
    | obj schema =>
      rw [clean_obj_eq_iff, Stable]
      refine forall₂_congr fun field _ => (cleanField_cleanField_iff depth field).trans ?_
      exact and_congr_right fun _ => forall₂_congr fun sub _ => ih sub
    | arr schemas =>
      simp only [cleanFunctionParametersWithDepth, List.map_map, Doc.arr.injEq, List.map_inj_left,
        Stable]
      exact forall₂_congr fun sub _ => ih sub
    | null | bool | num | str => exact iff_of_true rfl trivial

/-- **Cleaning the schema of a function** gives a normal form that is clean if and only if the types
and the items are taken and no items are a list in a list. -/
theorem cleanFunctionParameters_iff (params : Doc ν) :
    NormalForm (cleanFunctionParameters params) ∧
        cleanFunctionParameters (cleanFunctionParameters params) =
          cleanFunctionParameters params ↔
      Cleanable geminiFunctionSchemaMaxDepth params ∧
        Stable geminiFunctionSchemaMaxDepth params :=
  and_congr (normalForm_clean_iff _ params) (clean_clean_iff _ params)

/-- An empty list of items is left as it is. -/
theorem cleanFunctionParameters_no_items :
    cleanFunctionParameters (.obj [("type", .str "array"), ("items", .arr [])] : Doc ℕ) =
        .obj [("type", .str "ARRAY"), ("items", .arr [])] ∧
      ¬NormalForm (.obj [("type", .str "ARRAY"), ("items", .arr [])] : Doc ℕ) :=
  ⟨rfl, fun h => (h _ (.root _)).items ("items", .arr []) (by simp) rfl⟩

end Clean

end NewApiPool.Convert.SchemaCleaning
