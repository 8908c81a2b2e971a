import NewApiPool.Lib.JsonTree
import NewApiPool.Relay.JsonPaths
import Mathlib.Data.Rat.Defs

/-!
# Removing objects by conditions

`prune_objects` decodes what is at a path, removes the objects in it that meet some conditions, and
writes what is left. It goes down from the top: an object that meets the conditions is removed with
all that is in it, unless it is what is at the path itself; below an object it goes only if it is to
be recursive. The maps are changed while the code walks over them, in any order.

What is left is the value without the places that `Target` describes, whatever the order. But the
code decodes all numbers to `float64` and writes them all again: the rest is as it was just in case
each of its numbers is a `float64` (`NewApiPool.Relay.PruneObjects.prunes_iff`).
-/

namespace NewApiPool.Relay.PruneObjects

open GoText JsonDoc

variable {ν : Type}

/-- The libraries, as far as the operation uses them. -/
structure Libs (ν : Type) extends JsonLibs ν where
  /-- `sjson.SetRaw` -/
  setRaw : Doc ν → String → Doc ν → Except String (Doc ν)
  setRaw_join : ∀ j segs v w, segs ≠ [] → (∀ seg ∈ segs, Plain seg) → j.getAt segs = some v →
    setRaw j (joinPath segs) w = .ok (j.putAt segs w)
  /-- a number that is decoded to a `float64` and written again -/
  float : ν → ν
  /-- the error at a number that no `float64` comes near to -/
  rangeError : ν → Option String
  num : ν → ℚ
  /-- `Result.String` -/
  text : Doc ν → String

variable (go : Libs ν)

/-! ### Conditions -/

structure ConditionOperation (ν : Type) where
  path : String
  mode : String
  value : Doc ν := .null
  invert : Bool := false
  passMissingKey : Bool := false

/-- `Type.String` of `gjson`. -/
def typeName : Doc ν → String
  | .null => "Null"
  | .bool b => if b then "True" else "False"
  | .num _ => "Number"
  | .str _ => "String"
  | .arr _ | .obj _ => "JSON"

def compareEqual (jsonValue targetValue : Doc ν) : Except String Bool :=
  match jsonValue, targetValue with
  | .null, .null => .ok true
  | .null, _ | _, .null => .ok false
  | .bool a, .bool b => .ok (a = b)
  | .num a, .num b => .ok (go.num a = go.num b)
  | a, b =>
    if typeName a = typeName b then .ok (go.text a = go.text b)
    else .error (String.join ["compare for different types, got ", typeName a, " and ", typeName b])

def compareNumeric (jsonValue targetValue : Doc ν) (operator : String) : Except String Bool :=
  match jsonValue, targetValue with
  | .num a, .num b =>
    match operator with
    | "gt" => .ok (go.num a > go.num b)
    | "gte" => .ok (go.num a ≥ go.num b)
    | "lt" => .ok (go.num a < go.num b)
    | "lte" => .ok (go.num a ≤ go.num b)
    | _ => .error (String.join ["unsupported numeric operator: ", operator])
  | a, b => .error (String.join ["numeric comparison requires both values to be numbers, got ",
      typeName a, " and ", typeName b])

def compareGjsonValues (jsonValue targetValue : Doc ν) (mode : String) : Except String Bool :=
  let s := (go.text jsonValue).toList
  let t := (go.text targetValue).toList
  match mode with
  | "full" => compareEqual go jsonValue targetValue
  | "prefix" => .ok (t <+: s)
  | "suffix" => .ok (t <:+ s)
  | "contains" => .ok (t <:+: s)
  | "gt" | "gte" | "lt" | "lte" => compareNumeric go jsonValue targetValue mode
  | _ => .error (String.join ["unsupported comparison mode: ", mode])

/-- `checkSingleCondition`: a value that the body lacks is looked up in the context. -/
def checkSingleCondition (json : Doc ν) (context : Option (Doc ν))
    (condition : ConditionOperation ν) : Except String Bool :=
  let path := processNegativeIndex go.toJsonLibs json condition.path
  match (go.get json path).or (context.bind fun ctx => go.get ctx condition.path) with
  | none => .ok condition.passMissingKey
  | some value =>
    match compareGjsonValues go value condition.value.sorted (toLower condition.mode) with
    | .error err =>
      .error (String.join ["comparison failed for path ", condition.path, ": ", err])
    | .ok result => .ok (if condition.invert then !result else result)

def checkConditions (json : Doc ν) (context : Option (Doc ν))
    (conditions : List (ConditionOperation ν)) (logic : String) : Except String Bool := do
  if conditions.isEmpty then return true
  let results ← conditions.mapM (checkSingleCondition go json context)
  return if logic.toUpper = "AND" then results.all id else results.any id

/-! ### Options -/

structure Options (ν : Type) where
  conditions : List (ConditionOperation ν)
  logic : String := "AND"
  recursive : Bool := true

/-- A condition for each name that is not blank: the member is equal to the value. -/
def fullConditions (members : List (String × Doc ν)) : List (ConditionOperation ν) :=
  members.filterMap fun member =>
    if trimSpace member.1 = "" then none
    else some { path := trimSpace member.1, mode := "full", value := member.2 }

def stringMember (members : List (String × Doc ν)) (key : String) : String :=
  match members.lookup key with
  | some (.str s) => s
  | _ => ""

def parseCondition : Doc ν → Except String (ConditionOperation ν)
  | .obj itemMap =>
    let path := stringMember itemMap "path"
    let mode := stringMember itemMap "mode"
    if trimSpace path = "" ∨ trimSpace mode = "" then
      .error "condition path/mode is required"
    else .ok {
      path := path
      mode := mode
      value := (itemMap.lookup "value").getD .null
      invert := match itemMap.lookup "invert" with
        | some (.bool b) => b
        | _ => false
      passMissingKey := match itemMap.lookup "pass_missing_key" with
        | some (.bool b) => b
        | _ => false }
  | _ => .error "condition must be object"

def parseConditionOperations : Doc ν → Except String (List (ConditionOperation ν))
  | .obj typed =>
    if fullConditions typed = [] then
      .error "conditions object must contain at least one key"
    else .ok (fullConditions typed)
  | .arr items => items.mapM parseCondition
  | _ => .error "conditions must be an array or object"

def parsePruneObjectsOptions (value : Doc ν) : Except String (Options ν) :=
  match value with
  | .null => .error "prune_objects value is required"
  | .str raw =>
    let v := trimSpace raw
    if v = "" then .error "prune_objects value is required"
    else .ok { conditions := [{ path := "type", mode := "full", value := .str v }] }
  | .obj raw => do
    let logic := stringMember raw "logic"
    let listed ← match raw.lookup "conditions" with
      | some condRaw => parseConditionOperations condRaw
      | none => .ok []
    let wheres ← match raw.lookup "where" with
      | some (.obj whereMap) => .ok (fullConditions whereMap)
      | some _ => .error "prune_objects where must be object"
      | none => .ok []
    let types : List (ConditionOperation ν) := match raw.lookup "type" with
      | some matchType => [{ path := "type", mode := "full", value := matchType }]
      | none => []
    if (listed ++ wheres ++ types).isEmpty then
      .error "prune_objects conditions are required"
    else .ok {
      conditions := listed ++ wheres ++ types
      logic := if trimSpace logic = "" then "AND" else logic
      recursive := match raw.lookup "recursive" with
        | some (.bool b) => b
        | _ => true }
  | _ => .error "prune_objects value must be string or object"

/-! ### The operation -/

/-- `common.Unmarshal`, or `Result.Value` of a value that is neither an array nor an object. -/
def unmarshal (json : Doc ν) : Except String (Doc ν) :=
  match json.numbers.findSome? go.rangeError with
  | some err => .error err
  | none => .ok (json.mapNum go.float)

/-- `common.Marshal` sorts the names of a map. -/
def shouldPruneObject (context : Option (Doc ν)) (options : Options ν)
    (node : List (String × Doc ν)) : Except String Bool :=
  checkConditions go (Doc.obj node).sorted context options.conditions options.logic

/-- What the loop over a map does with a key, where `nexts` is what becomes of each value. -/
def storeNext (nexts : List (String × Except String (Option (Doc ν))))
    (value : List (String × Doc ν)) (key : String) : Except String (List (String × Doc ν)) :=
  match nexts.lookup key with
  | none => .ok value
  | some (.error err) => .error err
  | some (.ok none) => .ok (eraseMember key value)
  | some (.ok (some next)) => .ok (replaceMember key next value)

section Node

variable (order : List String → List String → List String) (context : Option (Doc ν))
  (options : Options ν)

mutual

/-- `none` is a value to drop. The keys of the map at a place are met in some `order`. -/
def pruneObjectsNode (place : List String) (isRoot : Bool) :
    Doc ν → Except String (Option (Doc ν))
  | .arr items => do return some (.arr (← pruneItems place 0 items))
  | .obj value => do
    let shouldDrop ← shouldPruneObject go context options value
    if shouldDrop && !isRoot then return none
    if !options.recursive then return some (.obj value)
    let kept ← (order place (value.map Prod.fst)).foldlM
      (storeNext (pruneMembers place value)) value
    return some (.obj kept)
  | node => .ok (some node)

/-- The loop over an array. -/
def pruneItems (place : List String) : ℕ → List (Doc ν) → Except String (List (Doc ν))
  | _, [] => .ok []
  | i, item :: items => do
    let next ← pruneObjectsNode (place ++ [toString i]) false item
    let result ← pruneItems place (i + 1) items
    return next.toList ++ result

/-- What becomes of each value of a map. -/
def pruneMembers (place : List String) :
    List (String × Doc ν) → List (String × Except String (Option (Doc ν)))
  | [] => []
  | (key, child) :: members =>
    (key, pruneObjectsNode (place ++ [key]) false child) :: pruneMembers place members

end

end Node

/-- `pruneObjects`, with some `order` of the keys of each map. -/
def pruneObjects (order : List String → List String → List String) (jsonStr : Doc ν)
    (path : String) (context : Option (Doc ν)) (value : Doc ν) : Except String (Doc ν) := do
  let options ← parsePruneObjectsOptions value
  if path = "" then
    let root ← unmarshal go jsonStr
    let cleaned ← pruneObjectsNode go order context options [] true root
    return (cleaned.getD .null).sorted
  match go.get jsonStr path with
  | none => return jsonStr
  | some target =>
    let targetNode ← unmarshal go target
    let cleaned ← pruneObjectsNode go order context options [] true targetNode
    go.setRaw jsonStr path (cleaned.getD .null).sorted

/-! ### What is to be removed -/

section Target

variable (context : Option (Doc ν)) (options : Options ν)

/-- An object whose conditions hold. -/
def Matches : Doc ν → Prop
  | .obj members => shouldPruneObject go context options members = .ok true
  | _ => False

/-- No condition on an object ends in an error. -/
def Decided : Doc ν → Prop
  | .obj members => ∃ result, shouldPruneObject go context options members = .ok result
  | _ => True

def IsArray : Doc ν → Prop
  | .arr _ => True
  | _ => False

/-- A place is come to: nothing above it matches, apart from the root, and unless it is to be
recursive, all above it are arrays. -/
def Reached (node : Doc ν) (path : List String) : Prop :=
  ∀ above, above <+: path → above ≠ path → ∀ c ∈ node.getAt above,
    (above ≠ [] → ¬Matches go context options c) ∧ (options.recursive = true ∨ IsArray c)

/-- **The places to remove**: those of the objects that match, other than the root, with nothing
above them that is removed. -/
def Target (node : Doc ν) (path : List String) : Prop :=
  path ≠ [] ∧ (∃ c ∈ node.getAt path, Matches go context options c) ∧
    Reached go context options node path

/-- **What the operation is for**: at its place, the objects to remove are removed, and all else is
as it was. (The conditions see a value as it is decoded.) -/
def Prunes (json : Doc ν) (segs : List String) (result : Except String (Doc ν)) : Prop :=
  match json.getAt segs with
  | none => result = .ok json
  | some v => result = .ok (json.putAt segs
      (v.removeAll (Target go context options (v.mapNum go.float))).sorted)

end Target

/-! ### One step down -/

section Step

variable {go} {order : List String → List String → List String} {context : Option (Doc ν)}
  {options : Options ν} {d c : Doc ν} {seg : String} {path place : List String}
  {members : List (String × Doc ν)}

theorem getAt_cons (hchild : d.child seg = some c) (path : List String) :
    d.getAt (seg :: path) = c.getAt path := by
  rw [Doc.getAt, hchild]
  rfl

/-- **A place below another**: the way down there, and the way on from there. -/
theorem reached_cons_iff (hchild : d.child seg = some c) :
    Reached go context options d (seg :: path) ↔ (options.recursive = true ∨ IsArray d) ∧
      (path ≠ [] → ¬Matches go context options c ∧ Reached go context options c path) := by
  constructor
  · intro h
    refine ⟨(h [] List.nil_prefix (List.cons_ne_nil seg path).symm d rfl).2, fun hpath => ?_⟩
    have hbelow (above : List String) (habove : above <+: path) (hne : above ≠ path) :
        ∀ x ∈ c.getAt above, ¬Matches go context options x ∧
          (options.recursive = true ∨ IsArray x) := by
      intro x hx
      have := h (seg :: above) (List.cons_prefix_cons.2 ⟨rfl, habove⟩)
        (fun heq => hne (List.cons.inj heq).2) x ((getAt_cons hchild above).trans hx)
      exact ⟨this.1 (List.cons_ne_nil seg above), this.2⟩
    exact ⟨(hbelow [] List.nil_prefix hpath.symm c rfl).1,
      fun above habove hne x hx => (hbelow above habove hne x hx).imp_left fun hno _ => hno⟩
  · rintro ⟨hdown, hrest⟩ above habove hne x hx
    cases above with
    | nil =>
      obtain rfl : d = x := Option.some.inj hx
      exact ⟨fun h => absurd rfl h, hdown⟩
    | cons seg' above =>
      obtain ⟨rfl, hbelow⟩ := List.cons_prefix_cons.1 habove
      rw [getAt_cons hchild] at hx
      have hne' : above ≠ path := fun heq => hne (congrArg _ heq)
      have hpath : path ≠ [] := by
        rintro rfl
        exact hne' (List.prefix_nil.1 hbelow)
      obtain ⟨hmatch, hreached⟩ := hrest hpath
      refine ⟨fun _ => ?_, (hreached above hbelow hne' x hx).2⟩
      by_cases habove' : above = []
      · subst habove'
        obtain rfl : c = x := Option.some.inj hx
        exact hmatch
      · exact (hreached above hbelow hne' x hx).1 habove'

theorem target_singleton_iff (hchild : d.child seg = some c) :
    Target go context options d [seg] ↔
      (options.recursive = true ∨ IsArray d) ∧ Matches go context options c := by
  rw [Target, reached_cons_iff hchild, getAt_cons hchild]
  simp [Doc.getAt, and_comm]

theorem target_cons_iff (hchild : d.child seg = some c) (hpath : path ≠ [])
    (hmatch : ¬Matches go context options c) :
    Target go context options d (seg :: path) ↔
      (options.recursive = true ∨ IsArray d) ∧ Target go context options c path := by
  rw [Target, Target, reached_cons_iff hchild, getAt_cons hchild]
  simp [hpath, hmatch, and_left_comm]

end Step

/-! ### The walk -/

section Walk

variable {go} {order : List String → List String → List String} {context : Option (Doc ν)}
  {options : Options ν} {d c : Doc ν} {seg : String} {path place : List String} {isRoot : Bool}
  {members : List (String × Doc ν)}

open Classical in
/-- What becomes of a value that is not the root. -/
noncomputable def remains (go : Libs ν) (context : Option (Doc ν)) (options : Options ν)
    (node : Doc ν) : Option (Doc ν) :=
  if Matches go context options node then none
  else some (node.removeAll (Target go context options node))

/-- The conditions are decided at a value, and wherever the walk comes to below it. -/
def DecidedBelow (go : Libs ν) (context : Option (Doc ν)) (options : Options ν)
    (node : Doc ν) : Prop :=
  ∀ path, Reached go context options node path → ∀ c ∈ node.getAt path, Decided go context options c

theorem DecidedBelow.child (h : DecidedBelow go context options d)
    (hdown : options.recursive = true ∨ IsArray d) (hchild : d.child seg = some c) :
    Decided go context options c ∧
      (¬Matches go context options c → DecidedBelow go context options c) := by
  have hat (path : List String) (hreached : Reached go context options d (seg :: path)) :
      ∀ x ∈ c.getAt path, Decided go context options x :=
    fun x hx => h _ hreached x ((getAt_cons hchild path).trans hx)
  refine ⟨?_, fun hmatch path hreached => ?_⟩
  · exact hat [] ((reached_cons_iff hchild).2 ⟨hdown, fun h => absurd rfl h⟩) c rfl
  · exact hat path ((reached_cons_iff hchild).2 ⟨hdown, fun _ => ⟨hmatch, hreached⟩⟩)

/-- The places to remove in a value are those to remove in what is above it. -/
theorem removeAll_target_cons (hdown : options.recursive = true ∨ IsArray d)
    (hchild : d.child seg = some c) (hmatch : ¬Matches go context options c) :
    c.removeAll (fun path => Target go context options d (seg :: path)) =
      c.removeAll (Target go context options c) :=
  Doc.removeAll_congr (fun path hpath => by
    rw [target_cons_iff hchild hpath hmatch, and_iff_right hdown]) c

theorem target_singleton_iff_matches (hdown : options.recursive = true ∨ IsArray d)
    (hchild : d.child seg = some c) :
    Target go context options d [seg] ↔ Matches go context options c := by
  rw [target_singleton_iff hchild, and_iff_right hdown]

/-- **The loop over an array**, from an index on. -/
theorem pruneItems_eq {items : List (Doc ν)} {i : ℕ}
    (hdown : options.recursive = true ∨ IsArray d)
    (hchild : ∀ k c, items[k]? = some c → d.child (toString (i + k)) = some c)
    (hnode : ∀ c ∈ items, ∀ place, pruneObjectsNode go order context options place false c =
      .ok (remains go context options c)) :
    pruneItems go order context options place i items =
      .ok (Doc.removeItems (Target go context options d) i items) := by
  induction items generalizing i with
  | nil => rfl
  | cons item items ih =>
    obtain ⟨hitem, hitems⟩ := List.forall_mem_cons.1 hnode
    have hfirst : d.child (toString i) = some item := hchild 0 item rfl
    have hrest := ih (i := i + 1) (fun k c hc => by
      rw [Nat.add_assoc, Nat.add_comm 1 k]
      exact hchild (k + 1) c hc) hitems
    rw [pruneItems, hitem, hrest, Doc.removeItems]
    change Except.ok _ = _
    refine congrArg _ ?_
    rw [remains]
    by_cases hmatch : Matches go context options item
    · rw [if_pos hmatch, if_pos ((target_singleton_iff_matches hdown hfirst).2 hmatch)]
      rfl
    · rw [if_neg hmatch, if_neg (mt (target_singleton_iff_matches hdown hfirst).1 hmatch),
        removeAll_target_cons hdown hfirst hmatch]
      rfl

theorem pruneMembers_eq (place : List String) (members : List (String × Doc ν)) :
    pruneMembers go order context options place members = members.map fun member => (member.1,
      pruneObjectsNode go order context options (place ++ [member.1]) false member.2) := by
  induction members with
  | nil => rfl
  | cons member members ih => rw [pruneMembers, ih, List.map_cons]

/-- What is stored at a key, in a list of members. -/
def storeAt (key : String) (next : Option (Doc ν)) (member : String × Doc ν) :
    Option (String × Doc ν) :=
  if member.1 = key then next.map (Prod.mk key) else some member

theorem filterMap_storeAt_none (hnodup : (members.map Prod.fst).Nodup) (key : String) :
    members.filterMap (storeAt key none) = eraseMember key members := by
  rw [eraseMember_eq_filter hnodup, ← List.filterMap_eq_filter]
  refine List.filterMap_congr fun member _ => ?_
  by_cases hkey : member.1 = key <;> simp [storeAt, Option.guard, hkey]

theorem filterMap_storeAt_some (hnodup : (members.map Prod.fst).Nodup) (key : String)
    (next : Doc ν) :
    members.filterMap (storeAt key (some next)) = replaceMember key next members := by
  rw [replaceMember_eq_map hnodup, ← List.filterMap_eq_map]
  refine List.filterMap_congr fun member _ => ?_
  by_cases hkey : member.1 = key <;> simp [storeAt, hkey]

theorem storeNext_eq {nexts : List (String × Except String (Option (Doc ν)))} {key : String}
    {next : Option (Doc ν)} (hnodup : (members.map Prod.fst).Nodup)
    (hnext : nexts.lookup key = some (.ok next)) :
    storeNext nexts members key = .ok (members.filterMap (storeAt key next)) := by
  rw [storeNext, hnext]
  cases next with
  | none => exact congrArg _ (filterMap_storeAt_none hnodup key).symm
  | some next => exact congrArg _ (filterMap_storeAt_some hnodup key next).symm

theorem nodup_filterMap_storeAt (hnodup : (members.map Prod.fst).Nodup) (key : String)
    (next : Option (Doc ν)) : ((members.filterMap (storeAt key next)).map Prod.fst).Nodup := by
  cases next with
  | none =>
    rw [filterMap_storeAt_none hnodup, eraseMember_eq_filter hnodup]
    exact hnodup.sublist (List.filter_sublist.map _)
  | some next => rwa [filterMap_storeAt_some hnodup, map_fst_replaceMember]

/-- **The loop over a map** stores what becomes of each value, in any order. -/
theorem foldlM_storeNext {nexts : List (String × Except String (Option (Doc ν)))}
    {next : String → Option (Doc ν)} {keys : List String} (hnodup : (members.map Prod.fst).Nodup)
    (hnext : ∀ key ∈ keys, nexts.lookup key = some (.ok (next key))) :
    keys.foldlM (storeNext nexts) members = .ok (members.filterMap fun member =>
      if member.1 ∈ keys then (next member.1).map (Prod.mk member.1) else some member) := by
  induction keys generalizing members with
  | nil => simp [pure, Except.pure]
  | cons key keys ih =>
    obtain ⟨hkey, hkeys⟩ := List.forall_mem_cons.1 hnext
    rw [List.foldlM_cons, storeNext_eq hnodup hkey]
    refine (ih (nodup_filterMap_storeAt hnodup key (next key)) hkeys).trans ?_
    rw [List.filterMap_filterMap]
    refine congrArg _ (List.filterMap_congr fun member _ => ?_)
    rw [storeAt]
    by_cases hmember : member.1 = key
    · -- a key that is met again gets what it already has
      rw [if_pos hmember, hmember, if_pos List.mem_cons_self]
      cases hnone : next key with
      | none => rfl
      | some c => simp [hnone]
    · simp [hmember]

theorem removeMembers_eq (hdown : options.recursive = true ∨ IsArray d)
    (hchild : ∀ member ∈ members, d.child member.1 = some member.2) :
    Doc.removeMembers (Target go context options d) members =
      members.filterMap fun member =>
        (remains go context options member.2).map (Prod.mk member.1) := by
  induction members with
  | nil => rfl
  | cons member members ih =>
    obtain ⟨hmember, hmembers⟩ := List.forall_mem_cons.1 hchild
    rw [Doc.removeMembers, ih hmembers, List.filterMap_cons, remains]
    by_cases hmatch : Matches go context options member.2
    · rw [if_pos hmatch, if_pos ((target_singleton_iff_matches hdown hmember).2 hmatch)]
      rfl
    · rw [if_neg hmatch, if_neg (mt (target_singleton_iff_matches hdown hmember).1 hmatch),
        removeAll_target_cons hdown hmember hmatch]
      rfl

/-- **The loop over a map**, where what becomes of each value is known. -/
theorem pruneMap_eq (horder : ∀ place keys, (order place keys).Perm keys)
    (hnodup : (members.map Prod.fst).Nodup) (hrec : options.recursive = true)
    (hnode : ∀ member ∈ members, pruneObjectsNode go order context options
      (place ++ [member.1]) false member.2 = .ok (remains go context options member.2)) :
    (order place (members.map Prod.fst)).foldlM
        (storeNext (pruneMembers go order context options place members)) members =
      .ok (Doc.removeMembers (Target go context options (.obj members)) members) := by
  have hchild : ∀ member ∈ members, (Doc.obj members).child member.1 = some member.2 :=
    fun member hmember => (lookup_eq_some_iff hnodup).2 hmember
  have hnext : ∀ key ∈ order place (members.map Prod.fst),
      (pruneMembers go order context options place members).lookup key =
        some (.ok ((members.lookup key).bind (remains go context options))) := by
    intro key hkey
    obtain ⟨member, hmember, rfl⟩ := List.mem_map.1 ((horder place _).mem_iff.1 hkey)
    have hkeys : ((pruneMembers go order context options place members).map Prod.fst).Nodup := by
      rw [pruneMembers_eq, List.map_map]
      exact hnodup
    rw [lookup_eq_some_iff hkeys, (lookup_eq_some_iff hnodup).2 hmember, pruneMembers_eq]
    refine List.mem_map.2 ⟨member, hmember, ?_⟩
    rw [hnode member hmember]
    rfl
  rw [foldlM_storeNext hnodup hnext, removeMembers_eq (Or.inl hrec) hchild]
  refine congrArg _ (List.filterMap_congr fun member hmember => ?_)
  rw [if_pos ((horder place _).mem_iff.2 (List.mem_map_of_mem hmember)),
    (lookup_eq_some_iff hnodup).2 hmember]
  rfl

theorem target_of_not_recursive (h : ¬(options.recursive = true ∨ IsArray d)) (path : List String) :
    ¬Target go context options d path := by
  rintro ⟨hpath, -, hreached⟩
  exact h (hreached [] List.nil_prefix hpath.symm d rfl).2

/-- **What the walk leaves of a value**, in any order of the keys. -/
theorem pruneObjectsNode_eq (horder : ∀ place keys, (order place keys).Perm keys)
    (hdistinct : d.Distinct) (hdecided : Decided go context options d)
    (hbelow : isRoot = true ∨ ¬Matches go context options d → DecidedBelow go context options d) :
    pruneObjectsNode go order context options place isRoot d =
      .ok (if isRoot = true then some (d.removeAll (Target go context options d))
        else remains go context options d) := by
  induction d using Doc.induct_children generalizing place isRoot with
  | step d ih =>
    have hkept (h : isRoot = true ∨ ¬Matches go context options d) :
        (if isRoot = true then some (d.removeAll (Target go context options d))
          else remains go context options d) =
            some (d.removeAll (Target go context options d)) := by
      obtain hroot | hmatch := h
      · rw [if_pos hroot]
      · rw [remains, if_neg hmatch, ite_self]
    -- what is one step down is no root
    have hnode (hin : isRoot = true ∨ ¬Matches go context options d)
        (hdown : options.recursive = true ∨ IsArray d) {seg : String} {c : Doc ν}
        (hchild : d.child seg = some c) (place : List String) :
        pruneObjectsNode go order context options place false c =
          .ok (remains go context options c) := by
      obtain ⟨hc, hrest⟩ := (hbelow hin).child hdown hchild
      have hmem := Doc.mem_children hchild
      refine (ih c hmem (hdistinct.children c hmem) hc fun h => ?_).trans (congrArg _ (if_neg ?_))
      · exact hrest (h.resolve_left Bool.false_ne_true)
      · exact Bool.false_ne_true
    cases d with
    | arr items =>
      have hin : isRoot = true ∨ ¬Matches go context options (.arr items) := Or.inr id
      have hchild (k : ℕ) (c : Doc ν) (hc : items[k]? = some c) :
          (Doc.arr items).child (toString (0 + k)) = some c := by
        rw [Doc.child, index?_toString, Nat.zero_add]
        exact hc
      have hdown : options.recursive = true ∨ IsArray (.arr items) := Or.inr trivial
      have hitems : pruneItems go order context options place 0 items =
          .ok (Doc.removeItems (Target go context options (.arr items)) 0 items) :=
        pruneItems_eq hdown hchild
        fun c hc place => by
          obtain ⟨k, hk⟩ := List.mem_iff_getElem?.1 hc
          exact hnode hin hdown (hchild k c hk) place
      rw [pruneObjectsNode, hitems, hkept hin, Doc.removeAll]
      rfl
    | obj members =>
      obtain ⟨shouldDrop, hdrop⟩ := hdecided
      have hmatch : Matches go context options (.obj members) ↔ shouldDrop = true := by
        change shouldPruneObject go context options members = .ok true ↔ _
        rw [hdrop, Except.ok.injEq]
      rw [pruneObjectsNode, hdrop]
      by_cases hin : isRoot = true ∨ ¬Matches go context options (.obj members)
      · rw [hkept hin]
        have hkeep : ¬(shouldDrop && !isRoot) = true := by
          rw [Bool.and_eq_true, Bool.not_eq_true', ← hmatch]
          rintro ⟨hmatches, hroot⟩
          obtain hroot' | hno := hin
          · exact absurd (hroot'.symm.trans hroot) (by decide)
          · exact hno hmatches
        by_cases hrec : options.recursive = true
        · have hmembers : ∀ member ∈ members, pruneObjectsNode go order context options
              (place ++ [member.1]) false member.2 = .ok (remains go context options member.2) :=
            fun member hmember =>
              hnode hin (Or.inl hrec) ((lookup_eq_some_iff hdistinct.1).2 hmember) _
          have hmap := pruneMap_eq horder hdistinct.1 hrec hmembers
          simp only [bind, Except.bind, if_neg hkeep, hrec, Bool.not_true, Bool.false_eq_true,
            if_false, hmap, Doc.removeAll]
          rfl
        · have hdown : ¬(options.recursive = true ∨ IsArray (.obj members)) := not_or.2 ⟨hrec, id⟩
          rw [Doc.removeAll_of_forall_not fun path _ => target_of_not_recursive hdown path]
          simp only [bind, Except.bind, if_neg hkeep, eq_false_of_ne_true hrec, Bool.not_false,
            if_true]
          rfl
      · obtain ⟨hroot, hno⟩ := not_or.1 hin
        have hmatches := not_not.1 hno
        rw [if_neg hroot, remains, if_pos hmatches, hmatch.1 hmatches, eq_false_of_ne_true hroot]
        rfl
    | null | bool b | num n | str s => exact congrArg _ (hkept (Or.inr id)).symm

end Walk

/-! ### The whole operation -/

section Operation

variable {go} {order : List String → List String → List String} {json v value : Doc ν}
  {context : Option (Doc ν)} {options : Options ν} {path : String} {segs : List String}

/-- A path of plain steps, or the whole body. -/
def PathTo (path : String) (segs : List String) : Prop :=
  path = "" ∧ segs = [] ∨ segs ≠ [] ∧ (∀ seg ∈ segs, Plain seg) ∧ path = joinPath segs

theorem DecidedBelow.self (h : DecidedBelow go context options v) :
    Decided go context options v :=
  h [] (fun _ habove hne => absurd (List.prefix_nil.1 habove) hne) v rfl

theorem joinPath_ne_empty (hne : segs ≠ []) (hplain : ∀ seg ∈ segs, Plain seg) :
    joinPath segs ≠ "" := by
  cases segs with
  | nil => exact absurd rfl hne
  | cons seg segs =>
    intro h
    have htext := congrArg String.toList h
    rw [toList_joinPath] at htext
    have hseg := (List.append_eq_nil_iff.1 htext).1
    exact (hplain seg List.mem_cons_self).ne_empty (String.toList_inj.1 hseg)

/-- **What is left of the body**, where something is at the path. -/
theorem pruneObjects_of_some (hparse : parsePruneObjectsOptions value = .ok options)
    (horder : ∀ place keys, (order place keys).Perm keys) (hdistinct : json.Distinct)
    (hpath : PathTo path segs) (hv : json.getAt segs = some v)
    (hdecided : DecidedBelow go context options (v.mapNum go.float)) :
    pruneObjects go order json path context value = (unmarshal go v).map fun node =>
      json.putAt segs (node.removeAll (Target go context options node)).sorted := by
  have hwalk : pruneObjectsNode go order context options [] true (v.mapNum go.float) = .ok (some
      ((v.mapNum go.float).removeAll (Target go context options (v.mapNum go.float)))) :=
    (pruneObjectsNode_eq horder (hdistinct.getAt hv).mapNum hdecided.self fun _ => hdecided).trans
      (congrArg _ (if_pos rfl))
  rw [pruneObjects, hparse]
  obtain ⟨rfl, rfl⟩ | ⟨hne, hplain, rfl⟩ := hpath
  · obtain rfl : json = v := Option.some.inj hv
    simp only [bind, Except.bind, if_true]
    rw [unmarshal]
    cases json.numbers.findSome? go.rangeError with
    | some err => rfl
    | none =>
      simp only [hwalk]
      rfl
  · simp only [bind, Except.bind, if_neg (joinPath_ne_empty hne hplain)]
    rw [go.get_join json segs hne hplain, hv]
    simp only [unmarshal]
    cases v.numbers.findSome? go.rangeError with
    | some err => rfl
    | none =>
      simp only [hwalk]
      exact go.setRaw_join json segs v _ hne hplain hv

theorem pruneObjects_of_none (hparse : parsePruneObjectsOptions value = .ok options)
    (hpath : PathTo path segs) (hv : json.getAt segs = none) :
    pruneObjects go order json path context value = .ok json := by
  obtain ⟨rfl, rfl⟩ | ⟨hne, hplain, rfl⟩ := hpath
  · cases hv
  · rw [pruneObjects, hparse]
    simp only [bind, Except.bind, if_neg (joinPath_ne_empty hne hplain)]
    rw [go.get_join json segs hne hplain, hv]
    rfl

/-- **Conditions on texts** end in no error. -/
theorem decided_of_textModes (h : ∀ condition ∈ options.conditions,
    toLower condition.mode ∈ ["prefix", "suffix", "contains"]) (node : Doc ν) :
    Decided go context options node := by
  have hone (json : Doc ν) : ∀ condition ∈ options.conditions,
      ∃ result, checkSingleCondition go json context condition = .ok result := by
    intro condition hcondition
    have hmode := h condition hcondition
    simp only [List.mem_cons, List.not_mem_nil, or_false] at hmode
    rw [checkSingleCondition]
    split
    · exact ⟨_, rfl⟩
    · obtain hmode | hmode | hmode := hmode <;>
      · rw [hmode]
        exact ⟨_, rfl⟩
  have hall (json : Doc ν) (conditions : List (ConditionOperation ν))
      (hconditions : ∀ condition ∈ conditions, condition ∈ options.conditions) :
      ∃ results, conditions.mapM (checkSingleCondition go json context) = .ok results := by
    induction conditions with
    | nil => exact ⟨[], rfl⟩
    | cons condition conditions ih =>
      obtain ⟨hcondition, hconditions⟩ := List.forall_mem_cons.1 hconditions
      obtain ⟨result, hresult⟩ := hone json condition hcondition
      obtain ⟨results, hresults⟩ := ih hconditions
      exact ⟨result :: results, by rw [List.mapM_cons, hresult, hresults]; rfl⟩
  cases node with
  | obj members =>
    obtain ⟨results, hresults⟩ := hall (Doc.obj members).sorted options.conditions fun _ => id
    rw [Decided, shouldPruneObject, checkConditions, hresults]
    split_ifs <;> exact ⟨_, rfl⟩
  | arr items | null | bool b | num n | str s => trivial

/-- **When the objects are removed, and nothing else is changed**: the numbers can be decoded, and
those that stay are `float64`s. -/
theorem prunes_iff (hparse : parsePruneObjectsOptions value = .ok options)
    (horder : ∀ place keys, (order place keys).Perm keys) (hdistinct : json.Distinct)
    (hpath : PathTo path segs) (hdecided : ∀ v ∈ json.getAt segs,
      DecidedBelow go context options (v.mapNum go.float)) :
    Prunes go context options json segs (pruneObjects go order json path context value) ↔
      ∀ v ∈ json.getAt segs, (∀ n ∈ v.numbers, go.rangeError n = none) ∧
        ∀ n ∈ (v.removeAll (Target go context options (v.mapNum go.float))).numbers,
          go.float n = n := by
  rw [Prunes]
  cases hv : json.getAt segs with
  | none => exact iff_of_true (pruneObjects_of_none hparse hpath hv) fun v h => by cases h
  | some v =>
    simp only [Option.mem_some_iff, forall_eq']
    rw [pruneObjects_of_some hparse horder hdistinct hpath hv (hdecided v hv), unmarshal]
    cases herr : v.numbers.findSome? go.rangeError with
    | some err =>
      obtain ⟨n, hn, hrange⟩ := List.exists_of_findSome?_eq_some herr
      refine iff_of_false (fun h => by cases h) fun h => ?_
      exact absurd ((h.1 n hn).symm.trans hrange) (Option.some_ne_none err).symm
    | none =>
      rw [and_iff_right (List.findSome?_eq_none_iff.1 herr)]
      change Except.ok _ = Except.ok _ ↔ _
      rw [Except.ok.injEq, Doc.putAt_inj hv, Doc.removeAll_mapNum, Doc.sorted_mapNum,
        Doc.mapNum_eq_self_iff]
      simp only [Doc.mem_numbers_sorted]

end Operation

/-! ### Examples -/

/-- Libraries for plain paths and whole numbers that are not too large. -/
def wholeLibs : Libs ℤ where
  toJsonLibs := splitLibs
  setRaw := fun j path w => .ok (j.putAt (split '.' path) w)
  setRaw_join := fun j segs v w hne hplain hv => by rw [split_joinPath hne hplain]
  float := fun n => if n.natAbs ≤ 2 ^ 53 then n else 2 * (n / 2)
  rangeError := fun _ => none
  num := fun n => n
  text
    | .str s => s
    | .num n => toString n
    | .bool b => if b then "true" else "false"
    | .null | .arr _ | .obj _ => ""

def thinkingBlocks : Doc ℤ := .obj [("messages", .arr [.obj [("type", .str "thinking")],
  .obj [("content", .arr [.obj [("type", .str "thinking")], .num 7])]])]

def thinkingValue : Doc ℤ := .obj [("conditions", .arr [.obj [("path", .str "type"),
  ("mode", .str "prefix"), ("value", .str "think")]])]

def thinkingOptions : Options ℤ where
  conditions := [{ path := "type", mode := "prefix", value := .str "think" }]

theorem parse_thinkingValue :
    parsePruneObjectsOptions thinkingValue = .ok thinkingOptions := rfl

/-- A message, and what is in another one. -/
theorem prunes_thinkingBlocks : Prunes wholeLibs none thinkingOptions thinkingBlocks ["messages"]
    (pruneObjects wholeLibs (fun _ keys => keys) thinkingBlocks "messages" none thinkingValue) := by
  refine (prunes_iff parse_thinkingValue (fun _ _ => .rfl) ?_ ?_ ?_).2 ?_
  · simp [thinkingBlocks, Doc.Distinct, Doc.DistinctItems, Doc.DistinctMembers]
  · exact Or.inr ⟨by decide, by decide, rfl⟩
  · exact fun v hv path hreached c hc => decided_of_textModes (by decide) c
  · intro v hv
    obtain rfl := Option.some.inj hv
    refine ⟨fun n _ => rfl, fun n hn => ?_⟩
    have hseven : n ∈ [(7 : ℤ)] := Doc.mem_numbers_of_removeAll hn
    rw [List.mem_singleton.1 hseven]
    rfl

/-- A number that is no `float64`. -/
def largeNumber : Doc ℤ := .obj [("seed", .num 9007199254740993)]

theorem target_seed (context : Option (Doc ℤ)) (options : Options ℤ) (n : ℤ) (path : List String) :
    ¬Target wholeLibs context options (.obj [("seed", .num n)]) path := by
  rintro ⟨hpath, ⟨c, hc, hmatch⟩, -⟩
  cases path with
  | nil => exact hpath rfl
  | cons seg path =>
    obtain ⟨d, hchild, hrest⟩ := Option.bind_eq_some_iff.1 hc
    have hmem := Doc.mem_children hchild
    obtain rfl : d = .num n := List.mem_singleton.1 hmem
    cases path with
    | nil =>
      obtain rfl := Option.some.inj hrest
      exact hmatch
    | cons seg' path => cases hrest

/-- **A number is changed** where nothing is removed. -/
theorem not_prunes_largeNumber : ¬∀ (ν : Type) (go : Libs ν)
    (order : List String → List String → List String) (json value : Doc ν) (path : String)
    (segs : List String) (context : Option (Doc ν)) (options : Options ν),
    parsePruneObjectsOptions value = .ok options →
      (∀ place keys, (order place keys).Perm keys) → json.Distinct → PathTo path segs →
        (∀ v ∈ json.getAt segs, DecidedBelow go context options (v.mapNum go.float)) →
          Prunes go context options json segs (pruneObjects go order json path context value) := by
  intro h
  have hdecided : DecidedBelow wholeLibs none thinkingOptions
      (largeNumber.mapNum wholeLibs.float) :=
    fun path hreached c hc => decided_of_textModes (by decide) c
  have hdistinct : largeNumber.Distinct := ⟨by decide, trivial, trivial⟩
  have hprunes := h ℤ wholeLibs (fun _ keys => keys) largeNumber thinkingValue "" [] none
    thinkingOptions parse_thinkingValue (fun _ _ => .rfl) hdistinct (Or.inl ⟨rfl, rfl⟩)
    fun v hv => Option.some.inj hv ▸ hdecided
  have horder (place keys : List String) : ((fun _ keys => keys) place keys).Perm keys := .rfl
  have hleft := pruneObjects_of_some parse_thinkingValue horder hdistinct (Or.inl ⟨rfl, rfl⟩) rfl
    hdecided
  have hkeeps : (largeNumber.mapNum wholeLibs.float).sorted = largeNumber.sorted := by
    have heq := hleft.symm.trans hprunes
    change Except.ok _ = Except.ok _ at heq
    rw [Except.ok.injEq] at heq
    change (Doc.removeAll _ _).sorted = (Doc.removeAll _ _).sorted at heq
    have hnone (path : List String) (_ : path ≠ []) : ¬Target wholeLibs none thinkingOptions
        (largeNumber.mapNum wholeLibs.float) path := target_seed none thinkingOptions _ path
    rwa [Doc.removeAll_mapNum, Doc.removeAll_of_forall_not hnone] at heq
  rw [Doc.sorted_mapNum, Doc.mapNum_eq_self_iff] at hkeeps
  exact absurd (hkeeps 9007199254740993 (Doc.mem_numbers_sorted.2 List.mem_cons_self)) (by decide)

end NewApiPool.Relay.PruneObjects
