import NewApiPool.Lib.Fallible
import NewApiPool.Lib.JsonEdits
import NewApiPool.Relay.MoveValue
import NewApiPool.Relay.ParamOverride

/-!
# Changing values where they are

Eleven operations of the rules change the value at a path: texts are trimmed, completed, replaced or
written in upper or lower case, and something is put before or behind texts, lists and objects. A
path with stars stands for all paths that it matches in the body. Their values are changed one after
the other, each of them read and written in the body as it is by then, and the first that cannot be
changed makes the operation fail.

* `editOperation_eq` – what comes out is the body with all matched values changed at once, and the
  operation fails just in case one of them cannot be changed.
* `editOperation_twice` – completing or trimming texts again changes nothing more.
-/

namespace NewApiPool.Relay

open Fallible GoText JsonDoc

variable {ν : Type}

/-- The libraries, as far as these operations use them. -/
structure ValueLibs (ν : Type) extends MoveLibs ν where
  /-- a value that is there can be replaced -/
  exists_set : ∀ j path segs v w, steps path = some segs → j.getAt segs = some v →
    ∃ j', set j path w = .ok j'
  /-- a number by its digits -/
  number : String → ν
  /-- what `json.Unmarshal` says of a number that no `float64` is -/
  outOfRange : ν → Option String
  /-- `strings.ToLower` -/
  toLower : String → String
  /-- `strings.ToUpper` -/
  toUpper : String → String
  /-- `regexp.Compile`, and `ReplaceAllString` -/
  compileRegexp : String → Except String (String → String → String)

mutual

/-- A decoded value of a rule, as JSON. -/
def Value.doc (number : String → ν) : Value → Doc ν
  | .nil => .null
  | .bool b => .bool b
  | .number printed => .num (number printed)
  | .string s => .str s
  | .list items => .arr (items.docs number)
  | .map members => .obj (members.docs number)

def Values.docs (number : String → ν) : Values → List (Doc ν)
  | .nil => []
  | .cons item rest => item.doc number :: rest.docs number

def Members.docs (number : String → ν) : Members → List (String × Doc ν)
  | .nil => []
  | .cons key value rest => (key, value.doc number) :: rest.docs number

end

/-! ### Operations on a value -/

/-- What is written for a value, if anything is. -/
abbrev Edit (ν : Type) := Doc ν → Except String (Option (Doc ν))

/-- `gjson.Type` -/
def typeName : Doc ν → String
  | .null => "Null"
  | .bool b => if b then "True" else "False"
  | .num _ => "Number"
  | .str _ => "String"
  | .arr _ | .obj _ => "JSON"

def notSupported (type : String) : String := "operation not supported for type: " ++ type

/-- An operation on texts. -/
def onText (edit : String → Except String (Option String)) : Edit ν
  | .str current => (edit current).map (Option.map Doc.str)
  | current => .error (notSupported (typeName current))

def trimPrefix (s start : String) : String :=
  if startsWith s start then String.ofList (s.toList.drop start.toList.length) else s

def trimStringValue (value : Value) (isPrefix : Bool) : Edit ν :=
  onText fun current =>
    match value with
    | .nil => .error "trim value is required"
    | value => .ok (some (if isPrefix then trimPrefix current value.sprint
        else trimSuffix current value.sprint))

/-- A text with an affix, unless it has it already. -/
def withAffix (affix : String) (isPrefix : Bool) (current : String) : Option String :=
  if isPrefix then if startsWith current affix then none else some (affix ++ current)
  else if endsWith current affix then none else some (current ++ affix)

def ensureStringAffix (value : Value) (isPrefix : Bool) : Edit ν :=
  onText fun current =>
    match value with
    | .nil => .error "ensure value is required"
    | value =>
      if value.sprint = "" then .error "ensure value is required"
      else .ok (withAffix value.sprint isPrefix current)

def transformStringValue (transform : String → String) : Edit ν :=
  onText fun current => .ok (some (transform current))

def replaceStringValue (source target : String) : Edit ν :=
  onText fun current =>
    if source = "" then .error "replace from is required"
    else .ok (some (replaceAll source target current))

section Libs

variable (go : ValueLibs ν)

def regexReplaceStringValue (pattern replacement : String) : Edit ν :=
  onText fun current =>
    if pattern = "" then .error "regex pattern is required"
    else (go.compileRegexp pattern).map fun replaceAllString =>
      some (replaceAllString current replacement)

def modifyArray (value : Doc ν) (isPrepend : Bool) (items : List (Doc ν)) : Doc ν :=
  let added :=
    match value with
    | .arr values => values
    | value => [value]
  let original := items.map (Doc.mapNum go.float)
  match if isPrepend then added ++ original else original ++ added with
  -- nothing was ever appended to the slice, and a nil slice is written as null
  | [] => .null
  | newArray => .arr newArray

def modifyString (value : Value) (isPrepend : Bool) (current : String) : Doc ν :=
  .str (if isPrepend then value.sprint ++ current else current ++ value.sprint)

/-- A member is put into a map, unless one that is not null is to be kept. -/
def mergeMember (keepOrigin : Bool) (result : List (String × Doc ν)) (member : String × Doc ν) :
    List (String × Doc ν) :=
  match result.lookup member.1 with
  | none => result ++ [member]
  | some .null => replaceMember member.1 member.2 result
  | some _ => if keepOrigin then result else replaceMember member.1 member.2 result

/-- The word that the decoder has for what is no map. -/
def jsonKind : Doc ν → String
  | .bool _ => "bool"
  | .num _ => "number"
  | .str _ => "string"
  | .arr _ => "array"
  | .null | .obj _ => "object"

/-- `json.Unmarshal` into a map. The first number that is refused is the error. -/
def unmarshalMap (members : List (String × Doc ν)) : Except String (List (String × Doc ν)) :=
  match (Doc.obj members).numbers.findSome? go.outOfRange with
  | some e => .error e
  | none => .ok (members.map fun member => (member.1, member.2.mapNum go.float))

def mergeObjects (value : Doc ν) (keepOrigin : Bool) (members : List (String × Doc ν)) :
    Except String (Doc ν) := do
  let currentMap ← unmarshalMap go members
  match value with
  | .obj newMap => .ok (.obj (newMap.foldl (mergeMember keepOrigin) currentMap))
  | .null => .ok (.obj currentMap)
  | value => .error ("json: cannot unmarshal " ++ jsonKind value ++
      " into Go value of type map[string]interface \x7b\x7d")

def modifyValue (value : Value) (keepOrigin isPrepend : Bool) : Edit ν
  | .arr items => .ok (some (modifyArray go (value.doc go.number) isPrepend items))
  | .str current => .ok (some (modifyString value isPrepend current))
  | .obj members => (mergeObjects go (value.doc go.number) keepOrigin members).map some
  | current => .error (notSupported (typeName current))

/-- The operations of `applyOperations` that change values. -/
def editOf (op : ParamOperation) : Option (Edit ν) :=
  match op.mode with
  | "prepend" => some (modifyValue go op.value op.keepOrigin true)
  | "append" => some (modifyValue go op.value op.keepOrigin false)
  | "trim_prefix" => some (trimStringValue op.value true)
  | "trim_suffix" => some (trimStringValue op.value false)
  | "ensure_prefix" => some (ensureStringAffix op.value true)
  | "ensure_suffix" => some (ensureStringAffix op.value false)
  | "trim_space" => some (transformStringValue trimSpace)
  | "to_lower" => some (transformStringValue go.toLower)
  | "to_upper" => some (transformStringValue go.toUpper)
  | "replace" => some (replaceStringValue op.source op.target)
  | "regex_replace" => some (regexReplaceStringValue go op.source op.target)
  | _ => none

/-- An operation at one path. -/
def editValue (edit : Edit ν) (json : Doc ν) (path : String) : Except String (Doc ν) :=
  match go.get json path with
  | none => .error (notSupported "Null")
  | some current => do
    match ← edit current with
    | none => return json
    | some value => go.set json path value

/-- **An operation** at all paths that are meant. -/
def editOperation (edit : Edit ν) (json : Doc ν) (path : String) : Except String (Doc ν) :=
  (resolveOperationPaths json (processNegativeIndex go.toJsonLibs json path)).foldlM
    (editValue go edit) json

end Libs

/-- What comes to stand in the place of a value. The names of a map are sorted when it is
written. -/
def changed (edit : Edit ν) (c : Doc ν) : Option (Doc ν) :=
  match edit c with
  | .ok (some value) => some value.sorted
  | .ok none => some c
  | .error _ => none

/-! ### One path -/

section Path

variable {go : ValueLibs ν} {edit : Edit ν} {json : Doc ν} {segs : List String}

theorem editAt_eq (f : Doc ν → Option (Doc ν)) (segs : List String) (j : Doc ν) :
    Doc.editAt f segs j = (j.getAt segs).bind fun c => (f c).bind fun v => j.setAt segs v := by
  induction segs generalizing j with
  | nil => exact (Option.bind_fun_some (f j)).symm
  | cons seg rest ih =>
    rw [Doc.editAt, Doc.getAt]
    cases hchild : j.child seg with
    | none => rfl
    | some c =>
      rw [Option.bind_some, Option.bind_some, ih]
      cases c.getAt rest with
      | none => rfl
      | some d =>
        cases hd : f d with
        | none => simp [hd]
        | some v => simp only [Option.bind_some, hd, Doc.setAt, hchild]

/-- **An operation at one path** changes the value there. -/
theorem toOption_editValue {path : String} (hsteps : go.steps path = some segs) :
    (editValue go edit json path).toOption = Doc.editAt (changed edit) segs json := by
  rw [editValue, go.get_steps json path segs hsteps, editAt_eq]
  cases hget : json.getAt segs with
  | none => rfl
  | some current =>
    rw [Option.bind_some, changed]
    dsimp only
    cases edit current with
    | error e => rfl
    | ok value =>
      cases value with
      | none => exact (Doc.setAt_of_getAt hget).symm
      | some value =>
        obtain ⟨json', hset⟩ := go.exists_set json path segs current value hsteps hget
        have hwritten := go.set_steps json json' path segs value hsteps hset
        change (go.set json path value).toOption = _
        rw [hset, Option.bind_some, hwritten]
        rfl

end Path

/-! ### All paths -/

section Selected

variable {f : Doc ν → Option (Doc ν)} {j j' : Doc ν} {seg : String} {rest segs : List String}

/-- What is selected behind a step that is not a star. -/
theorem selected_step (hstar : seg ≠ "*") (hblank : seg ≠ "") (hindex : arrayIndex seg = index? seg)
    (rest : List String) (j : Doc ν) :
    selected (seg :: rest) j =
      if rest = [] ∧ j.isObj then [[seg]]
      else (j.child seg).elim [] fun c => (selected rest c).map (seg :: ·) := by
  cases j with
  | obj members =>
    rw [selected, if_neg hblank, if_neg hstar]
    by_cases hrest : rest = []
    · rw [if_pos hrest, if_pos ⟨hrest, rfl⟩]
    · rw [if_neg hrest, if_neg fun h => hrest h.1]
      rfl
  | arr items =>
    rw [selected, if_neg hblank, if_neg hstar, hindex, if_neg fun h => Bool.false_ne_true h.2]
    rfl
  | null | bool b | num n | str s => simp [selected, Doc.child, Doc.isObj, hblank, hstar]

/-- **Changing one value after the other** changes all that is matched. -/
theorem foldlM_selected (hblank : "" ∉ segs) (hindex : ∀ seg ∈ segs, arrayIndex seg = index? seg)
    (h : j.Distinct) :
    (selected segs j).foldlM (fun j path => Doc.editAt f path j) j = j.editMatches f segs := by
  induction segs generalizing j with
  | nil =>
    change (f j).bind pure = f j
    exact Option.bind_fun_some (f j)
  | cons seg rest ih =>
    rw [List.mem_cons, not_or] at hblank
    obtain ⟨hseg, hrest⟩ := List.forall_mem_cons.mp hindex
    -- a star stands for all children, whose paths are edited one after the other
    by_cases hstar : seg = "*"
    · subst hstar
      have hne : ("*" : String) ≠ "" := by decide
      rw [Doc.editMatches, if_pos rfl]
      cases j with
      | obj members =>
        rw [selected, if_neg hne, if_pos rfl,
          Doc.foldlM_members (Doc.foldlM_editAt_cons _) h.1 (nodup_sortedKeys members)
            fun _ _ => rfl]
        refine congrArg (Option.map Doc.obj) (mapM_congr_of_mem fun member hmember => ?_)
        have hkey := mem_sortedKeys.mpr (List.mem_map_of_mem (f := Prod.fst) hmember)
        rw [if_pos hkey, ih hblank.2 hrest (h.children _ (List.mem_map_of_mem hmember))]
      | arr items =>
        rw [selected, if_neg hne, if_pos rfl]
        refine (Doc.foldlM_items (Doc.foldlM_editAt_cons _) [] items).trans ?_
        refine congrArg (Option.map Doc.arr) (mapM_congr_of_mem fun item hitem => ?_)
        exact ih hblank.2 hrest (h.children item hitem)
      | null | bool b | num n | str s => rfl
    · rw [selected_step hstar (Ne.symm hblank.1) hseg, Doc.editMatches, if_neg hstar]
      cases hchild : j.child seg with
      | none =>
        by_cases hlast : rest = [] ∧ j.isObj
        · rw [if_pos hlast, if_pos hlast, List.foldlM_cons, Doc.editAt, hchild]
          rfl
        · rw [if_neg hlast, if_neg hlast]
          rfl
      | some c =>
        dsimp only
        rw [← ih hblank.2 hrest (h.children c (Doc.mem_children hchild)),
          ← Doc.foldlM_editAt_cons _ hchild]
        split_ifs with hlast
        · rw [hlast.1]
          rfl
        · rfl

/-- Members with the same names, and the same paths below them. -/
theorem selected_members {members members' : List (String × Doc ν)}
    (h : List.Forall₂ (fun m m' : String × Doc ν =>
      m'.1 = m.1 ∧ selected rest m'.2 = selected rest m.2) members members') :
    selected ("*" :: rest) (.obj members') = selected ("*" :: rest) (.obj members) := by
  have hnames : members'.map Prod.fst = members.map Prod.fst :=
    map_eq_of_forall₂ (h.imp fun _ _ hm => hm.1)
  have hlookup := lookup_map_eq_of_forall₂ h
  have helim (o : Option (Doc ν)) (key : String) :
      (o.elim [] fun c => (selected rest c).map (key :: ·)) =
        (o.map (selected rest)).elim [] (List.map (key :: ·)) := by
    cases o <;> rfl
  have hne : ("*" : String) ≠ "" := by decide
  rw [selected, selected, if_neg hne, if_pos rfl, if_neg hne, if_pos rfl, sortedKeys, hnames]
  exact List.flatMap_congr fun key _ => by rw [helim, helim, hlookup]

theorem selected_items {items items' : List (Doc ν)}
    (h : List.Forall₂ (fun c c' => selected rest c' = selected rest c) items items') :
    selected ("*" :: rest) (.arr items') = selected ("*" :: rest) (.arr items) := by
  have hne : ("*" : String) ≠ "" := by decide
  rw [selected, selected, if_neg hne, if_pos rfl, if_neg hne, if_pos rfl]
  generalize 0 = n
  induction h generalizing n with
  | nil => rfl
  | cons hitem _ ih =>
    rw [List.zipIdx_cons, List.zipIdx_cons, List.flatMap_cons, List.flatMap_cons, ih, hitem]

/-- The same paths are selected when the values at their ends are changed. -/
theorem selected_editMatches (hblank : "" ∉ segs)
    (hindex : ∀ seg ∈ segs, arrayIndex seg = index? seg) (h : j.editMatches f segs = some j') :
    selected segs j' = selected segs j := by
  induction segs generalizing j j' with
  | nil => rfl
  | cons seg rest ih =>
    rw [List.mem_cons, not_or] at hblank
    obtain ⟨hseg, hrest⟩ := List.forall_mem_cons.mp hindex
    rw [Doc.editMatches] at h
    -- an edit leaves the names and the lengths, and these are all that a path meets
    by_cases hstar : seg = "*"
    · subst hstar
      have hne : ("*" : String) ≠ "" := by decide
      rw [if_pos rfl] at h
      cases j with
      | obj members =>
        obtain ⟨members', rfl, hall⟩ := Doc.forall₂_of_mapChildren? h
        exact selected_members (hall.imp fun _ _ hm => ⟨hm.1, ih hblank.2 hrest hm.2⟩)
      | arr items =>
        obtain ⟨items', hitems, rfl⟩ := Option.map_eq_some_iff.mp h
        exact selected_items ((forall₂_of_mapM hitems).imp fun _ _ hm => ih hblank.2 hrest hm)
      | null | bool b | num n | str s =>
        obtain rfl := Option.some.inj h
        rfl
    · rw [if_neg hstar] at h
      rw [selected_step hstar (Ne.symm hblank.1) hseg, selected_step hstar (Ne.symm hblank.1) hseg]
      cases hchild : j.child seg with
      | none =>
        simp only [hchild] at h
        split_ifs at h
        obtain rfl := Option.some.inj h
        rw [hchild]
      | some c =>
        simp only [hchild] at h
        obtain ⟨c', hc', rfl⟩ := Option.map_eq_some_iff.mp h
        rw [Doc.isObj_replace, Doc.child_replace hchild, Option.elim_some, Option.elim_some,
          ih hblank.2 hrest hc']

end Selected

/-! ### The operations -/

section Operation

variable {go : ValueLibs ν} {edit : Edit ν} {json json' : Doc ν} {path opPath : String}

/-- **An operation over stars** changes all matched values at once, and fails just in case one of
them cannot be changed. -/
theorem editOperation_eq (h : json.Distinct)
    (hpath : processNegativeIndex go.toJsonLibs json path = opPath) (hstar : '*' ∈ opPath.toList)
    (hblank : "" ∉ patternOf opPath)
    (hindex : ∀ seg ∈ patternOf opPath, arrayIndex seg = index? seg)
    (hpaths : ∀ segs ∈ pathsOf json opPath, Deletable segs) :
    (editOperation go edit json path).toOption =
      json.editMatches (changed edit) (patternOf opPath) := by
  have hsegs : pathsOf json opPath = selected (patternOf opPath) json := by
    rw [pathsOf, patternOf, if_pos hstar, if_pos hstar]
  rw [editOperation, hpath, resolveOperationPaths_eq h hpaths, toOption_foldlM, List.foldlM_map,
    ← foldlM_selected hblank hindex h, ← hsegs]
  refine foldlM_congr_of_mem (fun segs hmem j => toOption_editValue ?_) json
  exact go.steps_join segs (hpaths segs hmem).ne_nil (hpaths segs hmem).plain

/-- An operation that does nothing more to a value that it has changed. -/
def Settles (edit : Edit ν) : Prop :=
  ∀ c c', changed edit c = some c' → changed edit c' = some c'

/-- What comes to stand in the place of a text. -/
def textAfter (edit : String → Except String (Option String)) (s : String) : Option String :=
  (edit s).toOption.map fun text => text.getD s

theorem changed_onText_str (edit : String → Except String (Option String)) (s : String) :
    changed (onText edit : Edit ν) (.str s) = (textAfter edit s).map Doc.str := by
  rw [changed, onText, textAfter]
  cases edit s with
  | error e => rfl
  | ok text =>
    cases text with
    | none => rfl
    | some t =>
      have hsorted : (Doc.str t : Doc ν).sorted = .str t := by simp [Doc.sorted]
      exact congrArg some hsorted

theorem changed_onText_eq_some {edit : String → Except String (Option String)} {c c' : Doc ν}
    (h : changed (onText edit) c = some c') :
    ∃ s t, c = .str s ∧ c' = .str t ∧ textAfter edit s = some t := by
  cases c with
  | str s =>
    rw [changed_onText_str] at h
    obtain ⟨t, ht, rfl⟩ := Option.map_eq_some_iff.mp h
    exact ⟨s, t, rfl, rfl, ht⟩
  | null | bool b | num n | arr items | obj members => cases h

theorem settles_onText {edit : String → Except String (Option String)}
    (h : ∀ s t, textAfter edit s = some t → textAfter edit t = some t) :
    Settles (onText edit : Edit ν) := by
  intro c c' hc
  obtain ⟨s, t, rfl, rfl, ht⟩ := changed_onText_eq_some hc
  rw [changed_onText_str, h s t ht, Option.map_some]

theorem startsWith_append (start s : String) : startsWith (start ++ s) start = true := by
  rw [startsWith, List.isPrefixOf_iff_prefix, String.toList_append]
  exact List.prefix_append _ _

theorem withAffix_getD (affix : String) (isPrefix : Bool) (s : String) :
    withAffix affix isPrefix ((withAffix affix isPrefix s).getD s) = none := by
  cases isPrefix with
  | true =>
    by_cases h : startsWith s affix = true
    · simp [withAffix, h]
    · simp [withAffix, h, startsWith_append]
  | false =>
    by_cases h : endsWith s affix = true
    · simp [withAffix, h]
    · simp [withAffix, h, endsWith_append]

/-- Completing a text that has the affix changes nothing. -/
theorem settles_ensureStringAffix (value : Value) (isPrefix : Bool) :
    Settles (ensureStringAffix value isPrefix : Edit ν) := by
  refine settles_onText fun s t h => ?_
  cases value with
  | nil => cases h
  | bool b | number printed | string text | list items | map members =>
    rw [textAfter] at h ⊢
    dsimp only at h ⊢
    split_ifs at h ⊢ with hempty
    · cases h
    · obtain rfl := Option.some.inj h
      exact congrArg some (by rw [withAffix_getD]; rfl)

theorem settles_trimSpace : Settles (transformStringValue trimSpace : Edit ν) := by
  refine settles_onText fun s t h => ?_
  obtain rfl := Option.some.inj h
  exact congrArg some (trimSpace_trimSpace s)

/-- The operations that complete and trim texts make texts of texts, and settle them. -/
theorem settles_editOf {op : ParamOperation}
    (hop : op.mode ∈ ["ensure_prefix", "ensure_suffix", "trim_space"])
    (hedit : editOf go op = some edit) :
    Settles edit ∧ ∀ c c', changed edit c = some c' → ∃ s t, c = .str s ∧ c' = .str t := by
  have htext (edit : String → Except String (Option String)) (c c' : Doc ν)
      (h : changed (onText edit) c = some c') : ∃ s t, c = .str s ∧ c' = .str t := by
    obtain ⟨s, t, hc, hc', -⟩ := changed_onText_eq_some h
    exact ⟨s, t, hc, hc'⟩
  rw [editOf] at hedit
  simp only [List.mem_cons, List.not_mem_nil, or_false] at hop
  rcases hop with hop | hop | hop
  · simp only [hop] at hedit
    obtain rfl := Option.some.inj hedit
    exact ⟨settles_ensureStringAffix op.value true, htext _⟩
  · simp only [hop] at hedit
    obtain rfl := Option.some.inj hedit
    exact ⟨settles_ensureStringAffix op.value false, htext _⟩
  · simp only [hop] at hedit
    obtain rfl := Option.some.inj hedit
    exact ⟨settles_trimSpace, htext _⟩

/-- Where a path counts from the end of an array, it names that array: there is no star before. -/
def NamesArrays (go : ValueLibs ν) (path : String) : Prop :=
  ∀ negIndex ∈ negativeIndexRegexp 0 path.toList, ∃ segs,
    go.steps (String.ofList (trimDot (before negIndex path.toList))) = some segs

theorem replaceIndex_of_steps {negIndex : List Char}
    (hsteps : go.steps (String.ofList (trimDot (before negIndex path.toList))) = some segs)
    (json : Doc ν) (result : List Char) :
    replaceIndex go.toJsonLibs json path.toList result negIndex =
      match json.lengthAt segs with
      | some length =>
        if 0 ≤ (length : ℤ) - indexNumber negIndex ∧
            (length : ℤ) - indexNumber negIndex < length then
          replaceFirst ('.' :: negIndex)
            ('.' :: (toString ((length : ℤ) - indexNumber negIndex).toNat).toList) result
        else result
      | none => result := by
  rw [replaceIndex, go.get_steps _ _ _ hsteps, Doc.lengthAt]
  cases json.getAt segs with
  | none => rfl
  | some c => cases c <;> rfl

/-- The same indices are counted from the end where the lengths of the arrays are the same. -/
theorem processNegativeIndex_congr (hnames : NamesArrays go path)
    (h : json'.lengthAt = json.lengthAt) :
    processNegativeIndex go.toJsonLibs json' path =
      processNegativeIndex go.toJsonLibs json path := by
  rw [processNegativeIndex, processNegativeIndex]
  refine congrArg String.ofList (List.foldl_ext _ _ _ fun result negIndex hmem => ?_)
  obtain ⟨segs, hsteps⟩ := hnames negIndex hmem
  rw [replaceIndex_of_steps hsteps, replaceIndex_of_steps hsteps, h]

/-- **Completing or trimming texts again** is done at the same places, all that a path with stars
matches, and changes nothing more there. -/
theorem editOperation_twice (h : json.Distinct) {op : ParamOperation}
    (hop : op.mode ∈ ["ensure_prefix", "ensure_suffix", "trim_space"])
    (hedit : editOf go op = some edit) (hnames : NamesArrays go path)
    (hpath : processNegativeIndex go.toJsonLibs json path = opPath) (hstar : '*' ∈ opPath.toList)
    (hblank : "" ∉ patternOf opPath)
    (hindex : ∀ seg ∈ patternOf opPath, arrayIndex seg = index? seg)
    (hpaths : ∀ segs ∈ pathsOf json opPath, Deletable segs)
    (hok : editOperation go edit json path = .ok json') :
    resolveOperationPaths json' (processNegativeIndex go.toJsonLibs json' path) =
        resolveOperationPaths json (processNegativeIndex go.toJsonLibs json path) ∧
      editOperation go edit json' path = .ok json' := by
  obtain ⟨hsettles, htext⟩ := settles_editOf hop hedit
  have hfirst : json.editMatches (changed edit) (patternOf opPath) = some json' := by
    have heq : (editOperation go edit json path).toOption =
        json.editMatches (changed edit) (patternOf opPath) :=
      editOperation_eq h hpath hstar hblank hindex hpaths
    rw [← heq, hok]
    rfl
  -- the arrays have kept their lengths, so the path is the same, and it matches the same places
  have hlength : json'.lengthAt = json.lengthAt := by
    refine Doc.lengthAt_editMatches (fun c c' hc => ?_) hfirst
    obtain ⟨s, t, rfl, rfl⟩ := htext c c' hc
    exact funext fun place => (Doc.lengthAt_str t place).trans (Doc.lengthAt_str s place).symm
  have hpath' : processNegativeIndex go.toJsonLibs json' path = opPath :=
    (processNegativeIndex_congr hnames hlength).trans hpath
  have hsame : pathsOf json' opPath = pathsOf json opPath := by
    have hpattern : patternOf opPath = (split '.' opPath).map trimSpace := by
      rw [patternOf, if_pos hstar]
    rw [pathsOf, pathsOf, if_pos hstar, if_pos hstar, ← hpattern]
    exact selected_editMatches hblank hindex hfirst
  have hdistinct : json'.Distinct := by
    refine Doc.distinct_editMatches (fun c c' _ hc => ?_) h hfirst
    obtain ⟨s, t, -, rfl⟩ := htext c c' hc
    trivial
  have hpaths' : ∀ segs ∈ pathsOf json' opPath, Deletable segs := by rwa [hsame]
  constructor
  · rw [hpath, hpath', resolveOperationPaths_eq h hpaths,
      resolveOperationPaths_eq hdistinct hpaths', hsame]
  · have hsecond : (editOperation go edit json' path).toOption =
        json'.editMatches (changed edit) (patternOf opPath) :=
      editOperation_eq hdistinct hpath' hstar hblank hindex hpaths'
    rw [Doc.editMatches_twice hsettles hfirst] at hsecond
    cases hagain : editOperation go edit json' path with
    | error e =>
      rw [hagain] at hsecond
      cases hsecond
    | ok json'' =>
      rw [hagain] at hsecond
      exact congrArg Except.ok (Option.some.inj hsecond)

end Operation

section Sample

theorem exists_setAt {j v : Doc ν} {path : List String} (h : j.getAt path = some v) (w : Doc ν) :
    ∃ j', j.setAt path w = some j' := by
  induction path generalizing j with
  | nil => exact ⟨w, rfl⟩
  | cons seg path ih =>
    obtain ⟨c, hchild, hrest⟩ := Option.bind_eq_some_iff.mp h
    obtain ⟨c', hc'⟩ := ih hrest
    exact ⟨j.replace seg c', by simp only [Doc.setAt, hchild, hc', Option.map_some]⟩

/-- Libraries that know plain steps only, whole numbers and no regular expressions. -/
def splitValueLibs : ValueLibs ℤ where
  toMoveLibs := splitMoveLibs
  exists_set := fun j path segs v w hsteps hget => by
    obtain rfl := Option.some.inj hsteps
    obtain ⟨j', hj'⟩ := exists_setAt hget w.sorted
    exact ⟨j', by simp only [splitMoveLibs, hj', Option.map_some, Option.getD_some]⟩
  number := fun printed => (atoi printed).getD 0
  outOfRange := fun _ => none
  toLower := GoText.toLower
  toUpper := String.toUpper
  compileRegexp := fun _ => .error "error parsing regexp"

def twoMessages : Doc ℤ :=
  .obj [("messages", .arr [.obj [("content", .str "Hi")], .obj [("content", .str "> Hello")]])]

def quoteOperation : ParamOperation where
  path := "messages.*.content"
  mode := "ensure_prefix"
  value := .string "> "

theorem distinct_twoMessages : twoMessages.Distinct := by
  simp [twoMessages, Doc.Distinct, Doc.DistinctMembers, Doc.DistinctItems]

/-- How the path is read, and where it leads. -/
theorem reads_contents :
    patternOf "messages.*.content" = ["messages", "*", "content"] ∧
      processNegativeIndex splitValueLibs.toJsonLibs twoMessages "messages.*.content" =
        "messages.*.content" ∧
      pathsOf twoMessages "messages.*.content" =
        [["messages", "0", "content"], ["messages", "1", "content"]] ∧
      trimSpace (joinPath ["messages", "0", "content"]) ≠ "" ∧
      trimSpace (joinPath ["messages", "1", "content"]) ≠ "" := by
  decide +kernel

theorem deletable_twoMessages :
    ∀ segs ∈ pathsOf twoMessages "messages.*.content", Deletable segs := by
  obtain ⟨-, -, hpaths, hfirst, hsecond⟩ := reads_contents
  rw [hpaths, List.forall_mem_cons, List.forall_mem_singleton]
  exact ⟨⟨by decide, by decide, hfirst⟩, ⟨by decide, by decide, hsecond⟩⟩

/-- Both contents are quotations then. -/
theorem editOperation_twoMessages :
    (editOperation splitValueLibs (ensureStringAffix quoteOperation.value true) twoMessages
        quoteOperation.path).toOption =
      twoMessages.editMatches (changed (ensureStringAffix quoteOperation.value true))
        (patternOf "messages.*.content") :=
  editOperation_eq distinct_twoMessages reads_contents.2.1 (by decide)
    (by rw [reads_contents.1]; decide) (by rw [reads_contents.1]; decide) deletable_twoMessages

/-- Two messages, of which the last one has two parts. -/
def lastMessage (part : String) : Doc ℤ :=
  .obj [("messages", .arr [.obj [("content", .str "Hello")],
    .obj [("content", .arr [.obj [("text", .str part)], .obj [("text", .str "> Hello")]])]])]

theorem distinct_lastMessage : (lastMessage "Hi").Distinct := by
  simp [lastMessage, Doc.Distinct, Doc.DistinctMembers, Doc.DistinctItems]

theorem reads_texts :
    negativeIndexRegexp 0 "messages.-1.content.*.text".toList = [['-', '1']] ∧
      processNegativeIndex splitValueLibs.toJsonLibs (lastMessage "Hi")
        "messages.-1.content.*.text" = "messages.1.content.*.text" ∧
      patternOf "messages.1.content.*.text" = ["messages", "1", "content", "*", "text"] ∧
      pathsOf (lastMessage "Hi") "messages.1.content.*.text" =
        [["messages", "1", "content", "0", "text"], ["messages", "1", "content", "1", "text"]] ∧
      trimSpace (joinPath ["messages", "1", "content", "0", "text"]) ≠ "" ∧
      trimSpace (joinPath ["messages", "1", "content", "1", "text"]) ≠ "" := by
  decide +kernel

theorem deletable_lastMessage :
    ∀ segs ∈ pathsOf (lastMessage "Hi") "messages.1.content.*.text", Deletable segs := by
  obtain ⟨-, -, -, hpaths, hfirst, hsecond⟩ := reads_texts
  rw [hpaths, List.forall_mem_cons, List.forall_mem_singleton]
  exact ⟨⟨by decide, by decide, hfirst⟩, ⟨by decide, by decide, hsecond⟩⟩

theorem namesArrays_texts : NamesArrays splitValueLibs "messages.-1.content.*.text" := by
  intro negIndex hmem
  rw [reads_texts.1, List.mem_singleton] at hmem
  exact ⟨_, rfl⟩

/-- The parts of the last message are quoted, and no more than quotations when they are quoted
again. -/
theorem editOperation_lastMessage :
    resolveOperationPaths (lastMessage "> Hi")
        (processNegativeIndex splitValueLibs.toJsonLibs (lastMessage "> Hi")
          "messages.-1.content.*.text") =
      resolveOperationPaths (lastMessage "Hi")
        (processNegativeIndex splitValueLibs.toJsonLibs (lastMessage "Hi")
          "messages.-1.content.*.text") ∧
    editOperation splitValueLibs (ensureStringAffix quoteOperation.value true) (lastMessage "> Hi")
      "messages.-1.content.*.text" = .ok (lastMessage "> Hi") :=
  editOperation_twice distinct_lastMessage (by decide)
    (show editOf splitValueLibs quoteOperation = some _ from rfl) namesArrays_texts
    reads_texts.2.1 (by decide) (by rw [reads_texts.2.2.1]; decide)
    (by rw [reads_texts.2.2.1]; decide) deletable_lastMessage (by rfl)

end Sample

end NewApiPool.Relay
