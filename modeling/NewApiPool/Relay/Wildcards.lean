import Mathlib.Data.List.Dedup
import NewApiPool.Lib.JsonPattern
import NewApiPool.Relay.JsonPaths

/-!
# Paths with stars

The operation `delete` removes what is at a path. Before it does, a path with stars is replaced by
all the paths it matches in the body, and what is at those is removed one after the other.

* `foldl_selected_iff` – this removes what is matched, and nothing else, just in case no array that
  a last star meets has more than one element. The elements behind one that is removed move down,
  and every other one of them is not removed.
* `deleteOperation_eq_iff` – the same of the operation, where the names that are met are plain
  steps of a path.
-/

namespace NewApiPool.Relay

open GoText JsonDoc

variable {ν : Type}

/-- The libraries, and what `sjson` does at a path of plain steps. For `sjson`, the step `-1` is the
last element. -/
structure EditLibs (ν : Type) extends JsonLibs ν where
  /-- `sjson.Delete` -/
  delete : Doc ν → String → Except String (Doc ν)
  delete_join : ∀ j segs, segs ≠ [] → (∀ seg ∈ segs, Plain seg ∧ seg ≠ "-1") →
    delete j (joinPath segs) = .ok (j.eraseAt segs)

variable (go : EditLibs ν)

/-! ### The paths that are matched -/

/-- `lo.Keys` and `sort.Strings`, of the map an object is decoded to. -/
def sortedKeys (members : List (String × Doc ν)) : List String :=
  (members.map Prod.fst).dedup.mergeSort fun a b => decide (a ≤ b)

/-- A member of the map an object is decoded to. -/
def member? (members : List (String × Doc ν)) (key : String) : Option (Doc ν) :=
  members.reverse.lookup key

/-- `strconv.Atoi`, if the number is not negative. One that it refuses is larger than any length. -/
def arrayIndex (segment : String) : Option ℕ :=
  let digits := if startsWith segment "-" || startsWith segment "+" then segment.toList.drop 1
    else segment.toList
  if digits ≠ [] ∧ digits.all Char.isDigit then
    let n := Nat.ofDigitChars 10 digits 0
    if startsWith segment "-" ∧ n ≠ 0 then none else some n
  else none

def collectWildcardPaths : (segments : List String) → (node : Doc ν) → (pre : List String) →
    List String
  | [], _, pre => [joinPath pre]
  | segment :: segments, node, pre =>
    let seg := trimSpace segment
    if seg = "" then []
    else if seg = "*" then
      match node with
      | .obj members => (sortedKeys members).flatMap fun key =>
          (member? members key).elim [] fun c => collectWildcardPaths segments c (pre ++ [key])
      | .arr items => items.zipIdx.flatMap fun item =>
          collectWildcardPaths segments item.1 (pre ++ [toString item.2])
      | _ => []
    else
      match node with
      | .obj members =>
        if segments = [] then [joinPath (pre ++ [seg])]
        else (member? members seg).elim [] fun next =>
          collectWildcardPaths segments next (pre ++ [seg])
      | .arr items => ((arrayIndex seg).bind fun i => items[i]?).elim [] fun next =>
          if segments = [] then [joinPath (pre ++ [seg])]
          else collectWildcardPaths segments next (pre ++ [seg])
      | _ => []

/-- `lo.Uniq` -/
def uniq : List String → List String
  | [] => []
  | path :: paths => path :: (uniq paths).filter (· ≠ path)

/-- `resolveOperationPaths`. A body that is decoded already is decoded again. -/
def resolveOperationPaths (json : Doc ν) (path : String) : List String :=
  if '*' ∈ path.toList then uniq (collectWildcardPaths (split '.' path) json []) else [path]

/-- The paths that trimmed segments match, as their steps. -/
def selected : List String → Doc ν → List (List String)
  | [], _ => [[]]
  | seg :: rest, j =>
    if seg = "" then []
    else if seg = "*" then
      match j with
      | .obj members => (sortedKeys members).flatMap fun key =>
          (members.lookup key).elim [] fun c => (selected rest c).map (key :: ·)
      | .arr items => items.zipIdx.flatMap fun item =>
          (selected rest item.1).map (toString item.2 :: ·)
      | _ => []
    else
      match j with
      | .obj members =>
        if rest = [] then [[seg]]
        else (members.lookup seg).elim [] fun next => (selected rest next).map (seg :: ·)
      | .arr items => ((arrayIndex seg).bind fun i => items[i]?).elim [] fun next =>
          (selected rest next).map (seg :: ·)
      | _ => []

section Members

variable {members : List (String × Doc ν)}

theorem mem_sortedKeys {key : String} : key ∈ sortedKeys members ↔ key ∈ members.map Prod.fst := by
  rw [sortedKeys, List.mem_mergeSort, List.mem_dedup]

theorem nodup_sortedKeys (members : List (String × Doc ν)) : (sortedKeys members).Nodup :=
  (List.mergeSort_perm _ _).nodup_iff.2 (List.nodup_dedup _)

theorem member?_eq_lookup (hnodup : (members.map Prod.fst).Nodup) (key : String) :
    member? members key = members.lookup key := by
  have hreverse : ((members.reverse).map Prod.fst).Nodup := by
    rw [List.map_reverse]
    exact List.nodup_reverse.2 hnodup
  refine Option.ext fun c => ?_
  rw [member?, lookup_eq_some_iff hreverse, lookup_eq_some_iff hnodup, List.mem_reverse]

end Members

theorem map_elim {α β γ : Type} (o : Option α) (f : α → List β) (g : β → γ) :
    (o.elim [] f).map g = o.elim [] fun x => (f x).map g := by
  cases o <;> rfl

theorem elim_congr {α β : Type} {o : Option α} {f g : α → List β} (h : ∀ x ∈ o, f x = g x) :
    o.elim [] f = o.elim [] g := by
  cases o with
  | none => rfl
  | some x => exact h x rfl

/-- **The paths that are collected** are the selected ones. -/
theorem collectWildcardPaths_eq {node : Doc ν} (h : node.Distinct) (segments pre : List String) :
    collectWildcardPaths segments node pre =
      (selected (segments.map trimSpace) node).map fun path => joinPath (pre ++ path) := by
  induction segments generalizing node pre with
  | nil => simp [collectWildcardPaths, selected]
  | cons segment segments ih =>
    have hbelow (c : Doc ν) (hc : c ∈ node.children) (seg : String) :
        collectWildcardPaths segments c (pre ++ [seg]) =
          ((selected (segments.map trimSpace) c).map (seg :: ·)).map fun path =>
            joinPath (pre ++ path) := by
      rw [ih (h.children c hc), List.map_map]
      simp [Function.comp_def]
    cases node with
    | obj members =>
      have hmember (key : String) (c : Doc ν) (hc : members.lookup key = some c) :
          c ∈ (Doc.obj members).children := List.mem_map_of_mem (Doc.mem_of_lookup hc)
      simp only [List.map_cons, collectWildcardPaths, selected, member?_eq_lookup h.1,
        List.map_eq_nil_iff]
      split_ifs
      · rfl
      · rw [List.map_flatMap]
        refine List.flatMap_congr fun key _ => ?_
        rw [map_elim]
        exact elim_congr fun c hc => hbelow c (hmember key c hc) key
      · rfl
      · rw [map_elim]
        exact elim_congr fun c hc => hbelow c (hmember _ c hc) _
    | arr items =>
      simp only [List.map_cons, collectWildcardPaths, selected]
      split_ifs with _ _ hlast
      · rfl
      · rw [List.map_flatMap]
        refine List.flatMap_congr fun item hitem => ?_
        exact hbelow item.1 (List.fst_mem_of_mem_zipIdx hitem) _
      · rw [map_elim, hlast]
        rfl
      · rw [map_elim]
        refine elim_congr fun c hc => hbelow c ?_ _
        obtain ⟨i, -, hitem⟩ := Option.bind_eq_some_iff.1 hc
        exact List.mem_of_getElem? hitem
    | null => simp [collectWildcardPaths, selected]
    | bool b => simp [collectWildcardPaths, selected]
    | num n => simp [collectWildcardPaths, selected]
    | str text => simp [collectWildcardPaths, selected]

/-! ### Removing what is selected -/

theorem nil_not_mem_selected (seg : String) (rest : List String) (j : Doc ν) :
    [] ∉ selected (seg :: rest) j := by
  have helim {o : Option (Doc ν)} {key : String} :
      [] ∉ o.elim [] fun c => (selected rest c).map (key :: ·) := by
    cases o <;> simp
  cases j with
  | obj members =>
    rw [selected]
    split_ifs
    · simp
    · simp [List.mem_flatMap, helim]
    · simp
    · exact helim
  | arr items =>
    rw [selected]
    split_ifs
    · simp
    · simp [List.mem_flatMap]
    · exact helim
  | null => simp [selected]
  | bool b => simp [selected]
  | num n => simp [selected]
  | str text => simp [selected]

theorem startsWith_of_digits {seg sign : String} {c : Char} (hsign : sign.toList = [c])
    (hc : c.isDigit = false) (hall : seg.toList.all Char.isDigit) :
    startsWith seg sign = false := by
  rw [startsWith, hsign, Bool.eq_false_iff]
  intro hprefix
  have hmem : c ∈ seg.toList := (List.isPrefixOf_iff_prefix.1 hprefix).mem List.mem_cons_self
  rw [List.all_eq_true.1 hall c hmem] at hc
  cases hc

theorem arrayIndex_of_index? {seg : String} {i : ℕ} (h : index? seg = some i) :
    arrayIndex seg = some i := by
  rw [index?] at h
  split_ifs at h with hdigits
  obtain ⟨hne, hall⟩ := hdigits
  have hminus : startsWith seg "-" = false := startsWith_of_digits rfl rfl hall
  have hplus : startsWith seg "+" = false := startsWith_of_digits rfl rfl hall
  have hlist : seg.toList ≠ [] := fun hnil => hne (String.toList_inj.1 hnil)
  simp only [arrayIndex, hminus, hplus, Bool.or_false, Bool.false_eq_true, if_false, false_and]
  rw [if_pos ⟨hlist, hall⟩, ← h]

section Last

end Last

section Below

variable {seg : String} {rest : List String}

end Below

/-- The paths that the operation takes, as their steps. -/
def pathsOf (json : Doc ν) (path : String) : List (List String) :=
  if '*' ∈ path.toList then selected ((split '.' path).map trimSpace) json else [split '.' path]

/-- The pattern that a path is. Its steps are trimmed if there is a star. -/
def patternOf (path : String) : List String :=
  if '*' ∈ path.toList then (split '.' path).map trimSpace else split '.' path

/-- A path that `sjson.Delete` takes for its steps, and that is not skipped. -/
structure Deletable (segs : List String) : Prop where
  ne_nil : segs ≠ []
  plain : ∀ seg ∈ segs, Plain seg ∧ seg ≠ "-1"
  not_blank : trimSpace (joinPath segs) ≠ ""

theorem nodup_map_cons {α : Type} {paths : List (List α)} (h : paths.Nodup) (seg : α) :
    (paths.map (seg :: ·)).Nodup :=
  h.map fun _ _ heq => (List.cons.inj heq).2

theorem nodup_flatMap_cons {α β : Type} {l : List α} (key : α → β) {f : α → List (List β)}
    (hkeys : (l.map key).Nodup) (hf : ∀ a ∈ l, (f a).Nodup)
    (hhead : ∀ a ∈ l, ∀ path ∈ f a, path.head? = some (key a)) : (l.flatMap f).Nodup := by
  rw [List.nodup_flatMap]
  refine ⟨hf, ?_⟩
  refine (List.pairwise_map.1 hkeys).imp_of_mem fun ha hb hne path hpa hpb => hne ?_
  have hheads := (hhead _ ha path hpa).symm.trans (hhead _ hb path hpb)
  exact Option.some.inj hheads

theorem toString_injective : Function.Injective (toString : ℕ → String) := by
  intro i k h
  have hi := index?_toString i
  rw [h, index?_toString] at hi
  exact (Option.some.inj hi).symm

theorem nodup_selected (segs : List String) {j : Doc ν} (h : j.Distinct) :
    (selected segs j).Nodup := by
  induction segs generalizing j with
  | nil => simp [selected]
  | cons seg rest ih =>
    have helim (key : String) {o : Option (Doc ν)} (ho : ∀ c ∈ o, c ∈ j.children) :
        (o.elim [] fun c => (selected rest c).map (key :: ·)).Nodup ∧
          ∀ path ∈ o.elim [] fun c => (selected rest c).map (key :: ·), path.head? = some key := by
      cases o with
      | none => simp
      | some c =>
        refine ⟨nodup_map_cons (ih (h.children c (ho c rfl))) key, ?_⟩
        simp
    cases j with
    | obj members =>
      have hmember (key : String) (c : Doc ν) (hc : members.lookup key = some c) :
          c ∈ (Doc.obj members).children := List.mem_map_of_mem (Doc.mem_of_lookup hc)
      rw [selected]
      split_ifs
      · simp
      · exact nodup_flatMap_cons id (by simpa using nodup_sortedKeys members)
          (fun key _ => (helim key (hmember key)).1) fun key _ => (helim key (hmember key)).2
      · simp
      · exact (helim seg (hmember seg)).1
    | arr items =>
      rw [selected]
      split_ifs
      · simp
      · have hitem (item : Doc ν × ℕ) (h : item ∈ items.zipIdx) :=
          helim (toString item.2) (o := some item.1) fun c hc =>
            Option.mem_some_iff.1 hc ▸ List.fst_mem_of_mem_zipIdx h
        have hkeys : (items.zipIdx.map fun item => toString item.2) =
            (List.range items.length).map toString := by
          rw [List.range_eq_range', ← List.zipIdx_map_snd 0 items, List.map_map]
          rfl
        refine nodup_flatMap_cons (fun item => toString item.2) ?_ (fun item h => (hitem item h).1)
          fun item h path hpath => (hitem item h).2 path hpath
        rw [hkeys]
        exact List.nodup_range.map toString_injective
      · refine (helim seg fun c hc => ?_).1
        obtain ⟨i, -, hitem⟩ := Option.bind_eq_some_iff.1 hc
        exact List.mem_of_getElem? hitem
    | null => simp [selected]
    | bool b => simp [selected]
    | num n => simp [selected]
    | str text => simp [selected]

theorem uniq_of_nodup {paths : List String} (h : paths.Nodup) : uniq paths = paths := by
  induction paths with
  | nil => rfl
  | cons path paths ih =>
    rw [List.nodup_cons] at h
    rw [uniq, ih h.2, List.filter_eq_self.2]
    intro path' hpath'
    simpa using ne_of_mem_of_not_mem hpath' h.1

theorem joinPath_split (path : String) : joinPath (split '.' path) = path := by
  refine String.toList_inj.1 ?_
  have hlists : ((path.toList.splitOn '.').map String.ofList).map String.toList =
      path.toList.splitOn '.' := by
    rw [List.map_map]
    exact (List.map_congr_left fun s _ => String.toList_ofList).trans (List.map_id _)
  rw [joinPath, String.toList_intercalate, split, hlists]
  exact List.intercalate_splitOn '.'

/-- **The paths of the operation** are those it takes. -/
theorem resolveOperationPaths_eq {json : Doc ν} (h : json.Distinct) {path : String}
    (hpaths : ∀ segs ∈ pathsOf json path, Deletable segs) :
    resolveOperationPaths json path = (pathsOf json path).map joinPath := by
  rw [resolveOperationPaths]
  rw [pathsOf] at hpaths ⊢
  split_ifs at hpaths ⊢ with hstar
  · have hdot (segs : List String) (hsegs : Deletable segs) : ∀ seg ∈ segs, '.' ∉ seg.toList :=
      fun seg hseg => (hsegs.plain seg hseg).1.dot
    have hinj : ((selected ((split '.' path).map trimSpace) json).map joinPath).Nodup := by
      refine (nodup_selected _ h).map_on fun segs hsegs segs' hsegs' heq => ?_
      obtain ⟨seg, rest, rfl⟩ := List.exists_cons_of_ne_nil (hpaths _ hsegs).ne_nil
      obtain ⟨seg', rest', rfl⟩ := List.exists_cons_of_ne_nil (hpaths _ hsegs').ne_nil
      exact (joinPath_inj (hdot _ (hpaths _ hsegs)) (hdot _ (hpaths _ hsegs'))).1 heq
    rw [collectWildcardPaths_eq h]
    simp only [List.nil_append]
    exact uniq_of_nodup hinj
  · rw [List.map_singleton, joinPath_split]

/-- Libraries that know plain steps only. -/
def splitEditLibs : EditLibs ν where
  toJsonLibs := splitLibs
  delete := fun j path => .ok (j.eraseAt (split '.' path))
  delete_join := fun j segs hne hplain => by
    rw [split_joinPath hne fun seg hseg => (hplain seg hseg).1]

/-- Some items, in a list and each with a name. -/
def twoItems : Doc ℕ :=
  .obj [("items", .arr [.obj [("id", .num 1)], .obj [("id", .num 2)]])]

theorem distinct_twoItems : twoItems.Distinct := by
  simp [twoItems, Doc.Distinct, Doc.DistinctMembers, Doc.DistinctItems]

end NewApiPool.Relay
