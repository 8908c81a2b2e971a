import NewApiPool.Lib.GlobPath
import NewApiPool.Relay.Wildcards

/-!
# The paths that a path with stars stands for

`expandWildcardPaths` goes through a document and puts the names and indices it meets together to
paths, with dots between them. `gjson` and `sjson` read these paths again: a dot separates steps, a
backslash escapes, and `*` and `?` are patterns, of which the first member that fits is taken. The
names are not escaped. So a path leads where it was put together, and every place that is matched
has its path, just in case each name is a step of its own that its own member is the first to fit
(`NewApiPool.Relay.WildcardExpansion.expands_iff`).
-/

namespace NewApiPool.Relay.WildcardExpansion

open GoText JsonDoc GlobPath

variable {ν : Type}

/-- `expandWildcardPaths`, of a body that is decoded. -/
def expandWildcardPaths (json : Doc ν) (path : String) : List String :=
  uniq (collectWildcardPaths (split '.' path) json [])

/-- The segments of a path, as the walk takes them. -/
def segmentsOf (path : String) : List String := (split '.' path).map trimSpace

/-! ### Where a path leads -/

/-- What a step leads to: the first member that fits it, or the element of an index. -/
def take (step : Step) : Doc ν → Option (String × Doc ν)
  | .obj members => members.find? fun member => fits step member.1.toList
  | .arr items =>
    ((literal? step).bind fun s => index? (String.ofList s)).bind fun i =>
      items[i]?.map fun c => (toString i, c)
  | _ => none

/-- The member that a step would name if it were set. -/
def create (step : Step) : Doc ν → Option String
  | .obj _ => (literal? step).map String.ofList
  | _ => none

/-- **Where the steps lead**: the names and indices on the way. The last one may be a member that is
missing. -/
def designated : List Step → Doc ν → Option (List String)
  | [], _ => some []
  | step :: steps, j =>
    match take step j with
    | some (name, c) => (designated steps c).map (name :: ·)
    | none => if steps = [] then (create step j).map ([·]) else none

def leadsTo (json : Doc ν) (path : String) : Option (List String) :=
  designated (read false path.toList) json

/-! ### Where the walk was -/

/-- A step of the walk: a name, or an index as `Atoi` reads it. -/
def walk (seg : String) : Doc ν → Option (String × Doc ν)
  | .obj members => (members.lookup seg).map fun c => (seg, c)
  | .arr items => (arrayIndex seg).bind fun i => items[i]?.map fun c => (toString i, c)
  | _ => none

/-- The place that the walk came to. -/
def placeOf : List String → Doc ν → List String
  | [], _ => []
  | seg :: steps, j =>
    match walk seg j with
    | some (name, c) => name :: placeOf steps c
    | none => seg :: steps

/-- **The places that segments match**, a star every one. -/
def Matches : List String → Doc ν → List String → Prop
  | [], _, place => place = []
  | seg :: rest, .obj members, place => seg ≠ "" ∧ ∃ name c tail,
      place = name :: tail ∧ members.lookup name = some c ∧ (seg = "*" ∨ seg = name) ∧
        Matches rest c tail
  | seg :: rest, .arr items, place => seg ≠ "" ∧ ∃ i c tail,
      place = toString i :: tail ∧ items[i]? = some c ∧ (seg = "*" ∨ arrayIndex seg = some i) ∧
        Matches rest c tail
  | _ :: _, _, _ => False

/-- **The expansion is exact**: every path leads where it was put together, none is there twice, and
every place that is matched is that of one path. -/
structure Expands (json : Doc ν) (path : String) : Prop where
  leads : ∀ p ∈ expandWildcardPaths json path, ∀ steps ∈ selected (segmentsOf path) json,
    p = joinPath steps → leadsTo json p = some (placeOf steps json)
  nodup : (expandWildcardPaths json path).Nodup
  covers : ∀ place, Matches (segmentsOf path) json place →
    ∃! p, p ∈ expandWildcardPaths json path ∧ leadsTo json p = some place

/-! ### Where names are read back -/

def ownStep (seg : String) : Step := own seg.toList

/-- A name stands for itself: its member is the first to fit it, or it is missing and the name has
no patterns; an index is digits only. -/
def StandsFor (seg : String) : Doc ν → Prop
  | .obj members =>
    if (members.lookup seg).isSome then
      (members.find? fun member => fits (ownStep seg) member.1.toList).map Prod.fst = some seg
    else literal? (ownStep seg) = some seg.toList
  | .arr _ => (index? seg).isSome
  | _ => True

def AllStandFor : List String → Doc ν → Prop
  | [], _ => True
  | seg :: steps, j => StandsFor seg j ∧
    match walk seg j with
    | some (_, c) => AllStandFor steps c
    | none => True

instance : ∀ (seg : String) (j : Doc ν), Decidable (StandsFor seg j)
  | seg, .obj members => inferInstanceAs (Decidable (if (members.lookup seg).isSome then
      (members.find? fun member => fits (ownStep seg) member.1.toList).map Prod.fst = some seg
    else literal? (ownStep seg) = some seg.toList))
  | seg, .arr _ => inferInstanceAs (Decidable ((index? seg).isSome = true))
  | _, .null | _, .bool _ | _, .num _ | _, .str _ => instDecidableTrue

instance decidableAllStandFor : ∀ (steps : List String) (j : Doc ν),
    Decidable (AllStandFor steps j)
  | [], _ => instDecidableTrue
  | seg :: steps, j =>
    have : Decidable (match walk seg j with
        | some (_, c) => AllStandFor steps c
        | none => True) :=
      match walk seg j with
      | some (_, c) => decidableAllStandFor steps c
      | none => instDecidableTrue
    inferInstanceAs (Decidable (_ ∧ _))

/-- **The names of a walk are read back.** -/
structure ReadBack (json : Doc ν) (steps : List String) : Prop where
  separate : Separate (steps.map String.toList)
  standFor : AllStandFor steps json

/-! ### The walk -/

variable {j json c c' : Doc ν} {seg name : String} {rest steps : List String} {step : Step}
  {ps : List Step} {path : String}

/-- A walk that comes through, the last step to a member that may be missing. -/
def Walks : List String → Doc ν → Prop
  | [], _ => True
  | seg :: steps, j =>
    match walk seg j with
    | some (_, c) => Walks steps c
    | none => steps = [] ∧ ∃ members, j = .obj members

variable {i : ℕ}

theorem walk_toString {items : List (Doc ν)} (h : items[i]? = some c) :
    walk (toString i) (.arr items) = some (toString i, c) := by
  rw [walk, arrayIndex_of_index? (index?_toString i), Option.bind_some, h, Option.map_some]

theorem Walks.cons (h : walk seg j = some (name, c)) (hrest : Walks steps c) :
    Walks (seg :: steps) j := by
  rw [Walks, h]
  exact hrest

theorem placeOf_cons (h : walk seg j = some (name, c)) :
    placeOf (seg :: steps) j = name :: placeOf steps c := by
  rw [placeOf, h]

variable {segs : List String}

/-- **The first step of what is selected**: a star goes by the name of what it comes to, a name by
itself; and behind it the rest is selected, or a member is missing at the end. -/
theorem cases_of_mem_selected (h : steps ∈ selected (seg :: segs) j) :
    ∃ key tail, steps = key :: tail ∧
      (if seg = "*" then ∃ c, walk key j = some (key, c) else key = seg) ∧
      ((∃ name c, walk key j = some (name, c) ∧ tail ∈ selected segs c) ∨
        walk key j = none ∧ tail = [] ∧ ∃ members, j = .obj members) := by
  cases j with
  | obj members =>
    have hwalk {key : String} {c : Doc ν} (hc : members.lookup key = some c) :
        walk key (.obj members) = some (key, c) := congrArg (Option.map _) hc
    rw [selected] at h
    split_ifs at h with hblank hstar hsegs
    · cases h
    · obtain ⟨key, -, hkey⟩ := List.mem_flatMap.1 h
      cases hc : members.lookup key with
      | none =>
        rw [hc] at hkey
        cases hkey
      | some c =>
        rw [hc] at hkey
        obtain ⟨tail, htail, rfl⟩ := List.mem_map.1 hkey
        exact ⟨key, tail, rfl, if_pos hstar ▸ ⟨c, hwalk hc⟩, .inl ⟨key, c, hwalk hc, htail⟩⟩
    · obtain rfl := List.mem_singleton.1 h
      refine ⟨seg, [], rfl, if_neg hstar ▸ rfl, ?_⟩
      cases hc : members.lookup seg with
      | none => exact .inr ⟨congrArg (Option.map _) hc, rfl, members, rfl⟩
      | some c => exact .inl ⟨seg, c, hwalk hc, by rw [hsegs]; exact List.mem_singleton_self []⟩
    · cases hc : members.lookup seg with
      | none =>
        rw [hc] at h
        cases h
      | some c =>
        rw [hc] at h
        obtain ⟨tail, htail, rfl⟩ := List.mem_map.1 h
        exact ⟨seg, tail, rfl, if_neg hstar ▸ rfl, .inl ⟨seg, c, hwalk hc, htail⟩⟩
  | arr items =>
    rw [selected] at h
    split_ifs at h with hblank hstar
    · cases h
    · obtain ⟨item, hitem, hsteps⟩ := List.mem_flatMap.1 h
      obtain ⟨tail, htail, rfl⟩ := List.mem_map.1 hsteps
      have hwalk := walk_toString (List.mem_zipIdx_iff_getElem?.1 hitem)
      exact ⟨_, tail, rfl, if_pos hstar ▸ ⟨_, hwalk⟩, .inl ⟨_, _, hwalk, htail⟩⟩
    · cases hc : (arrayIndex seg).bind fun i => items[i]? with
      | none =>
        rw [hc] at h
        cases h
      | some c =>
        rw [hc] at h
        obtain ⟨tail, htail, rfl⟩ := List.mem_map.1 h
        obtain ⟨i, hi, hitem⟩ := Option.bind_eq_some_iff.1 hc
        have hwalk : walk seg (.arr items) = some (toString i, c) := by
          rw [walk, hi, Option.bind_some, hitem]
          rfl
        exact ⟨seg, tail, rfl, if_neg hstar ▸ rfl, .inl ⟨_, c, hwalk, htail⟩⟩
  | null | bool b | num n | str s => simp [selected] at h

/-- **What is selected is walked.** -/
theorem walks_of_mem_selected (h : steps ∈ selected segs j) :
    Walks steps j := by
  induction segs generalizing j steps with
  | nil =>
    obtain rfl := List.mem_singleton.1 h
    trivial
  | cons seg rest ih =>
    obtain ⟨key, tail, rfl, -, ⟨name, c, hwalk, htail⟩ | ⟨hwalk, rfl, hobj⟩⟩ :=
      cases_of_mem_selected h
    · exact Walks.cons hwalk (ih htail)
    · rw [Walks, hwalk]
      exact ⟨rfl, hobj⟩

/-- **Different walks** come to different places. -/
theorem placeOf_inj {steps' : List String} (h : steps ∈ selected segs j)
    (h' : steps' ∈ selected segs j) (heq : placeOf steps j = placeOf steps' j) :
    steps = steps' := by
  induction segs generalizing j steps steps' with
  | nil => exact (List.mem_singleton.1 h).trans (List.mem_singleton.1 h').symm
  | cons seg rest ih =>
    obtain ⟨key, tail, rfl, hkey, hrest⟩ := cases_of_mem_selected h
    obtain ⟨key', tail', rfl, hkey', hrest'⟩ := cases_of_mem_selected h'
    have hsame : key = key' := by
      by_cases hstar : seg = "*"
      · rw [if_pos hstar] at hkey hkey'
        obtain ⟨c, hwalk⟩ := hkey
        obtain ⟨c', hwalk'⟩ := hkey'
        rw [placeOf_cons hwalk, placeOf_cons hwalk'] at heq
        exact (List.cons.inj heq).1
      · rw [if_neg hstar] at hkey hkey'
        exact hkey.trans hkey'.symm
    subst hsame
    rcases hrest with ⟨name, c, hwalk, htail⟩ | ⟨hwalk, rfl, -⟩ <;>
      rcases hrest' with ⟨name', c', hwalk', htail'⟩ | ⟨hwalk', rfl, -⟩
    · obtain ⟨rfl, rfl⟩ := Prod.mk.inj (Option.some.inj (hwalk.symm.trans hwalk'))
      rw [placeOf_cons hwalk, placeOf_cons hwalk] at heq
      rw [ih htail htail' (List.cons.inj heq).2]
    · exact absurd (hwalk.symm.trans hwalk') (Option.some_ne_none _)
    · exact absurd (hwalk'.symm.trans hwalk) (Option.some_ne_none _)
    · rfl

/-- **A place that is matched** is walked to. -/
theorem exists_selected {place : List String} (h : Matches segs j place) :
    ∃ steps ∈ selected segs j, placeOf steps j = place := by
  induction segs generalizing j place with
  | nil => exact ⟨[], List.mem_singleton_self _, h.symm⟩
  | cons seg rest ih =>
    cases j with
    | obj members =>
      obtain ⟨hblank, name, c, tail, rfl, hc, hseg, htail⟩ := h
      obtain ⟨steps, hsteps, rfl⟩ := ih htail
      have hwalk : walk name (.obj members) = some (name, c) := congrArg (Option.map _) hc
      refine ⟨name :: steps, ?_, placeOf_cons hwalk⟩
      rw [selected, if_neg hblank]
      by_cases hstar : seg = "*"
      · rw [if_pos hstar, List.mem_flatMap]
        refine ⟨name, mem_sortedKeys.2 (List.mem_map_of_mem (Doc.mem_of_lookup hc)), ?_⟩
        rw [hc]
        exact List.mem_map_of_mem hsteps
      · obtain rfl := hseg.resolve_left hstar
        rw [if_neg hstar]
        split_ifs with hrest
        · subst hrest
          rw [List.mem_singleton.1 hsteps]
          exact List.mem_singleton_self _
        · rw [hc]
          exact List.mem_map_of_mem hsteps
    | arr items =>
      obtain ⟨hblank, i, c, tail, rfl, hc, hseg, htail⟩ := h
      obtain ⟨steps, hsteps, rfl⟩ := ih htail
      by_cases hstar : seg = "*"
      · refine ⟨toString i :: steps, ?_, placeOf_cons (walk_toString hc)⟩
        rw [selected, if_neg hblank, if_pos hstar, List.mem_flatMap]
        exact ⟨(c, i), List.mem_zipIdx_iff_getElem?.2 hc, List.mem_map_of_mem hsteps⟩
      · have hi := hseg.resolve_left hstar
        have hwalk : walk seg (.arr items) = some (toString i, c) := by
          rw [walk, hi, Option.bind_some, hc]
          rfl
        refine ⟨seg :: steps, ?_, placeOf_cons hwalk⟩
        rw [selected, if_neg hblank, if_neg hstar, hi, Option.bind_some, hc]
        exact List.mem_map_of_mem hsteps
    | null | bool b | num n | str s => exact h.elim

/-! ### One step -/

/-- A member that a name names, found by what names have, is the first of its name. -/
theorem lookup_of_find? {p : String → Bool} {members : List (String × Doc ν)}
    (h : members.find? (fun member => p member.1) = some (name, c)) :
    members.lookup name = some c := by
  induction members with
  | nil => cases h
  | cons member members ih =>
    obtain ⟨key, z⟩ := member
    rw [List.find?_cons] at h
    by_cases hkey : name = key
    · subst hkey
      cases hp : p name with
      | true =>
        rw [hp] at h
        cases h
        rw [List.lookup_cons, beq_self_eq_true]
      | false =>
        rw [hp] at h
        have hfits := List.find?_some h
        exact absurd (hfits.symm.trans hp) (by simp)
    · cases hp : p key with
      | true =>
        rw [hp] at h
        cases h
        exact absurd rfl hkey
      | false =>
        rw [hp] at h
        rw [List.lookup_cons, beq_false_of_ne hkey]
        exact ih h

/-- **A step that leads to the name the walk came to** leads to the same value. -/
theorem take_eq_of_walk (hwalk : walk seg j = some (name, c)) (h : take step j = some (name, c')) :
    c' = c := by
  cases j with
  | obj members =>
    obtain ⟨x, hx, heq⟩ := Option.map_eq_some_iff.1 hwalk
    cases heq
    exact Option.some.inj ((lookup_of_find? (p := fun key => fits step key.toList) h).symm.trans hx)
  | arr items =>
    obtain ⟨i, -, hitem⟩ := Option.bind_eq_some_iff.1 hwalk
    obtain ⟨i', -, hitem'⟩ := Option.bind_eq_some_iff.1 h
    obtain ⟨x, hx, heq⟩ := Option.map_eq_some_iff.1 hitem
    obtain ⟨x', hx', heq'⟩ := Option.map_eq_some_iff.1 hitem'
    cases heq
    obtain ⟨hname, rfl⟩ := Prod.mk.inj heq'
    obtain rfl := toString_injective hname
    exact Option.some.inj (hx'.symm.trans hx)
  | null | bool b | num n | str s => cases hwalk

theorem dots_of_index? {s : List Char} (h : index? (String.ofList s) = some i) :
    s.count '.' = 0 := by
  rw [index?] at h
  split_ifs at h with hdigits
  rw [String.toList_ofList] at hdigits
  exact List.count_eq_zero.2 fun hmem => Bool.false_ne_true (List.all_eq_true.1 hdigits.2 '.' hmem)

/-- **A step that leads on** has no more dots than the name the walk went by. -/
theorem dots_le_of_take (hwalk : walk seg j = some (name, c))
    (h : take step j = some (name, c')) : dots step ≤ seg.toList.count '.' := by
  cases j with
  | obj members =>
    obtain ⟨x, -, heq⟩ := Option.map_eq_some_iff.1 hwalk
    cases heq
    exact dots_le_of_fits
      (List.find?_some (p := fun member : String × Doc ν => fits step member.1.toList) h)
  | arr items =>
    obtain ⟨i, hi, -⟩ := Option.bind_eq_some_iff.1 h
    obtain ⟨s, hs, hindex⟩ := Option.bind_eq_some_iff.1 hi
    rw [literal?_eq_some_iff.1 hs, dots_map_char, dots_of_index? hindex]
    exact Nat.zero_le _
  | null | bool b | num n | str s => cases hwalk

theorem walk_of_create (hnone : take step j = none) (hcreate : create step j = some seg) :
    walk seg j = none := by
  cases j with
  | obj members =>
    obtain ⟨s, hs, rfl⟩ := Option.map_eq_some_iff.1 hcreate
    rw [walk, Option.map_eq_none_iff, lookup_eq_none_iff]
    intro hmem
    obtain ⟨member, hmember, hname⟩ := List.mem_map.1 hmem
    have hfits := List.find?_eq_none.1 hnone member hmember
    rw [literal?_eq_some_iff.1 hs, hname, fits_map_char, String.toList_ofList] at hfits
    exact hfits rfl
  | arr items => cases hcreate
  | null | bool b | num n | str s => cases hcreate

theorem create_ne (hwalk : walk seg j = some (name, c)) (hnone : take step j = none) :
    create step j ≠ some name := by
  intro hcreate
  cases j with
  | obj members =>
    obtain ⟨x, -, hx⟩ := Option.map_eq_some_iff.1 hwalk
    obtain ⟨rfl, rfl⟩ := Prod.mk.inj hx
    rw [walk_of_create hnone hcreate] at hwalk
    cases hwalk
  | arr items => cases hcreate
  | null | bool b | num n | str s => cases hwalk

/-! ### Several steps -/

theorem placeOf_ne_nil (seg : String) (steps : List String) (j : Doc ν) :
    placeOf (seg :: steps) j ≠ [] := by
  rw [placeOf]
  split <;> exact List.cons_ne_nil _ _

/-- **Where steps lead as the walk went**, none has more dots than its name. -/
theorem forall₂_of_designated (hwalks : Walks steps j)
    (h : designated ps j = some (placeOf steps j)) :
    List.Forall₂ (fun p k => dots p ≤ k.count '.') ps (steps.map String.toList) := by
  induction steps generalizing ps j with
  | nil =>
    cases ps with
    | nil => exact List.Forall₂.nil
    | cons p ps =>
      rw [designated, placeOf] at h
      cases htake : take p j with
      | none =>
        rw [htake] at h
        simp only at h
        split_ifs at h
        obtain ⟨name, -, hname⟩ := Option.map_eq_some_iff.1 h
        cases hname
      | some x =>
        rw [htake] at h
        obtain ⟨place, -, hplace⟩ := Option.map_eq_some_iff.1 h
        cases hplace
  | cons seg steps ih =>
    cases ps with
    | nil => exact absurd (Option.some.inj h).symm (placeOf_ne_nil _ _ _)
    | cons p ps =>
      rw [Walks] at hwalks
      rw [designated, placeOf] at h
      rw [List.map_cons, List.forall₂_cons]
      cases htake : take p j with
      | some x =>
        obtain ⟨name', c'⟩ := x
        rw [htake] at h
        obtain ⟨place, hplace, heq⟩ := Option.map_eq_some_iff.1 h
        cases hwalk : walk seg j with
        | some y =>
          obtain ⟨name, c⟩ := y
          rw [hwalk] at heq hwalks
          obtain ⟨rfl, rfl⟩ := List.cons.inj heq
          obtain rfl := take_eq_of_walk hwalk htake
          exact ⟨dots_le_of_take hwalk htake, ih hwalks hplace⟩
        | none =>
          rw [hwalk] at heq hwalks
          obtain ⟨rfl, members, rfl⟩ := hwalks
          obtain ⟨rfl, rfl⟩ := List.cons.inj heq
          have hlookup := lookup_of_find? (p := fun key => fits p key.toList) htake
          rw [walk, hlookup] at hwalk
          cases hwalk
      | none =>
        rw [htake] at h
        simp only at h
        split_ifs at h with hps
        subst hps
        obtain ⟨name, hname, heq⟩ := Option.map_eq_some_iff.1 h
        cases hwalk : walk seg j with
        | some y =>
          obtain ⟨name', c⟩ := y
          rw [hwalk] at heq
          obtain ⟨rfl, -⟩ := List.cons.inj heq
          exact absurd hname (create_ne hwalk htake)
        | none =>
          rw [hwalk] at heq hwalks
          obtain ⟨rfl, members, rfl⟩ := hwalks
          obtain ⟨rfl, -⟩ := List.cons.inj heq
          obtain ⟨s, hs, hname⟩ := Option.map_eq_some_iff.1 hname
          rw [literal?_eq_some_iff.1 hs, dots_map_char, ← hname, String.toList_ofList]
          exact ⟨Nat.le_refl _, List.Forall₂.nil⟩

theorem mem_of_arrayIndex {d : Char} (h : arrayIndex seg = some i) (hd : d ∈ seg.toList) :
    (d = '-' ∨ d = '+') ∨ d.isDigit = true := by
  rw [arrayIndex] at h
  dsimp only at h
  generalize hrest : (if startsWith seg "-" || startsWith seg "+" then seg.toList.drop 1
    else seg.toList) = digits at h
  split_ifs at h with hdigits
  have hall := List.all_eq_true.1 hdigits.2
  by_cases hsign : (startsWith seg "-" || startsWith seg "+") = true
  · rw [if_pos hsign] at hrest
    obtain ⟨sign, s, hs, hcases⟩ : ∃ sign s, seg.toList = sign :: s ∧
        (sign = '-' ∨ sign = '+') := by
      rcases Bool.or_eq_true _ _ ▸ hsign with hminus | hplus
      · obtain ⟨s, hs⟩ := List.isPrefixOf_iff_prefix.1 hminus
        exact ⟨'-', s, hs.symm, .inl rfl⟩
      · obtain ⟨s, hs⟩ := List.isPrefixOf_iff_prefix.1 hplus
        exact ⟨'+', s, hs.symm, .inr rfl⟩
    rw [hs] at hd hrest
    rcases List.mem_cons.1 hd with rfl | hd
    · exact .inl hcases
    · exact .inr (hall d (hrest ▸ hd))
  · rw [if_neg hsign] at hrest
    exact .inr (hall d (hrest ▸ hd))

theorem ownStep_of_arrayIndex (h : arrayIndex seg = some i) :
    ownStep seg = seg.toList.map .char := by
  have hchars : ∀ c ∈ seg.toList, c ∉ ['\\', '.', '*', '?'] := by
    intro c hc hspecial
    have hother : c.isDigit = false ∧ c ≠ '-' ∧ c ≠ '+' := by
      simp only [List.mem_cons, List.not_mem_nil, or_false] at hspecial
      rcases hspecial with rfl | rfl | rfl | rfl <;> decide
    obtain ⟨hdigit, hminus, hplus⟩ := hother
    refine absurd hdigit (Bool.not_eq_false _ ▸ ?_)
    rcases mem_of_arrayIndex h hc with hsign | hdigit'
    · exact absurd hsign (not_or.2 ⟨hminus, hplus⟩)
    · exact hdigit'
  rw [ownStep, own, read_of_forall hchars]
  rfl

theorem take_own_items {items : List (Doc ν)} (h : arrayIndex seg = some i) :
    take (ownStep seg) (.arr items) =
      (index? seg).bind fun i => items[i]?.map fun c => (toString i, c) := by
  rw [take, ownStep_of_arrayIndex h, literal?_eq_some_iff.2 rfl, Option.bind_some,
    String.ofList_toList]

/-- **A name leads as the walk went** just in case it stands for itself. -/
theorem take_own_iff (hwalk : walk seg j = some (name, c)) :
    take (ownStep seg) j = some (name, c) ↔ StandsFor seg j := by
  cases j with
  | obj members =>
    obtain ⟨x, hx, heq⟩ := Option.map_eq_some_iff.1 hwalk
    cases heq
    rw [StandsFor, hx, Option.isSome_some, if_pos rfl, take]
    refine ⟨fun h => by rw [h]; rfl, fun h => ?_⟩
    obtain ⟨⟨name, c'⟩, hfind, rfl⟩ := Option.map_eq_some_iff.1 h
    rw [hfind, take_eq_of_walk hwalk hfind]
  | arr items =>
    obtain ⟨i, hi, hitem⟩ := Option.bind_eq_some_iff.1 hwalk
    rw [take_own_items hi, StandsFor]
    cases hindex : index? seg with
    | none => simp
    | some i' =>
      obtain rfl := Option.some.inj (hi.symm.trans (arrayIndex_of_index? hindex))
      exact iff_of_true hitem rfl
  | null | bool b | num n | str s => cases hwalk

/-- A name that is missing is created just in case it has no patterns. -/
theorem designated_own_missing {members : List (String × Doc ν)}
    (hwalk : walk seg (.obj members) = none) :
    designated [ownStep seg] (.obj members) = some [seg] ↔ StandsFor seg (.obj members) := by
  have hmissing : members.lookup seg = none := Option.map_eq_none_iff.1 hwalk
  rw [StandsFor, hmissing, Option.isSome_none, if_neg Bool.false_ne_true, designated]
  cases htake : take (ownStep seg) (.obj members) with
  | none =>
    simp only [if_true, create, Option.map_map, Option.map_eq_some_iff]
    constructor
    · rintro ⟨s, hs, heq⟩
      rw [hs, ← (List.cons.inj heq).1, String.toList_ofList]
    · exact fun h => ⟨seg.toList, h, congrArg (fun name => [name]) String.ofList_toList⟩
  | some x =>
    obtain ⟨name, c⟩ := x
    have hlookup := lookup_of_find? (p := fun key => fits (ownStep seg) key.toList) htake
    refine iff_of_false (fun h => ?_) fun h => ?_
    · obtain ⟨place, -, heq⟩ := Option.map_eq_some_iff.1 h
      obtain ⟨rfl, -⟩ := List.cons.inj heq
      exact absurd (hmissing.symm.trans hlookup) (Option.some_ne_none _).symm
    · have hfits : fits (ownStep seg) name.toList = true :=
        List.find?_some (p := fun member : String × Doc ν =>
          fits (ownStep seg) member.1.toList) htake
      rw [literal?_eq_some_iff.1 h, fits_map_char, String.toList_inj] at hfits
      subst hfits
      exact absurd (hmissing.symm.trans hlookup) (Option.some_ne_none _).symm

theorem allStandFor_cons (h : walk seg j = some (name, c)) :
    AllStandFor (seg :: steps) j ↔ StandsFor seg j ∧ AllStandFor steps c := by
  rw [AllStandFor, h]

/-- **Names that are read one by one** lead as the walk went just in case each stands for itself. -/
theorem designated_own_iff (hwalks : Walks steps j) :
    designated (steps.map ownStep) j = some (placeOf steps j) ↔ AllStandFor steps j := by
  induction steps generalizing j with
  | nil => exact iff_of_true rfl trivial
  | cons seg steps ih =>
    rw [Walks] at hwalks
    cases hwalk : walk seg j with
    | some x =>
      obtain ⟨name, c⟩ := x
      rw [hwalk] at hwalks
      rw [allStandFor_cons hwalk, placeOf_cons hwalk, ← take_own_iff hwalk, ← ih hwalks,
        List.map_cons, designated]
      cases htake : take (ownStep seg) j with
      | none =>
        refine iff_of_false (fun h => ?_) fun h => absurd h.1 (Option.some_ne_none _).symm
        simp only at h
        split_ifs at h
        obtain ⟨name', hname, heq⟩ := Option.map_eq_some_iff.1 h
        obtain ⟨rfl, -⟩ := List.cons.inj heq
        exact create_ne hwalk htake hname
      | some y =>
        obtain ⟨name', c'⟩ := y
        simp only [Option.map_eq_some_iff, List.cons.injEq, Option.some_inj, Prod.mk.injEq]
        constructor
        · rintro ⟨place, hplace, rfl, rfl⟩
          obtain rfl := take_eq_of_walk hwalk htake
          exact ⟨⟨rfl, rfl⟩, hplace⟩
        · rintro ⟨⟨rfl, rfl⟩, hplace⟩
          exact ⟨_, hplace, rfl, rfl⟩
    | none =>
      rw [hwalk] at hwalks
      obtain ⟨rfl, members, rfl⟩ := hwalks
      rw [AllStandFor, hwalk, and_true, placeOf, hwalk]
      exact designated_own_missing hwalk

/-! ### The paths -/

theorem toList_joinPath_eq_join (steps : List String) :
    (joinPath steps).toList = join (steps.map String.toList) := by
  induction steps with
  | nil => rfl
  | cons seg steps ih =>
    rw [toList_joinPath]
    cases steps with
    | nil => exact List.append_nil _
    | cons seg' steps =>
      rw [List.map_cons, join_cons _ (by rw [List.map_cons]; exact List.cons_ne_nil _ _), ← ih,
        toList_joinPath]
      rfl

/-- **A path leads where it was put together** just in case its names are read back. -/
theorem leadsTo_iff (hne : steps ≠ []) (hwalks : Walks steps json) :
    leadsTo json (joinPath steps) = some (placeOf steps json) ↔ ReadBack json steps := by
  have hne' : steps.map String.toList ≠ [] := fun h => hne (List.map_eq_nil_iff.1 h)
  have hown (h : Separate (steps.map String.toList)) :
      read false (joinPath steps).toList = steps.map ownStep := by
    rw [toList_joinPath_eq_join, h.read_join hne', List.map_map]
    rfl
  rw [leadsTo]
  constructor
  · intro h
    have hforall := forall₂_of_designated hwalks h
    rw [toList_joinPath_eq_join] at hforall
    have hseparate := separate_of_forall₂ hforall
    rw [hown hseparate, designated_own_iff hwalks] at h
    exact ⟨hseparate, h⟩
  · rintro ⟨hseparate, hstand⟩
    rw [hown hseparate]
    exact (designated_own_iff hwalks).2 hstand

theorem mem_uniq {paths : List String} : path ∈ uniq paths ↔ path ∈ paths := by
  induction paths with
  | nil => exact Iff.rfl
  | cons p paths ih =>
    rw [uniq, List.mem_cons, List.mem_cons, List.mem_filter, ih, decide_eq_true_eq]
    by_cases hp : path = p
    · exact iff_of_true (.inl hp) (.inl hp)
    · rw [and_iff_left hp]

theorem nodup_uniq (paths : List String) : (uniq paths).Nodup := by
  induction paths with
  | nil => exact List.nodup_nil
  | cons p paths ih =>
    rw [uniq, List.nodup_cons]
    refine ⟨fun hmem => ?_, ih.filter _⟩
    exact of_decide_eq_true (List.mem_filter.1 hmem).2 rfl

theorem mem_expandWildcardPaths_iff (h : json.Distinct) {p : String} :
    p ∈ expandWildcardPaths json path ↔
      ∃ steps ∈ selected (segmentsOf path) json, p = joinPath steps := by
  rw [expandWildcardPaths, mem_uniq, collectWildcardPaths_eq h, List.mem_map]
  exact exists_congr fun steps => and_congr_right fun _ => eq_comm

theorem ne_nil_of_mem_segmentsOf (h : steps ∈ selected (segmentsOf path) json) : steps ≠ [] := by
  obtain ⟨seg, segs, hsegs⟩ := List.exists_cons_of_ne_nil (split_ne_nil '.' path)
  rintro rfl
  rw [segmentsOf, hsegs, List.map_cons] at h
  exact nil_not_mem_selected _ _ _ h

/-- **The expansion is exact** just in case the names of every walk are read back. -/
theorem expands_iff (h : json.Distinct) (path : String) :
    Expands json path ↔ ∀ steps ∈ selected (segmentsOf path) json, ReadBack json steps := by
  have hiff {steps : List String} (hsteps : steps ∈ selected (segmentsOf path) json) :=
    leadsTo_iff (ne_nil_of_mem_segmentsOf hsteps) (walks_of_mem_selected hsteps)
  constructor
  · intro hexpands steps hsteps
    have hmem := (mem_expandWildcardPaths_iff h).2 ⟨steps, hsteps, rfl⟩
    exact (hiff hsteps).1 (hexpands.leads _ hmem steps hsteps rfl)
  · intro hread
    refine ⟨?_, nodup_uniq _, fun place hplace => ?_⟩
    · rintro p - steps hsteps rfl
      exact (hiff hsteps).2 (hread steps hsteps)
    · obtain ⟨steps, hsteps, rfl⟩ := exists_selected hplace
      refine ⟨joinPath steps, ⟨(mem_expandWildcardPaths_iff h).2 ⟨steps, hsteps, rfl⟩,
        (hiff hsteps).2 (hread steps hsteps)⟩, ?_⟩
      rintro p ⟨hp, hleads⟩
      obtain ⟨steps', hsteps', rfl⟩ := (mem_expandWildcardPaths_iff h).1 hp
      have hleads' := (hiff hsteps').2 (hread steps' hsteps')
      rw [placeOf_inj hsteps hsteps' (Option.some.inj (hleads.symm.trans hleads'))]

theorem expands_twoItems : Expands twoItems "items.*.id" := by
  refine (expands_iff distinct_twoItems "items.*.id").2 fun steps hsteps => ?_
  have hselected : selected (segmentsOf "items.*.id") twoItems =
      [["items", "0", "id"], ["items", "1", "id"]] := by
    decide +kernel
  rw [hselected, List.mem_cons, List.mem_singleton] at hsteps
  rcases hsteps with rfl | rfl
  · exact ⟨⟨by decide +kernel, by decide +kernel⟩, by decide +kernel⟩
  · exact ⟨⟨by decide +kernel, by decide +kernel⟩, by decide +kernel⟩

/-- A name with a dot, as the model `gpt-4.1`. -/
def dottedName : Doc ℕ := .obj [("gpt-4.1", .num 1)]

theorem distinct_dottedName : dottedName.Distinct := by
  simp [dottedName, Doc.Distinct, Doc.DistinctMembers]

/-- **A name with a dot** is read as two steps. -/
theorem not_expands_dottedName :
    ¬∀ (json : Doc ℕ) (path : String), json.Distinct → Expands json path := by
  intro h
  have hleads := (h dottedName "*" distinct_dottedName).leads "gpt-4.1" (by decide +kernel)
    ["gpt-4.1"] (by decide +kernel) (by decide +kernel)
  have hnone : leadsTo dottedName "gpt-4.1" = none := by decide +kernel
  rw [hnone] at hleads
  cases hleads

end NewApiPool.Relay.WildcardExpansion
