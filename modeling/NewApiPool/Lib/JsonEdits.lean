import Mathlib.Data.List.Forall2
import NewApiPool.Lib.JsonPattern
import NewApiPool.Lib.JsonPlaces

/-!
# Changing what a pattern matches

A change of values may fail, and then nothing is changed. `Doc.editMatches` changes all values that
a pattern matches at once. The paths that begin with one step are changed as the paths below it
(`foldlM_editAt_cons`), so that this is what comes out where the values at them are changed one
after the other.

Two changes at one pattern are one (`editMatches_editMatches`), so that a change which does nothing
more the second time does nothing more at any pattern (`editMatches_twice`). A change that leaves
the lengths of arrays leaves them at every path (`lengthAt_editMatches`).
-/

namespace JsonDoc

section Lists

variable {α β γ : Type}

theorem forall₂_of_mapM {f : α → Option β} {l : List α} {bs : List β} (h : l.mapM f = some bs) :
    List.Forall₂ (fun a b => f a = some b) l bs := by
  induction l generalizing bs with
  | nil =>
    obtain rfl := Option.some.inj h
    exact .nil
  | cons a l ih =>
    rw [List.mapM_cons] at h
    obtain ⟨b, hb, h⟩ := Option.bind_eq_some_iff.mp h
    obtain ⟨bs', hbs, h⟩ := Option.bind_eq_some_iff.mp h
    obtain rfl := Option.some.inj h
    exact .cons hb (ih hbs)

theorem map_eq_of_forall₂ {F : α → γ} {G : β → γ} {l : List α} {bs : List β}
    (h : List.Forall₂ (fun a b => G b = F a) l bs) : bs.map G = l.map F := by
  induction h with
  | nil => rfl
  | cons hb _ ih => rw [List.map_cons, List.map_cons, hb, ih]

/-- Under the same names there are the same values of a function. -/
theorem lookup_map_eq_of_forall₂ {F : α → γ} {members members' : List (String × α)}
    (h : List.Forall₂ (fun m m' : String × α => m'.1 = m.1 ∧ F m'.2 = F m.2) members members')
    (key : String) : (members'.lookup key).map F = (members.lookup key).map F := by
  induction h with
  | nil => rfl
  | @cons m m' _ _ hm _ ih =>
    obtain ⟨name, c⟩ := m
    obtain ⟨name', c'⟩ := m'
    obtain ⟨rfl, hc⟩ := hm
    rw [List.lookup_cons, List.lookup_cons]
    cases key == name' with
    | false => exact ih
    | true => exact congrArg some hc

theorem bind_eq_of_map_eq {F : α → Option γ} {o o' : Option α} (h : o.map F = o'.map F) :
    o.bind F = o'.bind F := by
  cases o with
  | none =>
    cases o' with
    | none => rfl
    | some b => cases h
  | some a =>
    cases o' with
    | none => cases h
    | some b => exact Option.some.inj h

theorem mapM_mapM (f : α → Option β) (g : β → Option γ) (l : List α) :
    ((l.mapM f).bind fun bs => bs.mapM g) = l.mapM fun a => (f a).bind g := by
  induction l with
  | nil => rfl
  | cons a l ih =>
    rw [List.mapM_cons, List.mapM_cons, ← ih]
    cases f a with
    | none => rfl
    | some b =>
      cases l.mapM f with
      | none =>
        change none = (g b).bind fun _ => none
        cases g b <;> rfl
      | some bs => exact List.mapM_cons

end Lists

namespace Doc

variable {ν : Type} {f g : Doc ν → Option (Doc ν)} {j j' c c' : Doc ν} {seg : String}

/-- Every value one step into another is changed. -/
def mapChildren? (f : Doc ν → Option (Doc ν)) : Doc ν → Option (Doc ν)
  | .arr items => (items.mapM f).map arr
  | .obj members => (members.mapM fun member => (f member.2).map (Prod.mk member.1)).map obj
  | j => some j

/-- The value at a path is changed. -/
def editAt (f : Doc ν → Option (Doc ν)) : List String → Doc ν → Option (Doc ν)
  | [], j => f j
  | seg :: rest, j => (j.child seg).bind fun c => (editAt f rest c).map (j.replace seg)

def isObj : Doc ν → Bool
  | .obj _ => true
  | _ => false

/-- **Every value that a pattern matches is changed.** A name that an object does not have cannot
be changed there. -/
def editMatches (f : Doc ν → Option (Doc ν)) : List String → Doc ν → Option (Doc ν)
  | [], j => f j
  | seg :: rest, j =>
    if seg = "*" then j.mapChildren? (editMatches f rest)
    else
      match j.child seg with
      | some c => (editMatches f rest c).map (j.replace seg)
      | none => if rest = [] ∧ j.isObj then none else some j

/-! ### One path after the other -/

/-- Paths that begin with the same step change the value it leads to. -/
theorem foldlM_editAt_cons (paths : List (List String)) (hchild : j.child seg = some c) :
    (paths.map (seg :: ·)).foldlM (fun j path => editAt f path j) j =
      (paths.foldlM (fun c path => editAt f path c) c).map (j.replace seg) := by
  induction paths generalizing j c with
  | nil => exact congrArg some (replace_child hchild).symm
  | cons path paths ih =>
    rw [List.map_cons, List.foldlM_cons, List.foldlM_cons, editAt, hchild, Option.bind_some]
    cases editAt f path c with
    | none => rfl
    | some c' =>
      refine (ih (child_replace hchild)).trans ?_
      refine congrArg (fun h => Option.map h _) (funext fun c'' => ?_)
      exact replace_replace

/-! ### Changes one after the other -/

theorem mapChildren?_mapChildren? (j : Doc ν) :
    ((j.mapChildren? f).bind fun j' => j'.mapChildren? g) =
      j.mapChildren? fun c => (f c).bind g := by
  cases j with
  | arr items =>
    rw [mapChildren?, mapChildren?, ← mapM_mapM]
    cases items.mapM f <;> rfl
  | obj members =>
    have hpair : (fun member : String × Doc ν =>
        ((f member.2).bind g).map (Prod.mk member.1)) = fun member =>
          ((f member.2).map (Prod.mk member.1)).bind fun member' =>
            (g member'.2).map (Prod.mk member'.1) := by
      funext member
      cases f member.2 <;> rfl
    rw [mapChildren?, mapChildren?, hpair, ← mapM_mapM]
    cases members.mapM fun member => (f member.2).map (Prod.mk member.1) <;> rfl
  | null | bool b | num n | str s => rfl

theorem isObj_replace : (j.replace seg c).isObj = j.isObj := by
  cases j with
  | arr items => cases hi : index? seg <;> simp only [replace, hi] <;> rfl
  | obj members | null | bool b | num n | str s => rfl

/-- **Two changes at one pattern are one.** -/
theorem editMatches_editMatches (segs : List String) (j : Doc ν) :
    ((j.editMatches f segs).bind fun j' => j'.editMatches g segs) =
      j.editMatches (fun c => (f c).bind g) segs := by
  induction segs generalizing j with
  | nil => rfl
  | cons seg rest ih =>
    by_cases hstar : seg = "*"
    · simp only [editMatches, if_pos hstar]
      rw [mapChildren?_mapChildren?]
      exact congrArg (fun h => mapChildren? h j) (funext ih)
    · cases hchild : j.child seg with
      | none =>
        simp only [editMatches, if_neg hstar, hchild]
        split_ifs with hlast
        · rfl
        · rw [Option.bind_some]
          simp only [hchild, if_neg hlast]
      | some c =>
        simp only [editMatches, if_neg hstar, hchild]
        -- what the second edit meets is what the first one has put there
        rw [← ih c]
        cases c.editMatches f rest with
        | none => rfl
        | some c' =>
          rw [Option.map_some, Option.bind_some, Option.bind_some]
          simp only [child_replace hchild]
          exact congrArg (fun h => Option.map h _) (funext fun c'' => replace_replace)

section Distinct

theorem distinct_replace (h : j.Distinct) (hc : c.Distinct) : (j.replace seg c).Distinct := by
  cases j with
  | arr items =>
    cases hi : index? seg with
    | none =>
      rw [replace, hi]
      exact h
    | some i =>
      rw [replace, hi]
      refine distinctItems_iff.mpr fun item hitem => ?_
      rcases List.mem_or_eq_of_mem_set hitem with hitem | rfl
      · exact distinctItems_iff.mp h item hitem
      · exact hc
  | obj members =>
    rw [replace, Distinct, map_fst_replaceMember]
    refine ⟨h.1, distinctMembers_iff.mpr fun member hmember => ?_⟩
    rw [replaceMember_eq_map h.1] at hmember
    obtain ⟨old, hold, rfl⟩ := List.mem_map.mp hmember
    split
    · exact hc
    · exact distinctMembers_iff.mp h.2 old hold
  | null | bool b | num n | str s => exact h

/-- The members of an object, each with its value changed. -/
theorem forall₂_of_mapChildren? {members : List (String × Doc ν)}
    (h : (obj members).mapChildren? f = some j') :
    ∃ members', j' = obj members' ∧
      List.Forall₂ (fun m m' : String × Doc ν => m'.1 = m.1 ∧ f m.2 = some m'.2)
        members members' := by
  obtain ⟨members', hmembers, rfl⟩ := Option.map_eq_some_iff.mp h
  refine ⟨members', rfl, (forall₂_of_mapM hmembers).imp fun m m' hm => ?_⟩
  obtain ⟨c', hc', rfl⟩ := Option.map_eq_some_iff.mp hm
  exact ⟨rfl, hc'⟩

theorem distinct_editMatches (hf : ∀ c c', c.Distinct → f c = some c' → c'.Distinct)
    {segs : List String} (hj : j.Distinct) (h : j.editMatches f segs = some j') : j'.Distinct := by
  induction segs generalizing j j' with
  | nil => exact hf j j' hj h
  | cons seg rest ih =>
    rw [editMatches] at h
    by_cases hstar : seg = "*"
    · rw [if_pos hstar] at h
      cases j with
      | arr items =>
        obtain ⟨items', hitems, rfl⟩ := Option.map_eq_some_iff.mp h
        have hall := forall₂_of_mapM hitems
        have hold := distinctItems_iff.mp hj
        refine distinctItems_iff.mpr ?_
        clear h hitems hj
        induction hall with
        | nil => exact hold
        | cons hitem _ ihitems =>
          rw [List.forall_mem_cons] at hold ⊢
          exact ⟨ih hold.1 hitem, ihitems hold.2⟩
      | obj members =>
        obtain ⟨members', rfl, hall⟩ := forall₂_of_mapChildren? h
        obtain ⟨hnodup, hold⟩ := hj
        rw [distinctMembers_iff] at hold
        rw [Distinct, distinctMembers_iff, map_eq_of_forall₂ (hall.imp fun _ _ hm => hm.1)]
        refine ⟨hnodup, ?_⟩
        clear h hnodup
        induction hall with
        | nil => exact hold
        | cons hmember _ ihmembers =>
          rw [List.forall_mem_cons] at hold ⊢
          exact ⟨ih hold.1 hmember.2, ihmembers hold.2⟩
      | null | bool b | num n | str s =>
        obtain rfl := Option.some.inj h
        exact hj
    · rw [if_neg hstar] at h
      cases hchild : j.child seg with
      | none =>
        simp only [hchild] at h
        split_ifs at h
        obtain rfl := Option.some.inj h
        exact hj
      | some c =>
        simp only [hchild] at h
        obtain ⟨c', hc', rfl⟩ := Option.map_eq_some_iff.mp h
        exact distinct_replace hj (ih (hj.children c (mem_children hchild)) hc')

end Distinct

/-! ### Lengths -/

/-- How many elements the array at a path has. -/
def lengthAt (j : Doc ν) (path : List String) : Option ℕ :=
  (j.getAt path).bind fun c =>
    match c with
    | .arr items => some items.length
    | _ => none

theorem lengthAt_cons (j : Doc ν) (seg : String) (path : List String) :
    j.lengthAt (seg :: path) = (j.child seg).bind fun c => c.lengthAt path := by
  rw [lengthAt, getAt, Option.bind_assoc]
  rfl

theorem lengthAt_str (s : String) (path : List String) :
    (str s : Doc ν).lengthAt path = none := by
  cases path <;> rfl

theorem lengthAt_arr {items items' : List (Doc ν)}
    (h : List.Forall₂ (fun c c' : Doc ν => c'.lengthAt = c.lengthAt) items items') :
    (arr items').lengthAt = (arr items).lengthAt := by
  funext path
  cases path with
  | nil => exact congrArg some h.length_eq.symm
  | cons seg path =>
    have hmap : items'.map (fun c => c.lengthAt path) = items.map fun c => c.lengthAt path :=
      map_eq_of_forall₂ (h.imp fun _ _ hc => congrFun hc path)
    rw [lengthAt_cons, lengthAt_cons, child, child]
    cases index? seg with
    | none => rfl
    | some i =>
      refine bind_eq_of_map_eq ?_
      rw [Option.bind_some, Option.bind_some, ← List.getElem?_map, hmap, List.getElem?_map]

/-- Members with the same names and the same lengths in them. -/
theorem lengthAt_obj {members members' : List (String × Doc ν)}
    (h : List.Forall₂ (fun m m' : String × Doc ν => m'.1 = m.1 ∧ m'.2.lengthAt = m.2.lengthAt)
      members members') :
    (obj members').lengthAt = (obj members).lengthAt := by
  funext path
  cases path with
  | nil => rfl
  | cons seg path =>
    rw [lengthAt_cons, lengthAt_cons, child, child]
    exact bind_eq_of_map_eq
      (lookup_map_eq_of_forall₂ (h.imp fun _ _ hm => ⟨hm.1, congrFun hm.2 path⟩) seg)

/-- A value that is replaced by one with the same lengths in it. -/
theorem lengthAt_replace (hchild : j.child seg = some c) (h : c'.lengthAt = c.lengthAt) :
    (j.replace seg c').lengthAt = j.lengthAt := by
  funext path
  cases path with
  | nil =>
    cases j with
    | arr items =>
      cases hi : index? seg with
      | none =>
        simp only [replace, hi]
        rfl
      | some i =>
        simp only [replace, hi]
        exact congrArg some List.length_set
    | obj members | null | bool b | num n | str s => rfl
  | cons seg' path =>
    rw [lengthAt_cons, lengthAt_cons]
    by_cases hslot : j.slot seg = j.slot seg'
    · have hslot' : (j.replace seg c').slot seg = (j.replace seg c').slot seg' := by
        rwa [slot_replace]
      rw [← child_congr hslot, ← child_congr hslot', hchild, child_replace hchild,
        Option.bind_some, Option.bind_some, h]
    · rw [child_replace_of_slot_ne hslot]

/-- **A change that leaves the lengths of arrays** leaves them at every path. -/
theorem lengthAt_editMatches (hf : ∀ c c', f c = some c' → c'.lengthAt = c.lengthAt)
    {segs : List String} (h : j.editMatches f segs = some j') : j'.lengthAt = j.lengthAt := by
  induction segs generalizing j j' with
  | nil => exact hf j j' h
  | cons seg rest ih =>
    rw [editMatches] at h
    by_cases hstar : seg = "*"
    · rw [if_pos hstar] at h
      cases j with
      | arr items =>
        obtain ⟨items', hitems, rfl⟩ := Option.map_eq_some_iff.mp h
        exact lengthAt_arr ((forall₂_of_mapM hitems).imp fun _ _ hc => ih hc)
      | obj members =>
        obtain ⟨members', rfl, hall⟩ := forall₂_of_mapChildren? h
        exact lengthAt_obj (hall.imp fun _ _ hm => ⟨hm.1, ih hm.2⟩)
      | null | bool b | num n | str s =>
        obtain rfl := Option.some.inj h
        rfl
    · rw [if_neg hstar] at h
      cases hchild : j.child seg with
      | none =>
        simp only [hchild] at h
        split_ifs at h
        obtain rfl := Option.some.inj h
        rfl
      | some c =>
        simp only [hchild] at h
        obtain ⟨c', hc', rfl⟩ := Option.map_eq_some_iff.mp h
        exact lengthAt_replace hchild (ih hc')

theorem editMatches_twice (hf : ∀ c c', f c = some c' → f c' = some c') {segs : List String}
    (h : j.editMatches f segs = some j') : j'.editMatches f segs = some j' := by
  have htwice : (fun c => (f c).bind f) = f := by
    funext c
    cases hc : f c with
    | none => rfl
    | some c' => exact hf c c' hc
  have hone := editMatches_editMatches (f := f) (g := f) segs j
  rwa [htwice, h, Option.bind_some] at hone

end Doc

end JsonDoc
