import Mathlib.Data.List.Sort
import NewApiPool.Lib.Json

/-!
# Changes all over a JSON value

What is done to a value and to all that is in it: its numbers are changed (`Doc.mapNum`), the
members of its objects are sorted (`Doc.sorted`), or what is at some places is removed
(`Doc.removeAll`). A change of the numbers commutes with the other two, and it leaves a value as it
is just in case it leaves each of its numbers (`Doc.mapNum_eq_self_iff`).
-/

namespace JsonDoc.Doc

variable {ν : Type} {j c : Doc ν} {S S' : List String → Prop} {path : List String} {f : ν → ν}

/-! ### Induction -/

theorem sizeOf_lt_of_mem_children (h : c ∈ j.children) : sizeOf c < sizeOf j := by
  cases j with
  | arr items =>
    have hlt := List.sizeOf_lt_of_mem (show c ∈ items from h)
    rw [arr.sizeOf_spec]
    omega
  | obj members =>
    obtain ⟨member, hmember, rfl⟩ := List.mem_map.1 h
    have hlt := List.sizeOf_lt_of_mem hmember
    obtain ⟨key, value⟩ := member
    rw [Prod.mk.sizeOf_spec] at hlt
    rw [obj.sizeOf_spec]
    change sizeOf value < _
    omega
  | null | bool b | num n | str s => exact absurd h List.not_mem_nil

/-- **Induction over a value**: what holds of a value when it holds of those one step into it. -/
theorem induct_children {P : Doc ν → Prop} (step : ∀ j, (∀ c ∈ j.children, P c) → P j)
    (j : Doc ν) : P j :=
  step j fun c _ => induct_children step c
termination_by sizeOf j
decreasing_by exact sizeOf_lt_of_mem_children ‹_›

/-! ### Numbers -/

mutual

/-- Every number is changed. -/
def mapNum (f : ν → ν) : Doc ν → Doc ν
  | .num n => .num (f n)
  | .arr items => .arr (mapNumItems f items)
  | .obj members => .obj (mapNumMembers f members)
  | .null => .null
  | .bool b => .bool b
  | .str s => .str s

def mapNumItems (f : ν → ν) : List (Doc ν) → List (Doc ν)
  | [] => []
  | item :: items => item.mapNum f :: mapNumItems f items

def mapNumMembers (f : ν → ν) : List (String × Doc ν) → List (String × Doc ν)
  | [] => []
  | (key, value) :: members => (key, value.mapNum f) :: mapNumMembers f members

end

mutual

/-- The numbers in a value. -/
def numbers : Doc ν → List ν
  | .num n => [n]
  | .arr items => numbersItems items
  | .obj members => numbersMembers members
  | .null | .bool _ | .str _ => []

def numbersItems : List (Doc ν) → List ν
  | [] => []
  | item :: items => item.numbers ++ numbersItems items

def numbersMembers : List (String × Doc ν) → List ν
  | [] => []
  | (_, value) :: members => value.numbers ++ numbersMembers members

end

theorem mapNumItems_eq (f : ν → ν) (items : List (Doc ν)) :
    mapNumItems f items = items.map (mapNum f) := by
  induction items with
  | nil => rfl
  | cons item items ih => rw [mapNumItems, ih, List.map_cons]

theorem mapNumMembers_eq (f : ν → ν) (members : List (String × Doc ν)) :
    mapNumMembers f members = members.map fun member => (member.1, member.2.mapNum f) := by
  induction members with
  | nil => rfl
  | cons member members ih => rw [mapNumMembers, ih, List.map_cons]

theorem numbersItems_eq (items : List (Doc ν)) : numbersItems items = items.flatMap numbers := by
  induction items with
  | nil => rfl
  | cons item items ih => rw [numbersItems, ih, List.flatMap_cons]

theorem numbersMembers_eq (members : List (String × Doc ν)) :
    numbersMembers members = members.flatMap fun member => member.2.numbers := by
  induction members with
  | nil => rfl
  | cons member members ih => rw [numbersMembers, ih, List.flatMap_cons]

theorem mapNum_arr (f : ν → ν) (items : List (Doc ν)) :
    (arr items).mapNum f = arr (items.map (mapNum f)) := by
  rw [mapNum, mapNumItems_eq]

theorem mapNum_obj (f : ν → ν) (members : List (String × Doc ν)) :
    (obj members).mapNum f = obj (members.map fun member => (member.1, member.2.mapNum f)) := by
  rw [mapNum, mapNumMembers_eq]

theorem map_eq_self_iff {α : Type} {g : α → α} {l : List α} : l.map g = l ↔ ∀ a ∈ l, g a = a := by
  conv_lhs => rw [← List.map_id l, List.map_map]
  exact List.map_inj_left

/-- **A change of numbers changes nothing** when it leaves each number. -/
theorem mapNum_eq_self_iff : j.mapNum f = j ↔ ∀ n ∈ j.numbers, f n = n := by
  induction j using induct_children with
  | step j ih =>
    cases j with
    | arr items =>
      rw [mapNum_arr, numbers, numbersItems_eq, arr.injEq, map_eq_self_iff]
      simp only [List.mem_flatMap, forall_exists_index, and_imp]
      rw [forall_comm]
      exact forall_congr' fun item => ⟨fun h n hitem => (ih item hitem).1 (h hitem) n,
        fun h hitem => (ih item hitem).2 fun n => h n hitem⟩
    | obj members =>
      rw [mapNum_obj, numbers, numbersMembers_eq, obj.injEq, map_eq_self_iff]
      simp only [List.mem_flatMap, forall_exists_index, and_imp]
      rw [forall_comm]
      refine forall_congr' fun member => ?_
      have hchild (hmember : member ∈ members) := ih member.2 (List.mem_map_of_mem hmember)
      refine ⟨fun h n hmember => (hchild hmember).1 (congrArg Prod.snd (h hmember)) n,
        fun h hmember => Prod.ext rfl ((hchild hmember).2 fun n => h n hmember)⟩
    | num n =>
      rw [mapNum, numbers, num.injEq, List.forall_mem_singleton]
    | null | bool b | str s => exact iff_of_true rfl fun n hn => absurd hn List.not_mem_nil

theorem child_mapNum (j : Doc ν) (seg : String) :
    (j.mapNum f).child seg = (j.child seg).map (mapNum f) := by
  cases j with
  | arr items =>
    rw [mapNum_arr, child, child, Option.map_bind]
    refine congrArg _ (funext fun i => List.getElem?_map ..)
  | obj members =>
    rw [mapNum_obj, child, child]
    exact lookup_map (fun _ => mapNum f) members
  | null | bool b | num n | str s => rfl

/-- **A change of numbers** is one at every path. -/
theorem getAt_mapNum (j : Doc ν) (path : List String) :
    (j.mapNum f).getAt path = (j.getAt path).map (mapNum f) := by
  induction path generalizing j with
  | nil => rfl
  | cons seg path ih =>
    rw [getAt, getAt, child_mapNum]
    cases j.child seg with
    | none => rfl
    | some c => exact ih c

theorem Distinct.mapNum (h : j.Distinct) : (j.mapNum f).Distinct := by
  induction j using induct_children with
  | step j ih =>
    cases j with
    | arr items =>
      rw [mapNum_arr, Distinct, distinctItems_iff, List.forall_mem_map]
      exact fun item hitem => ih item hitem (h.children item hitem)
    | obj members =>
      rw [mapNum_obj, Distinct, distinctMembers_iff, List.forall_mem_map, List.map_map]
      refine ⟨h.1, fun member hmember => ?_⟩
      have hmem : member.2 ∈ (obj members).children := List.mem_map_of_mem hmember
      exact ih member.2 hmem (h.children member.2 hmem)
    | null | bool b | num n | str s => exact trivial

theorem Distinct.getAt (h : j.Distinct) (hget : j.getAt path = some c) : c.Distinct := by
  induction path generalizing j with
  | nil => exact Option.some.inj hget ▸ h
  | cons seg path ih =>
    obtain ⟨d, hchild, hrest⟩ := Option.bind_eq_some_iff.1 hget
    exact ih (h.children d (mem_children hchild)) hrest

/-! ### The order of members -/

mutual

/-- The members of every object are sorted by their names. -/
def sorted : Doc ν → Doc ν
  | .arr items => .arr (sortedItems items)
  | .obj members => .obj ((sortedMembers members).mergeSort fun a b => decide (a.1 ≤ b.1))
  | j => j

def sortedItems : List (Doc ν) → List (Doc ν)
  | [] => []
  | item :: items => item.sorted :: sortedItems items

def sortedMembers : List (String × Doc ν) → List (String × Doc ν)
  | [] => []
  | (key, value) :: members => (key, value.sorted) :: sortedMembers members

end

theorem sorted_arr (items : List (Doc ν)) : (arr items).sorted = arr (items.map sorted) := by
  have heq : sortedItems items = items.map sorted := by
    induction items with
    | nil => rfl
    | cons item items ih => rw [sortedItems, ih, List.map_cons]
  rw [sorted, heq]

theorem sorted_obj (members : List (String × Doc ν)) :
    (obj members).sorted = obj ((members.map fun member => (member.1, member.2.sorted)).mergeSort
      fun a b => decide (a.1 ≤ b.1)) := by
  have heq : sortedMembers members = members.map fun member => (member.1, member.2.sorted) := by
    induction members with
    | nil => rfl
    | cons member members ih => rw [sortedMembers, ih, List.map_cons]
  rw [sorted, heq]

theorem sorted_mapNum (j : Doc ν) : (j.mapNum f).sorted = j.sorted.mapNum f := by
  induction j using induct_children with
  | step j ih =>
    cases j with
    | arr items =>
      rw [mapNum_arr, sorted_arr, sorted_arr, mapNum_arr, List.map_map, List.map_map]
      exact congrArg arr (List.map_congr_left ih)
    | obj members =>
      have hsort (l : List (String × Doc ν)) :
          (l.mergeSort fun a b => decide (a.1 ≤ b.1)).map (fun m => (m.1, m.2.mapNum f)) =
            (l.map fun m => (m.1, m.2.mapNum f)).mergeSort fun a b => decide (a.1 ≤ b.1) :=
        List.map_mergeSort fun a _ b _ => rfl
      rw [mapNum_obj, sorted_obj, sorted_obj, mapNum_obj, hsort, List.map_map, List.map_map]
      refine congrArg obj (congrArg (List.mergeSort · _) (List.map_congr_left fun m hm => ?_))
      exact Prod.ext rfl (ih m.2 (List.mem_map_of_mem hm))
    | null | bool b | num n | str s => rfl

theorem mem_numbers_sorted {n : ν} : n ∈ j.sorted.numbers ↔ n ∈ j.numbers := by
  induction j using induct_children with
  | step j ih =>
    cases j with
    | arr items =>
      rw [sorted_arr, numbers, numbersItems_eq, numbers, numbersItems_eq]
      simp only [List.mem_flatMap, List.mem_map, exists_exists_and_eq_and]
      exact exists_congr fun item => and_congr_right fun hitem => ih item hitem
    | obj members =>
      rw [sorted_obj, numbers, numbersMembers_eq, numbers, numbersMembers_eq]
      simp only [List.mem_flatMap, List.mem_mergeSort, List.mem_map, exists_exists_and_eq_and]
      exact exists_congr fun m => and_congr_right fun hm => ih m.2 (List.mem_map_of_mem hm)
    | null | bool b | num n | str s => rfl

/-! ### What is removed -/

open Classical in
mutual

/-- What is at some paths is removed, with all that is in it; the path `[]` is not looked at. -/
noncomputable def removeAll (S : List String → Prop) : Doc ν → Doc ν
  | .arr items => .arr (removeItems S 0 items)
  | .obj members => .obj (removeMembers S members)
  | j => j

/-- The elements from an index on. -/
noncomputable def removeItems (S : List String → Prop) : ℕ → List (Doc ν) → List (Doc ν)
  | _, [] => []
  | i, item :: items =>
    let rest := removeItems S (i + 1) items
    if S [toString i] then rest else item.removeAll (fun path => S (toString i :: path)) :: rest

noncomputable def removeMembers (S : List String → Prop) :
    List (String × Doc ν) → List (String × Doc ν)
  | [] => []
  | (key, value) :: members =>
    let rest := removeMembers S members
    if S [key] then rest else (key, value.removeAll fun path => S (key :: path)) :: rest

end

/-- **Only paths to something else** than the value itself are looked at. -/
theorem removeAll_congr (h : ∀ path, path ≠ [] → (S path ↔ S' path)) (j : Doc ν) :
    j.removeAll S = j.removeAll S' := by
  have hcons (seg : String) : (fun path => S (seg :: path)) = fun path => S' (seg :: path) :=
    funext fun path => propext (h _ (List.cons_ne_nil seg path))
  have hone (seg : String) : S [seg] ↔ S' [seg] := h _ (List.cons_ne_nil seg [])
  cases j with
  | arr items =>
    rw [removeAll, removeAll]
    congr 1
    generalize 0 = i
    induction items generalizing i with
    | nil => rfl
    | cons item items ih =>
      rw [removeItems, removeItems, ih, hcons]
      classical exact if_congr (hone _) rfl rfl
  | obj members =>
    rw [removeAll, removeAll]
    congr 1
    induction members with
    | nil => rfl
    | cons member members ih =>
      rw [removeMembers, removeMembers, ih, hcons]
      classical exact if_congr (hone _) rfl rfl
  | null | bool b | num n | str s => rfl

theorem removeAll_mapNum (S : List String → Prop) (j : Doc ν) :
    (j.mapNum f).removeAll S = (j.removeAll S).mapNum f := by
  induction j using induct_children generalizing S with
  | step j ih =>
    cases j with
    | arr items =>
      rw [mapNum_arr, removeAll, removeAll, mapNum_arr]
      congr 1
      generalize 0 = i
      replace ih : ∀ c ∈ items, ∀ S, (c.mapNum f).removeAll S = (c.removeAll S).mapNum f := ih
      induction items generalizing i with
      | nil => rfl
      | cons item items ih' =>
        obtain ⟨hitem, hitems⟩ := List.forall_mem_cons.1 ih
        rw [List.map_cons, removeItems, removeItems, ih' _ hitems, hitem]
        split_ifs
        · rfl
        · rw [List.map_cons]
    | obj members =>
      rw [mapNum_obj, removeAll, removeAll, mapNum_obj]
      congr 1
      replace ih : ∀ m ∈ members, ∀ S, (m.2.mapNum f).removeAll S = (m.2.removeAll S).mapNum f :=
        fun m hm => ih m.2 (List.mem_map_of_mem hm)
      induction members with
      | nil => rfl
      | cons member members ih' =>
        obtain ⟨hmember, hmembers⟩ := List.forall_mem_cons.1 ih
        rw [List.map_cons, removeMembers, removeMembers, ih' hmembers, hmember]
        split_ifs
        · rfl
        · rw [List.map_cons]
    | null | bool b | num n | str s => rfl

theorem removeAll_of_forall_not (h : ∀ path, path ≠ [] → ¬S path) (j : Doc ν) :
    j.removeAll S = j := by
  induction j using induct_children generalizing S with
  | step j ih =>
    have hcons (seg : String) : ∀ path, path ≠ [] → ¬S (seg :: path) :=
      fun path _ => h _ (List.cons_ne_nil seg path)
    cases j with
    | arr items =>
      rw [removeAll]
      congr 1
      generalize 0 = i
      replace ih : ∀ c ∈ items, ∀ i : ℕ, c.removeAll (fun path => S (toString i :: path)) = c :=
        fun c hc i => ih c hc (hcons (toString i))
      induction items generalizing i with
      | nil => rfl
      | cons item items ih' =>
        obtain ⟨hitem, hitems⟩ := List.forall_mem_cons.1 ih
        rw [removeItems, ih' _ hitems, hitem, if_neg (h _ (List.cons_ne_nil _ _))]
    | obj members =>
      rw [removeAll]
      congr 1
      replace ih : ∀ m ∈ members, m.2.removeAll (fun path => S (m.1 :: path)) = m.2 :=
        fun m hm => ih m.2 (List.mem_map_of_mem hm) (hcons m.1)
      induction members with
      | nil => rfl
      | cons member members ih' =>
        obtain ⟨hmember, hmembers⟩ := List.forall_mem_cons.1 ih
        rw [removeMembers, ih' hmembers, hmember, if_neg (h _ (List.cons_ne_nil _ _))]
    | null | bool b | num n | str s => rfl

theorem mem_numbers_of_removeAll {n : ν} (h : n ∈ (j.removeAll S).numbers) : n ∈ j.numbers := by
  induction j using induct_children generalizing S with
  | step j ih =>
    cases j with
    | arr items =>
      rw [removeAll] at h
      revert h
      generalize 0 = i
      replace ih : ∀ c ∈ items, ∀ S, n ∈ (c.removeAll S).numbers → n ∈ c.numbers :=
        fun c hc S => ih c hc
      induction items generalizing i with
      | nil => exact id
      | cons item items ih' =>
        obtain ⟨hitem, hitems⟩ := List.forall_mem_cons.1 ih
        intro h
        rw [numbers, numbersItems, List.mem_append]
        rw [removeItems] at h
        split_ifs at h
        · exact Or.inr (ih' _ hitems h)
        · rw [numbers, numbersItems, List.mem_append] at h
          exact h.imp (hitem _) (ih' _ hitems)
    | obj members =>
      rw [removeAll] at h
      replace ih : ∀ m ∈ members, ∀ S, n ∈ (m.2.removeAll S).numbers → n ∈ m.2.numbers :=
        fun m hm S => ih m.2 (List.mem_map_of_mem hm)
      revert h
      induction members with
      | nil => exact id
      | cons member members ih' =>
        obtain ⟨hmember, hmembers⟩ := List.forall_mem_cons.1 ih
        intro h
        rw [numbers, numbersMembers, List.mem_append]
        rw [removeMembers] at h
        split_ifs at h
        · exact Or.inr (ih' hmembers h)
        · rw [numbers, numbersMembers, List.mem_append] at h
          exact h.imp (hmember _) (ih' hmembers)
    | null | bool b | num n | str s => exact h

/-! ### A value in its place -/

/-- The value at a path becomes another one. -/
def putAt : Doc ν → List String → Doc ν → Doc ν
  | _, [], c => c
  | j, seg :: path, c =>
    match j.child seg with
    | none => j
    | some c' => j.replace seg (c'.putAt path c)

theorem putAt_inj {c' x : Doc ν} (h : j.getAt path = some x) :
    j.putAt path c = j.putAt path c' ↔ c = c' := by
  induction path generalizing j with
  | nil => exact Iff.rfl
  | cons seg path ih =>
    rw [getAt] at h
    obtain ⟨y, hchild, hrest⟩ := Option.bind_eq_some_iff.1 h
    rw [putAt, putAt, hchild]
    simp only
    rw [replace_inj hchild, ih hrest]

end JsonDoc.Doc
