import Mathlib.Data.List.Basic

/-!
# JSON values and their paths

A value is reached by a path: a list of texts, each the name of a member or the index of an
element, whichever the value at that place has. `Doc.getAt` reads there, and `Doc.eraseAt` removes
what is there, where the elements behind it move down.

What is done one step into a value (`Doc.replace`, `Doc.erase`) is described first, and carried
along a path from there.

The members of an object are in the order of the text. Their names are distinct in what is
called a document here (`Doc.Distinct`).
-/

namespace JsonDoc

/-- A JSON value, with numbers of a type `ν`. -/
inductive Doc (ν : Type)
  | null
  | bool (b : Bool)
  | num (n : ν)
  | str (s : String)
  | arr (items : List (Doc ν))
  | obj (members : List (String × Doc ν))

/-! ### Indices -/

/-- A text as an index: its digits, read as a number. -/
def index? (seg : String) : Option ℕ :=
  if seg ≠ "" ∧ seg.toList.all Char.isDigit then some (Nat.ofDigitChars 10 seg.toList 0) else none

theorem toList_toString (i : ℕ) : (toString i).toList = Nat.toDigits 10 i := Nat.toList_repr

theorem isDigit_of_mem_toString {c : Char} {i : ℕ} (h : c ∈ (toString i).toList) :
    c.isDigit = true := by
  rw [toList_toString] at h
  exact Nat.isDigit_of_mem_toDigits (by omega) (by omega) h

theorem toString_ne_empty (i : ℕ) : toString i ≠ "" := by
  intro h
  have hdigits := toList_toString i
  rw [h] at hdigits
  exact Nat.toDigits_ne_nil hdigits.symm

@[simp] theorem index?_toString (i : ℕ) : index? (toString i) = some i := by
  have hall : (toString i).toList.all Char.isDigit = true :=
    List.all_eq_true.2 fun c hc => isDigit_of_mem_toString hc
  rw [index?, if_pos ⟨toString_ne_empty i, hall⟩, toList_toString, Nat.ofDigitChars_ten_toDigits]

/-! ### Members -/

section Members

variable {α : Type} {key key' : String} {x y : α} {members : List (String × α)}

/-- The first member of a name gets another value. -/
def replaceMember (key : String) (x : α) : List (String × α) → List (String × α)
  | [] => []
  | (key', y) :: rest =>
    if key' = key then (key', x) :: rest else (key', y) :: replaceMember key x rest

/-- The first member of a name is removed. -/
def eraseMember (key : String) : List (String × α) → List (String × α)
  | [] => []
  | (key', y) :: rest => if key' = key then rest else (key', y) :: eraseMember key rest

theorem lookup_replaceMember_self (h : members.lookup key = some y) :
    (replaceMember key x members).lookup key = some x := by
  induction members with
  | nil => cases h
  | cons member rest ih =>
    obtain ⟨key', z⟩ := member
    by_cases hkey : key' = key
    · simp [replaceMember, hkey]
    · have hne : (key == key') = false := beq_false_of_ne (Ne.symm hkey)
      rw [List.lookup_cons, hne] at h
      rw [replaceMember, if_neg hkey, List.lookup_cons, hne]
      exact ih h

theorem lookup_replaceMember_of_ne (hne : key' ≠ key) :
    (replaceMember key x members).lookup key' = members.lookup key' := by
  induction members with
  | nil => rfl
  | cons member rest ih =>
    obtain ⟨key'', z⟩ := member
    rw [replaceMember]
    split
    · rename_i hkey
      rw [List.lookup_cons, List.lookup_cons, hkey, beq_false_of_ne hne]
    · rw [List.lookup_cons, List.lookup_cons, ih]

theorem replaceMember_replaceMember :
    replaceMember key y (replaceMember key x members) = replaceMember key y members := by
  induction members with
  | nil => rfl
  | cons member rest ih =>
    obtain ⟨key', z⟩ := member
    by_cases hkey : key' = key
    · simp [replaceMember, hkey]
    · simp [replaceMember, hkey, ih]

theorem replaceMember_lookup (h : members.lookup key = some x) :
    replaceMember key x members = members := by
  induction members with
  | nil => rfl
  | cons member rest ih =>
    obtain ⟨key', z⟩ := member
    by_cases hkey : key' = key
    · subst hkey
      rw [List.lookup_cons, beq_self_eq_true] at h
      rw [replaceMember, if_pos rfl, Option.some.inj h]
    · rw [List.lookup_cons, beq_false_of_ne (Ne.symm hkey)] at h
      rw [replaceMember, if_neg hkey, ih h]

theorem map_fst_replaceMember :
    (replaceMember key x members).map Prod.fst = members.map Prod.fst := by
  induction members with
  | nil => rfl
  | cons member rest ih =>
    rw [replaceMember]
    split <;> simp [ih]

theorem lookup_eraseMember_of_ne (hne : key' ≠ key) :
    (eraseMember key members).lookup key' = members.lookup key' := by
  induction members with
  | nil => rfl
  | cons member rest ih =>
    obtain ⟨key'', z⟩ := member
    rw [eraseMember]
    split
    · rename_i hkey
      rw [List.lookup_cons, hkey, beq_false_of_ne hne]
    · rw [List.lookup_cons, List.lookup_cons, ih]

theorem lookup_eq_none_iff : members.lookup key = none ↔ key ∉ members.map Prod.fst := by
  induction members with
  | nil => simp
  | cons member rest ih =>
    obtain ⟨key', z⟩ := member
    by_cases hkey : key = key'
    · simp [hkey]
    · rw [List.lookup_cons, beq_false_of_ne hkey]
      simpa [hkey] using ih

/-- Members are looked up among those of some names as before. -/
theorem lookup_filter {p : String → Bool} (h : p key = true) (members : List (String × α)) :
    (members.filter fun member => p member.1).lookup key = members.lookup key := by
  induction members with
  | nil => rfl
  | cons member rest ih =>
    obtain ⟨key', z⟩ := member
    by_cases hkey : key = key'
    · subst hkey
      rw [List.filter_cons, if_pos h, List.lookup_cons, List.lookup_cons, beq_self_eq_true]
    · rw [List.filter_cons, List.lookup_cons, beq_false_of_ne hkey]
      split_ifs
      · rw [List.lookup_cons, beq_false_of_ne hkey, ih]
      · exact ih

theorem lookup_map (f : String → α → α) (members : List (String × α)) :
    (members.map fun member => (member.1, f member.1 member.2)).lookup key =
      (members.lookup key).map (f key) := by
  induction members with
  | nil => rfl
  | cons member rest ih =>
    obtain ⟨key', z⟩ := member
    rw [List.map_cons, List.lookup_cons, List.lookup_cons, ih]
    by_cases hkey : key = key'
    · subst hkey
      rw [beq_self_eq_true]
      rfl
    · rw [beq_false_of_ne hkey]

/-- Where the names are distinct, a member is replaced by its name. -/
theorem replaceMember_eq_map (hnodup : (members.map Prod.fst).Nodup) :
    replaceMember key x members =
      members.map fun member => if member.1 = key then (key, x) else member := by
  induction members with
  | nil => rfl
  | cons member rest ih =>
    obtain ⟨key', z⟩ := member
    rw [List.map_cons, List.nodup_cons] at hnodup
    rw [replaceMember, List.map_cons]
    split
    · rename_i hkey
      refine congrArg₂ _ (by rw [hkey]) ((List.map_id' rest).symm.trans ?_)
      refine List.map_congr_left fun member hmember => (if_neg fun h => hnodup.1 ?_).symm
      rw [hkey, ← h]
      exact List.mem_map.2 ⟨member, hmember, rfl⟩
    · rw [ih hnodup.2]

theorem eraseMember_eq_filter (hnodup : (members.map Prod.fst).Nodup) :
    eraseMember key members = members.filter fun member => member.1 ≠ key := by
  induction members with
  | nil => rfl
  | cons member rest ih =>
    obtain ⟨key', z⟩ := member
    rw [List.map_cons, List.nodup_cons] at hnodup
    rw [eraseMember]
    split
    · rename_i hkey
      rw [List.filter_cons_of_neg (by simpa using hkey)]
      refine (List.filter_eq_self.2 fun member hmember => ?_).symm
      refine decide_eq_true fun h => hnodup.1 ?_
      rw [hkey, ← h]
      exact List.mem_map.2 ⟨member, hmember, rfl⟩
    · rename_i hkey
      rw [List.filter_cons_of_pos (by simpa using hkey), ih hnodup.2]

theorem lookup_eq_some_iff (hnodup : (members.map Prod.fst).Nodup) :
    members.lookup key = some x ↔ (key, x) ∈ members := by
  induction members with
  | nil => simp
  | cons member rest ih =>
    obtain ⟨key', z⟩ := member
    rw [List.map_cons, List.nodup_cons] at hnodup
    rw [List.lookup_cons, List.mem_cons, Prod.mk.injEq]
    by_cases hkey : key = key'
    · subst hkey
      have hnot : (key, x) ∉ rest := fun h => hnodup.1 (List.mem_map.2 ⟨_, h, rfl⟩)
      simp [hnot, eq_comm]
    · rw [beq_false_of_ne hkey, ih hnodup.2]
      simp [hkey]

end Members

/-! ### One step -/

namespace Doc

variable {ν : Type} {j c c' c'' : Doc ν} {seg seg' : String}

/-- The value one step into another. -/
def child : Doc ν → String → Option (Doc ν)
  | .obj members, seg => members.lookup seg
  | .arr items, seg => (index? seg).bind fun i => items[i]?
  | _, _ => none

/-- The value one step into another is replaced. -/
def replace : Doc ν → String → Doc ν → Doc ν
  | .obj members, seg, c => .obj (replaceMember seg c members)
  | .arr items, seg, c => ((index? seg).map fun i => .arr (items.set i c)).getD (.arr items)
  | j, _, _ => j

/-- The value one step into another is removed. -/
def erase : Doc ν → String → Doc ν
  | .obj members, seg => .obj (eraseMember seg members)
  | .arr items, seg => ((index? seg).map fun i => .arr (items.eraseIdx i)).getD (.arr items)
  | j, _ => j

theorem child_replace (h : j.child seg = some c) : (j.replace seg c').child seg = some c' := by
  cases j with
  | obj members => exact lookup_replaceMember_self h
  | arr items =>
    rw [child] at h
    obtain ⟨i, hi, hitem⟩ := Option.bind_eq_some_iff.1 h
    have hlt : i < items.length := (List.getElem?_eq_some_iff.1 hitem).1
    simp [replace, child, hi, hlt]
  | null => cases h
  | bool b => cases h
  | num n => cases h
  | str s => cases h

theorem replace_replace : (j.replace seg c).replace seg c' = j.replace seg c' := by
  cases j with
  | obj members => exact congrArg obj replaceMember_replaceMember
  | arr items => cases hi : index? seg <;> simp [replace, hi]
  | null => rfl
  | bool b => rfl
  | num n => rfl
  | str s => rfl

theorem replace_child (h : j.child seg = some c) : j.replace seg c = j := by
  cases j with
  | obj members => exact congrArg obj (replaceMember_lookup h)
  | arr items =>
    rw [child] at h
    obtain ⟨i, hi, hitem⟩ := Option.bind_eq_some_iff.1 h
    obtain ⟨hlt, rfl⟩ := List.getElem?_eq_some_iff.1 hitem
    simp [replace, hi]
  | null => rfl
  | bool b => rfl
  | num n => rfl
  | str s => rfl

theorem replace_inj (h : j.child seg = some c'') : j.replace seg c = j.replace seg c' ↔ c = c' := by
  refine ⟨fun heq => ?_, fun heq => by rw [heq]⟩
  have hchild : (j.replace seg c).child seg = some c := child_replace h
  rw [heq, child_replace h] at hchild
  exact (Option.some.inj hchild).symm

/-- The values one step into another. -/
def children : Doc ν → List (Doc ν)
  | .arr items => items
  | .obj members => members.map Prod.snd
  | _ => []

mutual

/-- The names of the members are distinct, everywhere. -/
def Distinct : Doc ν → Prop
  | .arr items => DistinctItems items
  | .obj members => (members.map Prod.fst).Nodup ∧ DistinctMembers members
  | .null | .bool _ | .num _ | .str _ => True

def DistinctItems : List (Doc ν) → Prop
  | [] => True
  | item :: items => item.Distinct ∧ DistinctItems items

def DistinctMembers : List (String × Doc ν) → Prop
  | [] => True
  | (_, value) :: members => value.Distinct ∧ DistinctMembers members

end

theorem distinctItems_iff {items : List (Doc ν)} :
    DistinctItems items ↔ ∀ item ∈ items, item.Distinct := by
  induction items with
  | nil => simp [DistinctItems]
  | cons item items ih => rw [DistinctItems, ih, List.forall_mem_cons]

theorem distinctMembers_iff {members : List (String × Doc ν)} :
    DistinctMembers members ↔ ∀ member ∈ members, member.2.Distinct := by
  induction members with
  | nil => simp [DistinctMembers]
  | cons member members ih => rw [DistinctMembers, ih, List.forall_mem_cons]

theorem Distinct.children (h : j.Distinct) : ∀ c ∈ j.children, c.Distinct := by
  cases j with
  | arr items => exact distinctItems_iff.1 h
  | obj members =>
    intro c hc
    obtain ⟨member, hmember, rfl⟩ := List.mem_map.1 hc
    exact distinctMembers_iff.1 h.2 member hmember
  | null => exact fun _ hc => nomatch hc
  | bool b => exact fun _ hc => nomatch hc
  | num n => exact fun _ hc => nomatch hc
  | str s => exact fun _ hc => nomatch hc

theorem mem_of_lookup {members : List (String × Doc ν)} (h : members.lookup seg = some c) :
    (seg, c) ∈ members := by
  induction members with
  | nil => cases h
  | cons member rest ih =>
    obtain ⟨key, z⟩ := member
    by_cases hkey : seg = key
    · subst hkey
      rw [List.lookup_cons, beq_self_eq_true] at h
      rw [Option.some.inj h]
      exact List.mem_cons_self
    · rw [List.lookup_cons, beq_false_of_ne hkey] at h
      exact List.mem_cons_of_mem _ (ih h)

theorem mem_children (h : j.child seg = some c) : c ∈ j.children := by
  cases j with
  | arr items =>
    obtain ⟨i, -, hitem⟩ := Option.bind_eq_some_iff.1 h
    exact List.mem_of_getElem? hitem
  | obj members => exact List.mem_map_of_mem (f := Prod.snd) (mem_of_lookup h)
  | null => cases h
  | bool b => cases h
  | num n => cases h
  | str s => cases h

/-! ### Paths -/

/-- The value at a path. -/
def getAt : Doc ν → List String → Option (Doc ν)
  | j, [] => some j
  | j, seg :: path => (j.child seg).bind fun c => c.getAt path

theorem getAt_append (j : Doc ν) (path path' : List String) :
    j.getAt (path ++ path') = (j.getAt path).bind fun c => c.getAt path' := by
  induction path generalizing j with
  | nil => rfl
  | cons seg path ih =>
    rw [List.cons_append, getAt, getAt]
    cases j.child seg with
    | none => rfl
    | some c => exact ih c

/-- The value at a path is removed. There is nothing to remove at the empty one. -/
def eraseAt : Doc ν → List String → Doc ν
  | j, [] => j
  | j, [seg] => j.erase seg
  | j, seg :: path =>
    match j.child seg with
    | none => j
    | some c => j.replace seg (c.eraseAt path)

theorem eraseAt_cons {path : List String} (hne : path ≠ []) :
    j.eraseAt (seg :: path) =
      match j.child seg with
      | none => j
      | some c => j.replace seg (c.eraseAt path) := by
  cases path with
  | nil => exact absurd rfl hne
  | cons seg' path => rfl

end Doc

end JsonDoc
