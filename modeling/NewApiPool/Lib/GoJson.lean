import Mathlib.Data.List.AList
import Mathlib.Data.Rat.Defs

/-!
# Values as JSON, and back into other values

The types a settings struct is made of, their values, and `json.Marshal` and `json.Unmarshal`
on them. A value is a value of its type (`Ty.Val`), so that every function here is by recursion
on the type. Of the decoder, what matters is how it decodes into a value that is there:

* a member that is absent keeps its old content;
* a member of a map is decoded anew, and the others stay;
* the elements of a slice are decoded into the memory of the old ones, also beyond its length;
* a pointer is followed, unless it is `nil` or the value is `null`.

`Ty.same_unmarshal_iff` says when a value is restored over an old one: exactly where
`Ty.Restores`, which follows the shape of the type.
-/

namespace GoJson

/-! ### Types and values -/

/-- A slice: its elements, and what is in its memory beyond them. -/
structure Slice (α : Type) where
  elems : List α
  spare : List α := []

mutual

/-- The types of the settings. The keys of a map are texts. -/
inductive Ty
  | string
  | bool
  | int
  | uint
  | float
  | map (value : Ty)
  | slice (elem : Ty)
  | struct (fields : Fields)
  | ptr (target : Ty)

/-- The fields of a struct, each with the name in its tag and `omitempty`. -/
inductive Fields
  | nil
  | cons (name : String) (omitempty : Bool) (type : Ty) (rest : Fields)

end

mutual

/-- The values of a type. A map, a slice or a pointer may be `nil`. -/
def Ty.Val : Ty → Type
  | .string => String
  | .bool => Bool
  | .int => ℤ
  | .uint => ℕ
  | .float => ℚ
  | .map value => Option (AList fun _ : String => value.Val)
  | .slice elem => Option (Slice elem.Val)
  | .struct fields => fields.Val
  | .ptr target => Option target.Val

def Fields.Val : Fields → Type
  | .nil => Unit
  | .cons _ _ type rest => type.Val × rest.Val

end

mutual

/-- The zero value of a type: what a field has that the object does not name. -/
def Ty.zero : (t : Ty) → t.Val
  | .string => ("" : String)
  | .bool => false
  | .int => (0 : ℤ)
  | .uint => (0 : ℕ)
  | .float => (0 : ℚ)
  | .map _ => none
  | .slice _ => none
  | .struct fields => fields.zero
  | .ptr _ => none

def Fields.zero : (fs : Fields) → fs.Val
  | .nil => ()
  | .cons _ _ type rest => (type.zero, rest.zero)

end

/-! ### JSON -/

inductive Json
  | null
  | bool (b : Bool)
  | num (q : ℚ)
  | str (s : String)
  | arr (elems : List Json)
  | obj (members : List (String × Json))

/-- What `omitempty` leaves out. -/
def Ty.isEmpty : (t : Ty) → t.Val → Bool
  | .string, (s : String) => s = ""
  | .bool, (b : Bool) => !b
  | .int, (z : ℤ) => z = 0
  | .uint, (n : ℕ) => n = 0
  | .float, (q : ℚ) => q = 0
  | .map _, m => m.all fun m => m.entries.isEmpty
  | .slice _, s => s.all fun s => s.elems.isEmpty
  | .struct _, _ => false
  | .ptr _, p => p.isNone

mutual

/-- `json.Marshal`. -/
def Ty.marshal : (t : Ty) → t.Val → Json
  | .string, s => .str s
  | .bool, b => .bool b
  | .int, (z : ℤ) => .num z
  | .uint, (n : ℕ) => .num n
  | .float, q => .num q
  | .map _, none => .null
  | .map value, some m => .obj (m.entries.map fun e => (e.1, value.marshal e.2))
  | .slice _, none => .null
  | .slice elem, some s => .arr (s.elems.map elem.marshal)
  | .struct fields, v => .obj (fields.marshal v)
  | .ptr _, none => .null
  | .ptr target, some v => target.marshal v

def Fields.marshal : (fs : Fields) → fs.Val → List (String × Json)
  | .nil, _ => []
  | .cons name omitempty type rest, (v, vs) =>
    if omitempty && type.isEmpty v then rest.marshal vs
    else (name, type.marshal v) :: rest.marshal vs

end

mutual

/-- `json.Unmarshal` into a value that is there. A value of another kind is left out. -/
def Ty.unmarshal : (t : Ty) → t.Val → Json → t.Val
  | .string, old, j =>
    match j with
    | .str s => s
    | _ => old
  | .bool, old, j =>
    match j with
    | .bool b => b
    | _ => old
  | .int, old, j =>
    match j with
    | .num q => if q.den = 1 then q.num else old
    | _ => old
  | .uint, old, j =>
    match j with
    | .num q => if q.den = 1 ∧ 0 ≤ q.num then q.num.toNat else old
    | _ => old
  | .float, old, j =>
    match j with
    | .num q => q
    | _ => old
  | .map value, old, j =>
    match j with
    | .null => none
    | .obj members =>
      some (members.foldl (fun m e => m.insert e.1 (value.unmarshal value.zero e.2)) (old.getD ∅))
    | _ => old
  | .slice elem, old, j =>
    match j with
    | .null => none
    | .arr elems =>
      let room := (old.map fun s => s.elems ++ s.spare).getD []
      some
        { elems := elems.zipIdx.map fun e => elem.unmarshal ((room[e.2]?).getD elem.zero) e.1
          spare := if elems = [] then [] else room.drop elems.length }
    | _ => old
  | .struct fields, old, j =>
    match j with
    | .obj members => fields.unmarshal old members
    | _ => old
  | .ptr target, old, j =>
    match j with
    | .null => none
    | j => some (target.unmarshal (old.getD target.zero) j)

/-- The members of an object, each into the field of its name. -/
def Fields.unmarshal : (fs : Fields) → fs.Val → List (String × Json) → fs.Val
  | .nil, _, _ => ()
  | .cons name _ type rest, (v, vs), members =>
    ((members.filter fun e => e.1 = name).foldl (fun v e => type.unmarshal v e.2) v,
      rest.unmarshal vs members)

end

mutual

/-- `json.Unmarshal` reports no error: every value is of the kind of its place. -/
def Ty.accepts : Ty → Json → Bool
  | _, .null => true
  | .string, .str _ => true
  | .bool, .bool _ => true
  | .int, .num q => q.den = 1
  | .uint, .num q => q.den = 1 ∧ 0 ≤ q.num
  | .float, .num _ => true
  | .map value, .obj members => members.all fun e => value.accepts e.2
  | .slice elem, .arr elems => elems.all elem.accepts
  | .struct fields, .obj members => fields.accepts members
  | .ptr target, j => target.accepts j
  | _, _ => false

def Fields.accepts : Fields → List (String × Json) → Bool
  | .nil, _ => true
  | .cons name _ type rest, members =>
    (members.filter fun e => e.1 = name).all (fun e => type.accepts e.2) && rest.accepts members

end

/-! ### What is to hold -/

mutual

/-- Two values are the same: the memory of a slice beyond its length and the order of a map do
not count. -/
def Ty.Same : (t : Ty) → t.Val → t.Val → Prop
  | .string, a, b => a = b
  | .bool, a, b => a = b
  | .int, a, b => a = b
  | .uint, a, b => a = b
  | .float, a, b => a = b
  | .map value, a, b =>
    Option.Rel (fun m m' => ∀ k, Option.Rel value.Same (m.lookup k) (m'.lookup k)) a b
  | .slice elem, a, b => Option.Rel (fun s s' => List.Forall₂ elem.Same s.elems s'.elems) a b
  | .struct fields, a, b => fields.Same a b
  | .ptr target, a, b => Option.Rel target.Same a b

def Fields.Same : (fs : Fields) → fs.Val → fs.Val → Prop
  | .nil, _, _ => True
  | .cons _ _ type rest, (v, vs), (v', vs') => type.Same v v' ∧ rest.Same vs vs'

end

/-- The value is written as `null`. -/
def Ty.isNull : (t : Ty) → t.Val → Bool
  | .map _, m => m.isNone
  | .slice _, s => s.isNone
  | .ptr _, none => true
  | .ptr target, some v => target.isNull v
  | _, _ => false

mutual

/-- **What an old value has to be for a new one to be restored over it**: a member that is left
out is the same in both; a map has no key that the new one does not have; the elements of a
slice are restored over what is in the memory of the old one; and no pointer points to a `nil`
that is written as `null`. -/
def Ty.Restores : (t : Ty) → t.Val → t.Val → Prop
  | .map value, (old : Option (AList fun _ : String => value.Val)), some m =>
    (∀ k ∈ old.getD ∅, k ∈ m) ∧ ∀ k v, m.lookup k = some v → value.Restores value.zero v
  | .slice elem, (old : Option (Slice elem.Val)), some s => ∀ (i : ℕ) v, s.elems[i]? = some v →
    elem.Restores ((((old.map fun s => s.elems ++ s.spare).getD [])[i]?).getD elem.zero) v
  | .struct fields, old, new => fields.Restores old new
  | .ptr target, (old : Option target.Val), some v =>
    target.isNull v = false ∧ target.Restores (old.getD target.zero) v
  | _, _, _ => True

def Fields.Restores : (fs : Fields) → fs.Val → fs.Val → Prop
  | .nil, _, _ => True
  | .cons _ omitempty type rest, (v, vs), (v', vs') =>
    (if omitempty && type.isEmpty v' then type.Same v v' else type.Restores v v') ∧
      rest.Restores vs vs'

end

def Fields.names : Fields → List String
  | .nil => []
  | .cons name _ _ rest => name :: rest.names

mutual

/-- No struct has two fields of one name. -/
def Ty.Distinct : Ty → Prop
  | .map value => value.Distinct
  | .slice elem => elem.Distinct
  | .struct fields => fields.Distinct
  | .ptr target => target.Distinct
  | _ => True

def Fields.Distinct : Fields → Prop
  | .nil => True
  | .cons name _ type rest => name ∉ rest.names ∧ type.Distinct ∧ rest.Distinct

end

/-! ### The decoder -/

theorem rel_some_some {α β : Type*} {r : α → β → Prop} {a : α} {b : β} :
    Option.Rel r (some a) (some b) ↔ r a b :=
  ⟨fun h => by cases h; assumption, Option.Rel.some⟩

theorem not_rel_none_some {α β : Type*} {r : α → β → Prop} {b : β} :
    ¬Option.Rel r (none : Option α) (some b) := nofun

/-- Only a `nil` is written as `null`. -/
theorem Ty.marshal_eq_null_iff : (t : Ty) → (v : t.Val) → (t.marshal v = .null ↔ t.isNull v = true)
  | .string, v => by simp [Ty.marshal, Ty.isNull]
  | .bool, v => by simp [Ty.marshal, Ty.isNull]
  | .int, v => by simp [Ty.marshal, Ty.isNull]
  | .uint, v => by simp [Ty.marshal, Ty.isNull]
  | .float, v => by simp [Ty.marshal, Ty.isNull]
  | .map value, none => iff_of_true rfl rfl
  | .map value, some m => iff_of_false nofun nofun
  | .slice elem, none => iff_of_true rfl rfl
  | .slice elem, some s => iff_of_false nofun nofun
  | .struct fields, v => by simp [Ty.marshal, Ty.isNull]
  | .ptr target, none => iff_of_true rfl rfl
  | .ptr target, some v => target.marshal_eq_null_iff v

theorem Ty.unmarshal_ptr {target : Ty} (old : Option target.Val) {j : Json} (hj : j ≠ .null) :
    (Ty.ptr target).unmarshal old j = some (target.unmarshal (old.getD target.zero) j) := by
  cases j with
  | null => exact absurd rfl hj
  | bool b => rfl
  | num q => rfl
  | str s => rfl
  | arr elems => rfl
  | obj members => rfl

theorem Fields.mem_marshal : (fs : Fields) → (v : fs.Val) → ∀ e ∈ fs.marshal v, e.1 ∈ fs.names
  | .nil, _ => nofun
  | .cons name omitempty type rest, (v, vs) => fun e he => by
    rw [Fields.marshal] at he
    split at he
    · exact List.mem_cons_of_mem _ (rest.mem_marshal vs e he)
    · rcases List.mem_cons.mp he with rfl | he
      · exact List.mem_cons_self
      · exact List.mem_cons_of_mem _ (rest.mem_marshal vs e he)

theorem Fields.unmarshal_cons_of_not_mem : (fs : Fields) → (v : fs.Val) → {e : String × Json} →
    (members : List (String × Json)) → e.1 ∉ fs.names →
      fs.unmarshal v (e :: members) = fs.unmarshal v members
  | .nil, _, _, _, _ => rfl
  | .cons name _ type rest, (v, vs), e, members, h => by
    have hne : e.1 ≠ name := fun heq => h (heq ▸ List.mem_cons_self)
    have hrest : e.1 ∉ rest.names := fun hmem => h (List.mem_cons_of_mem _ hmem)
    rw [Fields.unmarshal, Fields.unmarshal, rest.unmarshal_cons_of_not_mem vs members hrest,
      List.filter_cons_of_neg (by simpa using hne)]

theorem Fields.accepts_cons_of_not_mem : (fs : Fields) → {e : String × Json} →
    (members : List (String × Json)) → e.1 ∉ fs.names →
      fs.accepts (e :: members) = fs.accepts members
  | .nil, _, _, _ => rfl
  | .cons name _ type rest, e, members, h => by
    have hne : e.1 ≠ name := fun heq => h (heq ▸ List.mem_cons_self)
    have hrest : e.1 ∉ rest.names := fun hmem => h (List.mem_cons_of_mem _ hmem)
    rw [Fields.accepts, Fields.accepts, rest.accepts_cons_of_not_mem members hrest,
      List.filter_cons_of_neg (by simpa using hne)]

theorem Fields.filter_marshal {fs : Fields} (v : fs.Val) {name : String} (h : name ∉ fs.names) :
    (fs.marshal v).filter (fun e => e.1 = name) = [] := by
  rw [List.filter_eq_nil_iff]
  intro e he heq
  exact h (of_decide_eq_true heq ▸ fs.mem_marshal v e he)

/-- Entries are inserted one after the other: those of other keys stay. -/
theorem lookup_foldl_insert {α : Type} (g : α → α) {entries : List (Sigma fun _ : String => α)}
    (hnodup : entries.NodupKeys) (base : AList fun _ : String => α) (k : String) :
    (entries.foldl (fun m e => m.insert e.1 (g e.2)) base).lookup k =
      ((entries.dlookup k).map g).or (base.lookup k) := by
  induction entries generalizing base with
  | nil => rfl
  | cons e entries ih =>
    obtain ⟨key, v⟩ := e
    obtain ⟨hnot, hrest⟩ := List.nodupKeys_cons.mp hnodup
    rw [List.foldl_cons, ih hrest]
    by_cases hk : k = key
    · subst hk
      rw [List.dlookup_eq_none.mpr hnot, List.dlookup_cons_eq, AList.lookup_insert]
      rfl
    · rw [List.dlookup_cons_ne _ _ hk, AList.lookup_insert_ne hk]

/-- The elements of a list, each over what is in its place. -/
theorem forall₂_zipIdx_iff {α β : Type*} {r : β → α → Prop} {f : α → ℕ → β} (xs : List α) (n : ℕ) :
    List.Forall₂ r ((xs.zipIdx n).map fun e => f e.1 e.2) xs ↔
      ∀ (i : ℕ) x, xs[i]? = some x → r (f x (n + i)) x := by
  induction xs generalizing n with
  | nil => exact iff_of_true List.Forall₂.nil nofun
  | cons x xs ih =>
    rw [List.zipIdx_cons, List.map_cons, List.forall₂_cons, ih (n + 1)]
    constructor
    · rintro ⟨hx, hxs⟩ (_ | i) y hy
      · cases hy
        exact hx
      · have hi := hxs i y hy
        rwa [Nat.add_assoc, Nat.add_comm 1 i] at hi
    · refine fun h => ⟨h 0 x rfl, fun i y hy => ?_⟩
      have hi := h (i + 1) y hy
      rwa [Nat.add_comm i 1, ← Nat.add_assoc] at hi

section Kinds

variable {type : Ty}

theorem Ty.same_map {m m' : AList fun _ : String => type.Val} :
    (Ty.map type).Same (some m) (some m') ↔
      ∀ k, Option.Rel type.Same (m.lookup k) (m'.lookup k) :=
  rel_some_some

theorem Ty.same_slice {s s' : Slice type.Val} :
    (Ty.slice type).Same (some s) (some s') ↔ List.Forall₂ type.Same s.elems s'.elems :=
  rel_some_some

theorem Ty.same_ptr {v v' : type.Val} : (Ty.ptr type).Same (some v) (some v') ↔ type.Same v v' :=
  rel_some_some

theorem Ty.unmarshal_map (old : Option (AList fun _ : String => type.Val))
    (m : AList fun _ : String => type.Val) :
    ∃ m' : AList fun _ : String => type.Val,
      (Ty.map type).unmarshal old ((Ty.map type).marshal (some m)) = some m' ∧
        ∀ k, m'.lookup k = ((m.lookup k).map fun v => type.unmarshal type.zero (type.marshal v)).or
          ((old.getD ∅).lookup k) := by
  refine ⟨(m.entries.map fun e => (e.1, type.marshal e.2)).foldl
    (fun m e => m.insert e.1 (type.unmarshal type.zero e.2)) (old.getD ∅), rfl, fun k => ?_⟩
  rw [List.foldl_map]
  exact lookup_foldl_insert (fun v => type.unmarshal type.zero (type.marshal v)) m.nodupKeys _ k

theorem Ty.unmarshal_slice (old : Option (Slice type.Val)) (s : Slice type.Val) :
    ∃ s' : Slice type.Val,
      (Ty.slice type).unmarshal old ((Ty.slice type).marshal (some s)) = some s' ∧
        s'.elems = s.elems.zipIdx.map fun e => type.unmarshal
          ((((old.map fun s => s.elems ++ s.spare).getD [])[e.2]?).getD type.zero)
            (type.marshal e.1) := by
  refine ⟨_, rfl, ?_⟩
  dsimp only
  rw [List.zipIdx_map, List.map_map]
  rfl

end Kinds

mutual

/-- **The decoder restores a value over an old one exactly where it can**. -/
theorem Ty.same_unmarshal_iff : (t : Ty) → t.Distinct → (old new : t.Val) →
    (t.Same (t.unmarshal old (t.marshal new)) new ↔ t.Restores old new)
  | .string, _, _, _ => iff_of_true rfl trivial
  | .bool, _, _, _ => iff_of_true rfl trivial
  | .int, _, _, _ => iff_of_true rfl trivial
  | .uint, _, _, _ => iff_of_true rfl trivial
  | .float, _, _, _ => iff_of_true rfl trivial
  | .map value, _, _, none => iff_of_true Option.Rel.none trivial
  | .map value, hd, old, some m => by
    obtain ⟨m', hm', hlookup⟩ := Ty.unmarshal_map old m
    rw [hm', Ty.same_map]
    simp only [hlookup]
    constructor
    · intro h
      refine ⟨fun k hk => ?_, fun k v hv => ?_⟩
      · by_contra hnot
        have hrel := h k
        rw [AList.lookup_eq_none.mpr hnot, Option.map_none, Option.none_or] at hrel
        obtain ⟨w, hw⟩ := Option.isSome_iff_exists.mp (AList.lookup_isSome.mpr hk)
        rw [hw] at hrel
        cases hrel
      · have hrel := h k
        rw [hv, Option.map_some, Option.some_or, rel_some_some] at hrel
        exact (value.same_unmarshal_iff hd value.zero v).mp hrel
    · rintro ⟨hkeys, hvalues⟩ k
      cases hv : m.lookup k with
      | none =>
        have hnone := AList.lookup_eq_none.mpr fun hk => AList.lookup_eq_none.mp hv (hkeys k hk)
        rw [Option.map_none, Option.none_or, hnone]
        exact Option.Rel.none
      | some v =>
        rw [Option.map_some, Option.some_or, rel_some_some]
        exact (value.same_unmarshal_iff hd value.zero v).mpr (hvalues k v hv)
  | .slice elem, _, _, none => iff_of_true Option.Rel.none trivial
  | .slice elem, hd, old, some s => by
    obtain ⟨s', hs', helems⟩ := Ty.unmarshal_slice old s
    rw [hs', Ty.same_slice, helems, forall₂_zipIdx_iff (f := fun v i => elem.unmarshal
      (((Option.map (fun s => s.elems ++ s.spare) old).getD [])[i]?.getD elem.zero)
        (elem.marshal v))]
    refine forall₃_congr fun i v _ => ?_
    rw [Nat.zero_add]
    exact elem.same_unmarshal_iff hd _ v
  | .struct fields, hd, old, new => fields.same_unmarshal_iff hd old new
  | .ptr target, _, _, none => iff_of_true Option.Rel.none trivial
  | .ptr target, hd, old, some v => by
    have hmarshal : (Ty.ptr target).marshal (some v) = target.marshal v := rfl
    have hrestores : (Ty.ptr target).Restores old (some v) ↔ target.isNull v = false ∧
        target.Restores (Option.getD old target.zero) v := Iff.rfl
    rw [hmarshal, hrestores]
    by_cases hnull : target.marshal v = .null
    · rw [hnull]
      refine iff_of_false not_rel_none_some fun h => ?_
      rw [(target.marshal_eq_null_iff v).mp hnull] at h
      cases h.1
    · have hfalse : target.isNull v = false := by
        rw [← Bool.not_eq_true, ← target.marshal_eq_null_iff]
        exact hnull
      rw [Ty.unmarshal_ptr old hnull, Ty.same_ptr, target.same_unmarshal_iff hd, hfalse,
        eq_self_iff_true, true_and]

/-- Field by field: decoding into two values gives the same just if it does for each field. -/
theorem Fields.same_unmarshal_iff : (fs : Fields) → fs.Distinct → (old new : fs.Val) →
    (fs.Same (fs.unmarshal old (fs.marshal new)) new ↔ fs.Restores old new)
  | .nil, _, _, _ => iff_of_true trivial trivial
  | .cons name omitempty type rest, ⟨hname, htype, hrest⟩, (v, vs), (v', vs') => by
    rw [Fields.marshal, Fields.Restores, ← rest.same_unmarshal_iff hrest vs vs']
    split
    · rw [Fields.unmarshal, Fields.filter_marshal vs' hname]
      exact Iff.rfl
    · rw [Fields.unmarshal, List.filter_cons_of_pos (by simp), Fields.filter_marshal vs' hname,
        rest.unmarshal_cons_of_not_mem vs (rest.marshal vs') hname,
        ← type.same_unmarshal_iff htype v v']
      exact Iff.rfl

end

mutual

theorem Ty.accepts_marshal : (t : Ty) → t.Distinct → (v : t.Val) →
    t.accepts (t.marshal v) = true
  | .string, _, _ => rfl
  | .bool, _, _ => rfl
  | .int, _, _ => rfl
  | .uint, _, (n : ℕ) => decide_eq_true ⟨rfl, Int.natCast_nonneg n⟩
  | .float, _, _ => rfl
  | .map _, _, none => rfl
  | .map value, hd, some m => by
    have hall : (m.entries.map fun e => (e.1, value.marshal e.2)).all
        (fun e => value.accepts e.2) = true := by
      rw [List.all_map, List.all_eq_true]
      exact fun e _ => value.accepts_marshal hd e.2
    exact hall
  | .slice _, _, none => rfl
  | .slice elem, hd, some s => by
    have hall : (s.elems.map elem.marshal).all elem.accepts = true := by
      rw [List.all_map, List.all_eq_true]
      exact fun v _ => elem.accepts_marshal hd v
    exact hall
  | .struct fields, hd, v => fields.accepts_marshal hd v
  | .ptr _, _, none => rfl
  | .ptr target, hd, some v => by
    have haccepts := target.accepts_marshal hd v
    show (Ty.ptr target).accepts (target.marshal v) = true
    cases hj : target.marshal v with
    | null => rfl
    | bool b => rwa [hj] at haccepts
    | num q => rwa [hj] at haccepts
    | str x => rwa [hj] at haccepts
    | arr elems => rwa [hj] at haccepts
    | obj members => rwa [hj] at haccepts

theorem Fields.accepts_marshal : (fs : Fields) → fs.Distinct → (v : fs.Val) →
    fs.accepts (fs.marshal v) = true
  | .nil, _, _ => rfl
  | .cons name omitempty type rest, ⟨hname, htype, hrest⟩, (v, vs) => by
    rw [Fields.marshal]
    split
    · rw [Fields.accepts, Fields.filter_marshal vs hname, rest.accepts_marshal hrest vs]
      rfl
    · rw [Fields.accepts, List.filter_cons_of_pos (by simp), Fields.filter_marshal vs hname,
        rest.accepts_cons_of_not_mem (rest.marshal vs) hname, rest.accepts_marshal hrest vs,
        List.all_cons, type.accepts_marshal htype v]
      rfl

end

end GoJson
