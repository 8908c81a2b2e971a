import Mathlib.Algebra.BigOperators.Group.List.Basic
import Mathlib.Algebra.GroupWithZero.Nat
import Mathlib.Data.List.Perm.Basic
import NewApiPool.Lib.JsonPlaces

/-!
# Writing and removing

A value is written at one path, and then what is at another path is removed. What is left at the
first path, and whether the two can be exchanged, depends on the places they lead to:

* `Doc.eraseAt_setAt` – what is written inside of what is removed is lost.
* `Doc.getAt_eraseAt_setAt` – what is removed inside of what is written is missing there.
* `Doc.setAt_eraseAt` – apart from each other they can be exchanged, unless an element is removed
  before the one that is written to (`Doc.Shifts`).
* `Doc.getAt_of_shifts` – if it is, nothing else is changed only where the value was there before.
-/

namespace JsonDoc.Doc

variable {ν : Type} {j j' c c' u v w x y : Doc ν} {f : ν → ν} {seg seg' : String}
  {path path' rest : List String}

/-! ### One step -/

variable {α : Type} {key : String}

theorem eraseMember_replaceMember {a : α} (members : List (String × α)) :
    eraseMember key (replaceMember key a members) = eraseMember key members := by
  induction members with
  | nil => rfl
  | cons member members ih =>
    obtain ⟨key', b⟩ := member
    by_cases hkey : key' = key
    · simp [replaceMember, eraseMember, hkey]
    · simp [replaceMember, eraseMember, hkey, ih]

theorem erase_replace (j : Doc ν) : (j.replace seg x).erase seg = j.erase seg := by
  cases j with
  | arr items =>
    cases hi : index? seg with
    | none => simp [replace, hi]
    | some i => simp [replace, erase, hi, List.eraseIdx_set_eq]
  | obj members => exact congrArg obj (eraseMember_replaceMember members)
  | null | bool b | num n | str s => rfl

theorem replaceMember_comm {key' : String} {a b : α} (hne : key ≠ key')
    (members : List (String × α)) :
    replaceMember key' b (replaceMember key a members) =
      replaceMember key a (replaceMember key' b members) := by
  induction members with
  | nil => rfl
  | cons member members ih =>
    obtain ⟨key₁, d⟩ := member
    by_cases hkey : key₁ = key
    · simp [replaceMember, hkey, hne]
    · by_cases hkey' : key₁ = key'
      · simp [replaceMember, hkey', Ne.symm hne]
      · simp [replaceMember, hkey, hkey', ih]

theorem replace_comm (hslot : j.slot seg ≠ j.slot seg') :
    (j.replace seg x).replace seg' y = (j.replace seg' y).replace seg x := by
  cases j with
  | arr items =>
    cases hi : index? seg with
    | none => cases hi' : index? seg' <;> simp [replace, hi, hi']
    | some i =>
      cases hi' : index? seg' with
      | none => simp [replace, hi, hi']
      | some i' =>
        have hne : i ≠ i' := fun heq => hslot (by simp only [slot, hi, hi', heq])
        simp only [replace, hi, hi', Option.map_some, Option.getD_some]
        rw [List.set_comm _ _ hne]
  | obj members =>
    have hne : seg ≠ seg' := fun heq => hslot (congrArg Sum.inl heq)
    exact congrArg obj (replaceMember_comm hne members)
  | null | bool b | num n | str s => rfl

theorem replaceMember_append {a b : α} {members : List (String × α)}
    (h : members.lookup key = some b) (members' : List (String × α)) :
    replaceMember key a (members ++ members') = replaceMember key a members ++ members' := by
  induction members with
  | nil => cases h
  | cons member members ih =>
    obtain ⟨key', d⟩ := member
    by_cases hkey : key' = key
    · simp [replaceMember, hkey]
    · rw [List.lookup_cons, beq_false_of_ne (Ne.symm hkey)] at h
      simp [replaceMember, hkey, ih h]

theorem eraseMember_append {b : α} {members : List (String × α)}
    (h : members.lookup key = some b) (members' : List (String × α)) :
    eraseMember key (members ++ members') = eraseMember key members ++ members' := by
  induction members with
  | nil => cases h
  | cons member members ih =>
    obtain ⟨key', d⟩ := member
    by_cases hkey : key' = key
    · simp [eraseMember, hkey]
    · rw [List.lookup_cons, beq_false_of_ne (Ne.symm hkey)] at h
      simp [eraseMember, hkey, ih h]

theorem lt_length_of_child {items : List (Doc ν)} {i : ℕ} (hi : index? seg = some i)
    (h : (Doc.arr items).child seg = some c) : i < items.length := by
  rw [child, hi, Option.bind_some] at h
  exact (List.getElem?_eq_some_iff.1 h).1

theorem child_add_of_child (hchild : j.child seg = some c) (hadd : j.add seg' y = some j') :
    j'.child seg = some c := by
  cases j with
  | arr items =>
    obtain ⟨i', hi', rfl⟩ := Option.map_eq_some_iff.1 hadd
    obtain ⟨i, hi, hitem⟩ := Option.bind_eq_some_iff.1 hchild
    have hlt := lt_length_of_child hi hchild
    rw [child, hi, Option.bind_some, List.append_assoc, List.getElem?_append_left hlt, hitem]
  | obj members =>
    obtain rfl := Option.some.inj hadd
    rw [child] at hchild
    rw [child, List.lookup_append, hchild]
    rfl
  | null | bool b | num n | str s => cases hchild

theorem add_replace (hchild : j.child seg = some c) (hadd : j.add seg' y = some j') :
    (j.replace seg x).add seg' y = some (j'.replace seg x) := by
  cases j with
  | arr items =>
    obtain ⟨i', hi', rfl⟩ := Option.map_eq_some_iff.1 hadd
    obtain ⟨i, hi, hitem⟩ := Option.bind_eq_some_iff.1 hchild
    have hlt := lt_length_of_child hi hchild
    simp only [replace, hi, Option.map_some, Option.getD_some, add, hi', List.length_set,
      List.append_assoc]
    rw [List.set_append_left _ _ hlt]
  | obj members =>
    obtain rfl := Option.some.inj hadd
    rw [child] at hchild
    rw [replace, add, replace, replaceMember_append hchild]
  | null | bool b | num n | str s => cases hchild

/-- An element is before another one. -/
def Before : Doc ν → String → String → Prop
  | .arr _, seg, seg' => ∃ i i', index? seg = some i ∧ index? seg' = some i' ∧ i < i'
  | _, _, _ => False

theorem child_erase (hchild : j.child seg = some c) (hslot : j.slot seg ≠ j.slot seg')
    (hbefore : ¬j.Before seg seg') : (j.erase seg).child seg' = j.child seg' := by
  cases j with
  | arr items =>
    obtain ⟨i, hi, -⟩ := Option.bind_eq_some_iff.1 hchild
    simp only [erase, hi, Option.map_some, Option.getD_some, child]
    cases hi' : index? seg' with
    | none => rfl
    | some i' =>
      have hne : i ≠ i' := fun heq => hslot (by simp only [slot, hi, hi', heq])
      have hle : ¬i < i' := fun hlt => hbefore ⟨i, i', hi, hi', hlt⟩
      rw [Option.bind_some, Option.bind_some, List.getElem?_eraseIdx_of_lt (by omega)]
  | obj members =>
    exact lookup_eraseMember_of_ne fun heq => hslot (congrArg Sum.inl heq.symm)
  | null | bool b | num n | str s => rfl

theorem eraseMember_replaceMember_of_ne {key' : String} {b : α} (hne : key ≠ key')
    (members : List (String × α)) :
    eraseMember key (replaceMember key' b members) =
      replaceMember key' b (eraseMember key members) := by
  induction members with
  | nil => rfl
  | cons member members ih =>
    obtain ⟨key₁, d⟩ := member
    by_cases hkey : key₁ = key
    · simp [replaceMember, eraseMember, hkey, hne]
    · by_cases hkey' : key₁ = key'
      · simp [replaceMember, eraseMember, hkey', Ne.symm hne]
      · simp [replaceMember, eraseMember, hkey, hkey', ih]

theorem replace_erase (hchild : j.child seg = some c) (hslot : j.slot seg ≠ j.slot seg')
    (hbefore : ¬j.Before seg seg') :
    (j.erase seg).replace seg' y = (j.replace seg' y).erase seg := by
  cases j with
  | arr items =>
    obtain ⟨i, hi, -⟩ := Option.bind_eq_some_iff.1 hchild
    cases hi' : index? seg' with
    | none => simp [erase, replace, hi, hi']
    | some i' =>
      have hne : i ≠ i' := fun heq => hslot (by simp only [slot, hi, hi', heq])
      have hle : ¬i < i' := fun hlt => hbefore ⟨i, i', hi, hi', hlt⟩
      simp only [erase, replace, hi, hi', Option.map_some, Option.getD_some]
      rw [List.eraseIdx_set_gt (by omega)]
  | obj members =>
    have hne : seg ≠ seg' := fun heq => hslot (congrArg Sum.inl heq)
    exact congrArg obj (eraseMember_replaceMember_of_ne hne members).symm
  | null | bool b | num n | str s => rfl

theorem add_erase (hchild : j.child seg = some c) (hchild' : j.child seg' = none)
    (hbefore : ¬j.Before seg seg') (hadd : j.add seg' y = some j') :
    (j.erase seg).add seg' y = some (j'.erase seg) := by
  cases j with
  | arr items =>
    obtain ⟨i', hi', -⟩ := Option.map_eq_some_iff.1 hadd
    obtain ⟨i, hi, -⟩ := Option.bind_eq_some_iff.1 hchild
    have hlt := lt_length_of_child hi hchild
    rw [child, hi', Option.bind_some, List.getElem?_eq_none_iff] at hchild'
    exact absurd ⟨i, i', hi, hi', hlt.trans_le hchild'⟩ hbefore
  | obj members =>
    obtain rfl := Option.some.inj hadd
    rw [child] at hchild
    rw [erase, add, erase, eraseMember_append hchild]
  | null | bool b | num n | str s => cases hchild

/-! ### One step of two paths -/

theorem behind_cons_eq_some (h : j.behind (seg :: path) path' = some rest) :
    ∃ seg' path'' c, path' = seg' :: path'' ∧ j.slot seg = j.slot seg' ∧ j.child seg = some c ∧
      c.behind path path'' = some rest := by
  cases path' with
  | nil => cases h
  | cons seg' path'' =>
    rw [behind] at h
    split_ifs at h with hslot
    obtain ⟨c, hchild, hrest⟩ := Option.bind_eq_some_iff.1 h
    exact ⟨seg', path'', c, rfl, hslot, hchild, hrest⟩

theorem behind_nil_right (h : j.behind path [] = some rest) : path = [] ∧ rest = [] := by
  cases path with
  | nil => exact ⟨rfl, (Option.some.inj h).symm⟩
  | cons seg path => cases h

theorem behind_symm (h : j.behind path path' = some []) : j.behind path' path = some [] := by
  induction path generalizing path' j with
  | nil =>
    obtain rfl : path' = [] := Option.some.inj ((behind_nil j path').symm.trans h)
    exact h
  | cons seg path ih =>
    obtain ⟨seg', path'', c, rfl, hslot, hchild, hrest⟩ := behind_cons_eq_some h
    rw [behind_cons_of_slot ((child_congr hslot).symm.trans hchild) hslot.symm, ih hrest]

theorem setAt_cons_of_slot (hchild : j.child seg = some c) (hslot : j.slot seg = j.slot seg') :
    j.setAt (seg' :: path) w = (c.setAt path w).map (j.replace seg) := by
  have hreplace : j.replace seg' = j.replace seg := funext fun x => (replace_congr hslot).symm
  simp only [setAt, (child_congr hslot).symm.trans hchild, hreplace]

theorem eraseAt_cons_of_child (hne : path ≠ []) (hchild : j.child seg = some c) :
    j.eraseAt (seg :: path) = j.replace seg (c.eraseAt path) := by
  rw [eraseAt_cons hne]
  simp only [hchild]

theorem eraseAt_cons_replace (hne : path ≠ []) (hchild : j.child seg = some c) (x : Doc ν) :
    (j.replace seg x).eraseAt (seg :: path) = j.replace seg (x.eraseAt path) := by
  rw [eraseAt_cons_of_child hne (child_replace hchild), replace_replace]

/-! ### One path inside of the other -/

/-- **What is written inside of what is removed** is lost. -/
theorem eraseAt_setAt (hne : path ≠ []) (h : j.behind path path' = some rest)
    (hset : j.setAt path' w = some j') : j'.eraseAt path = j.eraseAt path := by
  induction path generalizing path' j j' with
  | nil => exact absurd rfl hne
  | cons seg path ih =>
    obtain ⟨seg', path'', c, rfl, hslot, hchild, hrest⟩ := behind_cons_eq_some h
    rw [setAt_cons_of_slot hchild hslot] at hset
    obtain ⟨x, hx, rfl⟩ := Option.map_eq_some_iff.1 hset
    by_cases hpath : path = []
    · subst hpath
      exact erase_replace j
    · rw [eraseAt_cons_replace hpath hchild, ih hpath hrest hx, eraseAt_cons_of_child hpath hchild]

/-- **What is removed inside of what is written** is missing there. -/
theorem getAt_eraseAt_setAt (hne : rest ≠ []) (h : j.behind path' path = some rest)
    (hset : j.setAt path' w = some j') : (j'.eraseAt path).getAt path' = some (w.eraseAt rest) := by
  induction path' generalizing path j j' with
  | nil =>
    obtain rfl := Option.some.inj hset
    obtain rfl : path = rest := Option.some.inj ((behind_nil j path).symm.trans h)
    rfl
  | cons seg' path' ih =>
    obtain ⟨seg, path, c, rfl, hslot, hchild, hrest⟩ := behind_cons_eq_some h
    have hchild' : j.child seg = some c := (child_congr hslot).symm.trans hchild
    have hpath : path ≠ [] := by
      rintro rfl
      exact hne (behind_nil_right hrest).2
    rw [setAt_cons_of_slot hchild' hslot.symm] at hset
    obtain ⟨x, hx, rfl⟩ := Option.map_eq_some_iff.1 hset
    rw [eraseAt_cons_replace hpath hchild', replace_congr hslot.symm, getAt, child_replace hchild,
      Option.bind_some, ih hrest hx]

/-! ### Paths apart from each other -/

/-- **What is removed moves down** what is at another path: it is an element, and the other path
leads to a later element of the same array. -/
def Shifts : Doc ν → (path path' : List String) → Prop
  | j, seg :: path, seg' :: path' =>
    (j.slot seg = j.slot seg' ∧ ∃ c ∈ j.child seg, c.Shifts path path') ∨
      (path = [] ∧ j.Before seg seg')
  | _, _, _ => False

theorem Before.slot_ne (h : j.Before seg seg') : j.slot seg ≠ j.slot seg' := by
  cases j with
  | arr items =>
    obtain ⟨i, i', hi, hi', hlt⟩ := h
    simp only [slot, hi, hi']
    exact fun heq => hlt.ne (Option.some.inj (Sum.inr.inj heq))
  | obj members | null | bool b | num n | str s => cases h

theorem behind_of_shifts (h : j.Shifts path path') :
    j.behind path path' = none ∧ j.behind path' path = none := by
  induction path generalizing path' j with
  | nil => cases h
  | cons seg path ih =>
    cases path' with
    | nil => cases h
    | cons seg' path' =>
      rw [Shifts] at h
      obtain ⟨hslot, c, hchild, hshift⟩ | ⟨-, hbefore⟩ := h
      · rw [behind_cons_of_slot hchild hslot,
          behind_cons_of_slot ((child_congr hslot).symm.trans hchild) hslot.symm]
        exact ih hshift
      · exact ⟨behind_cons_of_ne hbefore.slot_ne, behind_cons_of_ne hbefore.slot_ne.symm⟩

/-- **Writing and removing can be exchanged.** -/
theorem setAt_eraseAt (hget : j.getAt path = some v) (h : j.behind path path' = none)
    (h' : j.behind path' path = none) (hshift : ¬j.Shifts path path')
    (hset : j.setAt path' w = some j') :
    (j.eraseAt path).setAt path' w = some (j'.eraseAt path) := by
  induction path generalizing path' j j' with
  | nil => simp at h
  | cons seg path ih =>
    cases path' with
    | nil => simp at h'
    | cons seg' path' =>
      obtain ⟨c, hchild, hrest⟩ := Option.bind_eq_some_iff.1 hget
      rw [Shifts, not_or] at hshift
      by_cases hslot : j.slot seg = j.slot seg'
      · have hchild' := (child_congr hslot).symm.trans hchild
        rw [behind_cons_of_slot hchild hslot] at h
        rw [behind_cons_of_slot hchild' hslot.symm] at h'
        rw [setAt_cons_of_slot hchild hslot] at hset
        obtain ⟨x, hx, rfl⟩ := Option.map_eq_some_iff.1 hset
        have hpath : path ≠ [] := by
          rintro rfl
          simp at h
        have hslot' : (j.replace seg (c.eraseAt path)).slot seg =
            (j.replace seg (c.eraseAt path)).slot seg' := by rwa [slot_replace]
        rw [eraseAt_cons_of_child hpath hchild, eraseAt_cons_replace hpath hchild,
          setAt_cons_of_slot (child_replace hchild) hslot',
          ih hrest h h' (fun hc => hshift.1 ⟨hslot, c, hchild, hc⟩) hx, Option.map_some,
          replace_replace]
      · by_cases hpath : path = []
        · subst hpath
          have hbefore : ¬j.Before seg seg' := fun hb => hshift.2 ⟨rfl, hb⟩
          rw [setAt] at hset
          change (j.erase seg).setAt (seg' :: path') w = some (j'.erase seg)
          rw [setAt, child_erase hchild hslot hbefore]
          cases hchild' : j.child seg' with
          | none =>
            simp only [hchild'] at hset ⊢
            exact add_erase hchild hchild' hbefore hset
          | some c' =>
            simp only [hchild'] at hset ⊢
            obtain ⟨x, hx, rfl⟩ := Option.map_eq_some_iff.1 hset
            rw [hx, Option.map_some, replace_erase hchild hslot hbefore]
        · rw [eraseAt_cons_of_child hpath hchild]
          rw [setAt] at hset ⊢
          rw [child_replace_of_slot_ne hslot]
          cases hchild' : j.child seg' with
          | none =>
            simp only [hchild'] at hset ⊢
            rw [add_replace hchild hset,
              eraseAt_cons_of_child hpath (child_add_of_child hchild hset)]
          | some c' =>
            simp only [hchild'] at hset ⊢
            obtain ⟨x, hx, rfl⟩ := Option.map_eq_some_iff.1 hset
            rw [hx, Option.map_some, replace_comm hslot, eraseAt_cons_of_child hpath]
            rw [child_replace_of_slot_ne (Ne.symm hslot), hchild]

/-- **An element is removed before the one that is written to**: only if the value was there before
is something at the path, and nothing else changed. -/
theorem getAt_of_shifts (hget : j.getAt path = some v) (hshift : j.Shifts path path')
    (hset : j.setAt path' w = some j')
    (hdiff : DiffersAt path' (j.eraseAt path) (j'.eraseAt path))
    (hsome : (j'.eraseAt path).getAt path' = some u) : j.getAt path' = some w := by
  induction path generalizing path' j j' with
  | nil => cases hshift
  | cons seg path ih =>
    cases path' with
    | nil => cases hshift
    | cons seg' path' =>
      obtain ⟨c, hchild, hrest⟩ := Option.bind_eq_some_iff.1 hget
      rw [Shifts] at hshift
      obtain ⟨hslot, c', hc', hshift⟩ | ⟨rfl, hbefore⟩ := hshift
      · obtain rfl : c' = c := Option.some.inj (hc'.symm.trans hchild)
        have hchild' := (child_congr hslot).symm.trans hchild
        have hpath : path ≠ [] := by
          rintro rfl
          cases hshift
        rw [setAt_cons_of_slot hchild hslot] at hset
        obtain ⟨x, hx, rfl⟩ := Option.map_eq_some_iff.1 hset
        rw [eraseAt_cons_replace hpath hchild, replace_congr hslot] at hdiff hsome
        rw [eraseAt_cons_of_child hpath hchild, replace_congr hslot] at hdiff
        have hbelow : DiffersAt path' (c'.eraseAt path) (x.eraseAt path) := by
          rw [← differsAt_replace (child_replace hchild'), replace_replace]
          exact hdiff
        rw [getAt, child_replace hchild', Option.bind_some] at hsome
        rw [getAt, hchild', Option.bind_some, ih hrest hshift hx hbelow hsome]
      · cases j with
        | arr items =>
          obtain ⟨i, i', hi, hi', hlt⟩ := hbefore
          have hlength := lt_length_of_child hi hchild
          rw [setAt] at hset
          cases hchild' : (Doc.arr items).child seg' with
          | none =>
            simp only [hchild'] at hset
            obtain ⟨k, hk, rfl⟩ := Option.map_eq_some_iff.1 hset
            obtain rfl : i' = k := Option.some.inj (hi'.symm.trans hk)
            rw [child, hi', Option.bind_some, List.getElem?_eq_none_iff] at hchild'
            change ((Doc.arr _).erase seg).getAt _ = _ at hsome
            simp only [erase, hi, Option.map_some, Option.getD_some, getAt, child, hi',
              Option.bind_some] at hsome
            rw [List.getElem?_eq_none] at hsome
            · cases hsome
            · rw [List.length_eraseIdx_of_lt]
              · simp only [List.length_append, List.length_replicate, List.length_singleton]
                omega
              · simp only [List.length_append, List.length_replicate, List.length_singleton]
                omega
          | some c' =>
            simp only [hchild'] at hset
            obtain ⟨x, hx, rfl⟩ := Option.map_eq_some_iff.1 hset
            have hlength' := lt_length_of_child hi' hchild'
            have hpred : i' - 1 + 1 = i' := by omega
            have hleft : ((Doc.arr items).replace seg' x).eraseAt [seg] =
                .arr ((items.set i' x).eraseIdx i) := by
              simp [replace, eraseAt, erase, hi, hi']
            have hbase : (Doc.arr items).eraseAt [seg] = .arr (items.eraseIdx i) := by
              simp [eraseAt, erase, hi]
            have hslot : (Doc.arr ((items.set i' x).eraseIdx i)).slot seg' ≠
                (Doc.arr ((items.set i' x).eraseIdx i)).slot (toString (i' - 1)) := by
              simp only [slot, hi', index?_toString]
              intro heq
              have := Option.some.inj (Sum.inr.inj heq)
              omega
            rw [hleft, hbase] at hdiff
            -- the value that is written moves to the element before, which is to be unchanged
            have hother := hdiff.other [toString (i' - 1)] (behind_cons_of_ne hslot)
              (behind_cons_of_ne hslot.symm)
            simp only [getAt, child, index?_toString, Option.bind_some] at hother
            rw [List.getElem?_eraseIdx_of_ge (by omega), List.getElem?_eraseIdx_of_ge (by omega),
              hpred, List.getElem?_set_self hlength'] at hother
            rw [getAt, hchild', Option.bind_some]
            rw [child, hi', Option.bind_some] at hchild'
            obtain rfl : x = c' := by simpa [hchild'] using hother
            exact getAt_setAt hx
        | obj members | null | bool b | num n | str s => cases hbefore

/-! ### How much there is -/

mutual

/-- How many values are in a value, with itself. -/
def nodes : Doc ν → ℕ
  | .arr items => nodesItems items + 1
  | .obj members => nodesMembers members + 1
  | .null | .bool _ | .num _ | .str _ => 1

def nodesItems : List (Doc ν) → ℕ
  | [] => 0
  | item :: items => item.nodes + nodesItems items

def nodesMembers : List (String × Doc ν) → ℕ
  | [] => 0
  | (_, value) :: members => value.nodes + nodesMembers members

end

theorem nodes_eq (j : Doc ν) : j.nodes = (j.children.map nodes).sum + 1 := by
  cases j with
  | arr items =>
    rw [nodes, children]
    induction items with
    | nil => rfl
    | cons item items ih => rw [nodesItems, List.map_cons, List.sum_cons]; omega
  | obj members =>
    rw [nodes, children]
    induction members with
    | nil => rfl
    | cons member members ih =>
      rw [nodesMembers, List.map_cons, List.map_cons, List.sum_cons]
      omega
  | null | bool b | num n | str s => rfl

/-- The values one step into another, when one of them is replaced or removed. -/
theorem children_replace (h : j.child seg = some c) (x : Doc ν) :
    ∃ l, j.children.Perm (c :: l) ∧ (j.replace seg x).children.Perm (x :: l) ∧
      (j.erase seg).children.Perm l := by
  cases j with
  | arr items =>
    obtain ⟨i, hi, hitem⟩ := Option.bind_eq_some_iff.1 h
    obtain ⟨hlt, rfl⟩ := List.getElem?_eq_some_iff.1 hitem
    refine ⟨items.eraseIdx i, (List.getElem_cons_eraseIdx_perm hlt).symm, ?_, ?_⟩
    · simp only [replace, hi, Option.map_some, Option.getD_some]
      exact List.set_perm_cons_eraseIdx hlt x
    · simp only [erase, hi, Option.map_some, Option.getD_some]
      exact .rfl
  | obj members =>
    refine ⟨(eraseMember seg members).map Prod.snd, ?_, ?_, .rfl⟩
    all_goals
      rw [child] at h
      simp only [replace, children]
      induction members with
      | nil => cases h
      | cons member members ih =>
        obtain ⟨key, d⟩ := member
        by_cases hkey : key = seg
        · subst hkey
          rw [List.lookup_cons, beq_self_eq_true] at h
          obtain rfl := Option.some.inj h
          simp [replaceMember, eraseMember]
        · rw [List.lookup_cons, beq_false_of_ne (Ne.symm hkey)] at h
          simp only [replaceMember, eraseMember, if_neg hkey, List.map_cons]
          exact ((ih h).cons d).trans (List.Perm.swap _ _ _)
  | null | bool b | num n | str s => cases h

/-- **Something is removed.** -/
theorem nodes_eraseAt_lt (hne : path ≠ []) (h : j.getAt path = some v) :
    (j.eraseAt path).nodes < j.nodes := by
  induction path generalizing j with
  | nil => exact absurd rfl hne
  | cons seg path ih =>
    obtain ⟨c, hchild, hrest⟩ := Option.bind_eq_some_iff.1 h
    obtain ⟨l, hj, hreplace, herase⟩ := children_replace hchild (c.eraseAt path)
    have hsum := (hj.map nodes).sum_nat
    by_cases hpath : path = []
    · subst hpath
      have hsum' := (herase.map nodes).sum_nat
      have hpos := nodes_eq c
      rw [eraseAt, nodes_eq, nodes_eq j, hsum, hsum', List.map_cons, List.sum_cons]
      omega
    · have hsum' := (hreplace.map nodes).sum_nat
      have hlt := ih hpath hrest
      rw [eraseAt_cons_of_child hpath hchild, nodes_eq, nodes_eq j, hsum, hsum', List.map_cons,
        List.map_cons, List.sum_cons, List.sum_cons]
      omega

theorem nodes_mapNum (j : Doc ν) : (j.mapNum f).nodes = j.nodes := by
  induction j using induct_children with
  | step j ih =>
    have hchildren : (j.mapNum f).children = j.children.map (mapNum f) := by
      cases j with
      | arr items => rw [mapNum_arr, children, children]
      | obj members =>
        rw [mapNum_obj, children, children, List.map_map, List.map_map]
        rfl
      | null | bool b | num n | str s => rfl
    rw [nodes_eq, nodes_eq j, hchildren, List.map_map]
    exact congrArg (·.sum + 1) (List.map_congr_left ih)

theorem nodes_sorted (j : Doc ν) : j.sorted.nodes = j.nodes := by
  induction j using induct_children with
  | step j ih =>
    have hchildren : j.sorted.children.Perm (j.children.map sorted) := by
      cases j with
      | arr items =>
        rw [sorted_arr, children, children]
      | obj members =>
        rw [sorted_obj, children, children, List.map_map]
        refine ((List.mergeSort_perm _ _).map Prod.snd).trans ?_
        rw [List.map_map]
        exact .rfl
      | null | bool b | num n | str s => exact .rfl
    have hsum := (hchildren.map nodes).sum_nat
    rw [nodes_eq, nodes_eq j, hsum, List.map_map]
    exact congrArg (·.sum + 1) (List.map_congr_left ih)

/-! ### Sorted members -/

theorem child_sorted (h : j.Distinct) (seg : String) :
    j.sorted.child seg = (j.child seg).map sorted := by
  cases j with
  | arr items =>
    rw [sorted_arr, child, child, Option.map_bind]
    refine congrArg _ (funext fun i => List.getElem?_map ..)
  | obj members =>
    have hperm := List.mergeSort_perm (members.map fun member => (member.1, member.2.sorted))
      fun a b => decide (a.1 ≤ b.1)
    have hnames : ((members.map fun member => (member.1, member.2.sorted)).map Prod.fst).Nodup := by
      rw [List.map_map]
      exact h.1
    have hnames' := (hperm.map Prod.fst).nodup_iff.2 hnames
    rw [sorted_obj, child, child, ← lookup_map fun _ => sorted]
    refine Option.ext fun c => ?_
    rw [lookup_eq_some_iff hnames', lookup_eq_some_iff hnames, hperm.mem_iff]
  | null | bool b | num n | str s => rfl

theorem getAt_sorted (h : j.Distinct) (path : List String) :
    j.sorted.getAt path = (j.getAt path).map sorted := by
  induction path generalizing j with
  | nil => rfl
  | cons seg path ih =>
    rw [getAt, getAt, child_sorted h]
    cases hchild : j.child seg with
    | none => rfl
    | some c => exact ih (h.children c (mem_children hchild))

theorem sorted_sorted (j : Doc ν) : j.sorted.sorted = j.sorted := by
  induction j using induct_children with
  | step j ih =>
    cases j with
    | arr items =>
      rw [sorted_arr, sorted_arr, List.map_map]
      exact congrArg arr (List.map_congr_left ih)
    | obj members =>
      let le (a b : String × Doc ν) : Bool := decide (a.1 ≤ b.1)
      have hsorted : ((members.map fun m => (m.1, m.2.sorted)).mergeSort le).Pairwise
          fun a b => le a b = true := by
        refine List.pairwise_mergeSort (fun a b c hab hbc => ?_) (fun a b => ?_) _
        · exact decide_eq_true (String.le_trans (of_decide_eq_true hab) (of_decide_eq_true hbc))
        · rw [Bool.or_eq_true]
          exact (String.le_total a.1 b.1).imp decide_eq_true decide_eq_true
      have hmap (l : List (String × Doc ν)) : (l.mergeSort le).map (fun m => (m.1, m.2.sorted)) =
          (l.map fun m => (m.1, m.2.sorted)).mergeSort le :=
        List.map_mergeSort fun a _ b _ => rfl
      have htwice : (members.map fun m => (m.1, m.2.sorted)).map (fun m => (m.1, m.2.sorted)) =
          members.map fun m => (m.1, m.2.sorted) := by
        rw [List.map_map]
        exact List.map_congr_left fun m hm => Prod.ext rfl (ih m.2 (List.mem_map_of_mem hm))
      rw [sorted_obj, sorted_obj, hmap, htwice]
      exact congrArg obj (List.mergeSort_of_pairwise hsorted)
    | null | bool b | num n | str s => rfl

/-! ### What is not there -/

theorem erase_of_child (h : j.child seg = none) : j.erase seg = j := by
  cases j with
  | arr items =>
    rw [child] at h
    cases hi : index? seg with
    | none => simp [erase, hi]
    | some i =>
      rw [hi, Option.bind_some, List.getElem?_eq_none_iff] at h
      simp [erase, hi, List.eraseIdx_of_length_le h]
  | obj members =>
    rw [child] at h
    refine congrArg obj ?_
    induction members with
    | nil => rfl
    | cons member members ih =>
      obtain ⟨key, d⟩ := member
      have hkey : seg ≠ key := by
        rintro rfl
        simp at h
      rw [List.lookup_cons, beq_false_of_ne hkey] at h
      rw [eraseMember, if_neg (Ne.symm hkey), ih h]
  | null | bool b | num n | str s => rfl

theorem eraseAt_of_getAt (h : j.getAt path = none) : j.eraseAt path = j := by
  induction path generalizing j with
  | nil => rfl
  | cons seg path ih =>
    cases hchild : j.child seg with
    | none =>
      by_cases hpath : path = []
      · subst hpath
        exact erase_of_child hchild
      · rw [eraseAt_cons hpath, hchild]
    | some c =>
      have hrest : c.getAt path = none := by rwa [getAt, hchild, Option.bind_some] at h
      have hpath : path ≠ [] := by
        rintro rfl
        cases hrest
      rw [eraseAt_cons_of_child hpath hchild, ih hrest, replace_child hchild]

end JsonDoc.Doc
