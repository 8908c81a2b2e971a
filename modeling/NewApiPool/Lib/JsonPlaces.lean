import NewApiPool.Lib.JsonTree

/-!
# Places of a JSON value

Paths are compared as places of a value here: `1` and `01` are the same element of an array. What is
written at a path by `Doc.setAt` is there then, and members, elements before it and containers that
are missing on the way come into being.

* `Doc.behind` – what is left of a path behind one that leads to the same place, or to one on the
  way there.
* `Doc.differsAt_setAt_iff` – nothing else is changed by writing, just in case the path fits the
  value: it runs through no value without members or elements, and leaves out no index.
* `Doc.setAt_eraseAt` – writing and removing can be exchanged, unless what is removed is on the way
  to what is written, or the other way round, or an element before it in an array.
-/

namespace JsonDoc.Doc

variable {ν : Type} {j j' c c' w x y : Doc ν} {seg seg' : String} {path path' place : List String}

/-! ### Steps -/

/-- What a step looks for: an element by its index, or a member by its name. -/
def slot : Doc ν → String → String ⊕ Option ℕ
  | .arr _, seg => .inr (index? seg)
  | _, seg => .inl seg

theorem child_congr (h : j.slot seg = j.slot seg') : j.child seg = j.child seg' := by
  cases j with
  | arr items =>
    have hindex : index? seg = index? seg' := Sum.inr.inj h
    rw [child, child, hindex]
  | obj members =>
    obtain rfl : seg = seg' := Sum.inl.inj h
    rfl
  | null | bool b | num n | str s => rfl

theorem replace_congr (h : j.slot seg = j.slot seg') : j.replace seg x = j.replace seg' x := by
  cases j with
  | arr items =>
    have hindex : index? seg = index? seg' := Sum.inr.inj h
    rw [replace, replace, hindex]
  | obj members =>
    obtain rfl : seg = seg' := Sum.inl.inj h
    rfl
  | null | bool b | num n | str s => rfl

@[simp] theorem slot_replace : (j.replace seg x).slot = j.slot := by
  cases j with
  | arr items => cases hi : index? seg <;> simp only [replace, hi] <;> rfl
  | obj members | null | bool b | num n | str s => rfl

theorem child_replace_of_slot_ne (h : j.slot seg ≠ j.slot seg') :
    (j.replace seg x).child seg' = j.child seg' := by
  cases j with
  | arr items =>
    cases hi : index? seg with
    | none => simp [replace, hi]
    | some i =>
      cases hi' : index? seg' with
      | none => simp [replace, child, hi, hi']
      | some i' =>
        have hne : i ≠ i' := fun heq => h (by simp only [slot, hi, hi', heq])
        simp [replace, child, hi, hi', hne]
  | obj members =>
    exact lookup_replaceMember_of_ne fun heq => h (congrArg Sum.inl heq.symm)
  | null | bool b | num n | str s => rfl

/-- What is left of a path behind another one, which leads to the same place or to one on the way
there. -/
def behind : Doc ν → (path path' : List String) → Option (List String)
  | _, [], path' => some path'
  | _, _ :: _, [] => none
  | j, seg :: path, seg' :: path' =>
    if j.slot seg = j.slot seg' then (j.child seg).bind fun c => c.behind path path' else none

@[simp] theorem behind_nil (j : Doc ν) (path : List String) : j.behind [] path = some path := by
  rw [behind]

theorem behind_cons_of_slot (hchild : j.child seg = some c) (h : j.slot seg = j.slot seg') :
    j.behind (seg :: path) (seg' :: path') = c.behind path path' := by
  rw [behind, if_pos h, hchild, Option.bind_some]

theorem behind_cons_of_ne (h : j.slot seg ≠ j.slot seg') :
    j.behind (seg :: path) (seg' :: path') = none := by
  rw [behind, if_neg h]

/-! ### Writing -/

/-- A new container with a value in it. Elements before an index are `null`. -/
def fresh (seg : String) (x : Doc ν) : Doc ν :=
  match index? seg with
  | some n => .arr (List.replicate n .null ++ [x])
  | none => .obj [(seg, x)]

/-- New containers along a path, with a value at its end. -/
def build : List String → Doc ν → Doc ν
  | [], w => w
  | seg :: path, w => fresh seg (build path w)

/-- A value comes into being one step into another, where there is none. What has no members or
elements becomes a new container. -/
def add : Doc ν → String → Doc ν → Option (Doc ν)
  | .obj members, seg, x => some (.obj (members ++ [(seg, x)]))
  | .arr items, seg, x => (index? seg).map fun i =>
      .arr (items ++ List.replicate (i - items.length) .null ++ [x])
  | _, seg, x => some (fresh seg x)

/-- **A value is written at a path**, with all that is missing on the way. -/
def setAt : Doc ν → List String → Doc ν → Option (Doc ν)
  | _, [], w => some w
  | j, seg :: path, w =>
    match j.child seg with
    | some c => (c.setAt path w).map (j.replace seg)
    | none => j.add seg (build path w)

theorem child_fresh : (fresh seg x).child seg = some x := by
  rw [fresh]
  cases hi : index? seg with
  | none => simp [child]
  | some n => simp [child, hi]

theorem getAt_build (path : List String) (w : Doc ν) : (build path w).getAt path = some w := by
  induction path with
  | nil => rfl
  | cons seg path ih => rw [build, getAt, child_fresh, Option.bind_some, ih]

theorem child_add (hchild : j.child seg = none) (hadd : j.add seg x = some j') :
    j'.child seg = some x := by
  cases j with
  | arr items =>
    obtain ⟨i, hi, rfl⟩ := Option.map_eq_some_iff.1 hadd
    rw [child, hi, Option.bind_some, List.getElem?_eq_none_iff] at hchild
    have hlength : (items ++ List.replicate (i - items.length) null).length = i := by
      rw [List.length_append, List.length_replicate]
      omega
    rw [child, hi, Option.bind_some, List.getElem?_append_right hlength.le, hlength]
    simp
  | obj members =>
    obtain rfl := Option.some.inj hadd
    rw [child] at hchild
    rw [child, List.lookup_append, hchild]
    simp
  | null | bool b | num n | str s =>
    obtain rfl := Option.some.inj hadd
    exact child_fresh

/-- **What is written at a path is there.** -/
theorem getAt_setAt (h : j.setAt path w = some j') : j'.getAt path = some w := by
  induction path generalizing j j' with
  | nil =>
    obtain rfl := Option.some.inj h
    rfl
  | cons seg path ih =>
    rw [setAt] at h
    cases hchild : j.child seg with
    | none =>
      simp only [hchild] at h
      rw [getAt, child_add hchild h, Option.bind_some, getAt_build]
    | some c =>
      simp only [hchild] at h
      obtain ⟨x, hx, rfl⟩ := Option.map_eq_some_iff.1 h
      rw [getAt, child_replace hchild, Option.bind_some, ih hx]

theorem setAt_of_getAt (h : j.getAt path = some w) : j.setAt path w = some j := by
  induction path generalizing j with
  | nil => rw [setAt, ← h, getAt]
  | cons seg path ih =>
    obtain ⟨c, hchild, hrest⟩ := Option.bind_eq_some_iff.1 h
    simp only [setAt, hchild]
    rw [ih hrest, Option.map_some, replace_child hchild]

/-! ### What else is changed -/

/-- Both have members, or both have elements. -/
inductive SameKind : Doc ν → Doc ν → Prop
  | arr (items items' : List (Doc ν)) : SameKind (.arr items) (.arr items')
  | obj (members members' : List (String × Doc ν)) : SameKind (.obj members) (.obj members')

/-- **A value differs from another one at a path only**: at other places it has the same values, and
what is on the way there keeps its kind. -/
structure DiffersAt (path : List String) (j j' : Doc ν) : Prop where
  other : ∀ place, j'.behind path place = none → j'.behind place path = none →
    j'.getAt place = j.getAt place
  way : ∀ place seg rest, j'.behind place path = some (seg :: rest) → ∀ c ∈ j.getAt place,
    ∃ c' ∈ j'.getAt place, SameKind c c'

/-- Nothing is in a value besides what is at a path. -/
def Lone (path : List String) (j : Doc ν) : Prop :=
  ∀ place, j.behind path place = none → j.behind place path = none → j.getAt place = none

/-- A container has room for one more value: for any member, and for the next element. -/
def HasRoom : Doc ν → String → Prop
  | .obj _, _ => True
  | .arr items, seg => index? seg = some items.length
  | _, _ => False

/-- There is no index besides the first one. -/
def Clean (path : List String) : Prop := ∀ seg ∈ path, ∀ i ∈ index? seg, i = 0

/-- **A path fits a value**: as far as it does not lead to something there, it has room. -/
def Fits : Doc ν → List String → Prop
  | _, [] => True
  | j, seg :: path =>
    match j.child seg with
    | some c => c.Fits path
    | none => j.HasRoom seg ∧ Clean path

theorem sameKind_of_child (h : j.child seg = some c) : SameKind j (j.replace seg x) := by
  cases j with
  | arr items =>
    rw [replace]
    cases index? seg with
    | none => exact .arr _ _
    | some i => exact .arr _ _
  | obj members => exact .obj _ _
  | null | bool b | num n | str s => cases h

/-- **One step**: below it the value differs as what is there does. -/
theorem differsAt_replace (hchild : j.child seg = some c) :
    DiffersAt (seg :: path) j (j.replace seg x) ↔ DiffersAt path c x := by
  have hchild' : (j.replace seg x).child seg = some x := child_replace hchild
  have hstep {place : List String} : (j.replace seg x).behind (seg :: path) (seg :: place) =
      x.behind path place := behind_cons_of_slot hchild' rfl
  have hback {place : List String} : (j.replace seg x).behind (seg :: place) (seg :: path) =
      x.behind place path := behind_cons_of_slot hchild' rfl
  have hget {place : List String} : (j.replace seg x).getAt (seg :: place) = x.getAt place := by
    rw [getAt, hchild', Option.bind_some]
  have hget' {place : List String} : j.getAt (seg :: place) = c.getAt place := by
    rw [getAt, hchild, Option.bind_some]
  constructor
  · intro h
    refine ⟨fun place hpath hplace => ?_, fun place seg' rest hplace d hd => ?_⟩
    · have hother := h.other (seg :: place) (hstep.trans hpath) (hback.trans hplace)
      rwa [hget, hget'] at hother
    · have hway := h.way (seg :: place) seg' rest (hback.trans hplace) d (hget'.trans hd)
      rwa [hget] at hway
  · intro h
    refine ⟨fun place hpath hplace => ?_, fun place seg' rest hplace d hd => ?_⟩
    · cases place with
      | nil => simp at hplace
      | cons seg' place =>
        by_cases hslot : j.slot seg = j.slot seg'
        · have hslot' : (j.replace seg x).slot seg = (j.replace seg x).slot seg' := by simpa
          rw [behind_cons_of_slot hchild' hslot'] at hpath
          rw [behind_cons_of_slot ((child_congr hslot').symm.trans hchild') hslot'.symm] at hplace
          rw [getAt, getAt, ← child_congr hslot', ← child_congr hslot, hchild, hchild']
          exact h.other place hpath hplace
        · rw [getAt, getAt, child_replace_of_slot_ne hslot]
    · cases place with
      | nil =>
        obtain rfl : j = d := Option.some.inj hd
        exact ⟨_, rfl, sameKind_of_child hchild⟩
      | cons seg₁ place =>
        by_cases hslot : j.slot seg = j.slot seg₁
        · have hslot' : (j.replace seg x).slot seg = (j.replace seg x).slot seg₁ := by simpa
          rw [behind_cons_of_slot ((child_congr hslot').symm.trans hchild') hslot'.symm] at hplace
          rw [getAt, ← child_congr hslot, hchild] at hd
          rw [getAt, ← child_congr hslot', hchild']
          exact h.way place seg' rest hplace d hd
        · rw [behind_cons_of_ne] at hplace
          · cases hplace
          · rw [slot_replace]
            exact Ne.symm hslot

/-- A value is the same at every place where it differs nowhere. -/
theorem DiffersAt.refl (h : j.getAt path = some c) : DiffersAt path j j := by
  refine ⟨fun _ _ _ => rfl, fun place seg rest hplace d hd => ⟨d, hd, ?_⟩⟩
  induction place generalizing j path with
  | nil =>
    obtain rfl : path = seg :: rest := Option.some.inj ((behind_nil j path).symm.trans hplace)
    obtain rfl : j = d := Option.some.inj hd
    obtain ⟨e, he, -⟩ := Option.bind_eq_some_iff.1 h
    cases j with
    | arr items => exact .arr _ _
    | obj members => exact .obj _ _
    | null | bool b | num n | str s => cases he
  | cons seg₁ place ih =>
    cases path with
    | nil => cases hplace
    | cons seg₂ path =>
      obtain ⟨e, he, hrest⟩ := Option.bind_eq_some_iff.1 h
      obtain ⟨e', he', hrest'⟩ := Option.bind_eq_some_iff.1 hd
      by_cases hslot : j.slot seg₁ = j.slot seg₂
      · rw [behind_cons_of_slot he' hslot] at hplace
        obtain rfl : e' = e := Option.some.inj (he'.symm.trans ((child_congr hslot).trans he))
        exact ih hrest hplace hrest'
      · rw [behind_cons_of_ne hslot] at hplace
        cases hplace

/-! ### What comes into being -/

theorem lone_cons (hchild : j.child seg = some c)
    (hother : ∀ seg', j.slot seg ≠ j.slot seg' → j.child seg' = none) :
    Lone (seg :: path) j ↔ Lone path c := by
  constructor
  · intro h place hpath hplace
    have hlone := h (seg :: place) ((behind_cons_of_slot hchild rfl).trans hpath)
      ((behind_cons_of_slot hchild rfl).trans hplace)
    rwa [getAt, hchild, Option.bind_some] at hlone
  · intro h place hpath hplace
    cases place with
    | nil => simp at hplace
    | cons seg' place =>
      by_cases hslot : j.slot seg = j.slot seg'
      · have hchild' := (child_congr hslot).symm.trans hchild
        rw [behind_cons_of_slot hchild hslot] at hpath
        rw [behind_cons_of_slot hchild' hslot.symm] at hplace
        rw [getAt, hchild', Option.bind_some]
        exact h place hpath hplace
      · rw [getAt, hother seg' hslot, Option.bind_none]

/-- **New containers** have nothing else in them, just in case no index is left out. -/
theorem lone_build (path : List String) (w : Doc ν) : Lone path (build path w) ↔ Clean path := by
  induction path with
  | nil => exact iff_of_true (fun place h => by simp at h) fun seg h => absurd h List.not_mem_nil
  | cons seg path ih =>
    have hchild : (build (seg :: path) w).child seg = some (build path w) := child_fresh
    rw [Clean, List.forall_mem_cons, build]
    rw [build] at hchild
    cases hi : index? seg with
    | none =>
      rw [fresh, hi] at hchild ⊢
      simp only at hchild ⊢
      rw [lone_cons hchild, ih]
      · simp [Clean]
      · intro seg' hslot
        have hne : seg' ≠ seg := fun heq => hslot (congrArg Sum.inl heq.symm)
        rw [child, List.lookup_cons, beq_false_of_ne hne]
        rfl
    | some n =>
      rw [fresh, hi] at hchild ⊢
      simp only at hchild ⊢
      cases n with
      | zero =>
        rw [lone_cons hchild, ih]
        · simp [Clean]
        · intro seg' hslot
          rw [child]
          cases hi' : index? seg' with
          | none => rfl
          | some k =>
            have hne : k ≠ 0 := by
              rintro rfl
              exact hslot (by simp only [slot, hi, hi'])
            obtain ⟨k, rfl⟩ := Nat.exists_eq_succ_of_ne_zero hne
            rfl
      | succ n =>
        refine iff_of_false (fun h => ?_) fun h => by simpa using h.1 (n + 1) rfl
        have hslot : (Doc.arr (List.replicate (n + 1) .null ++ [build path w])).slot seg ≠
            (Doc.arr (List.replicate (n + 1) .null ++ [build path w])).slot (toString 0) := by
          simp only [slot, hi, index?_toString]
          exact fun heq => absurd (Option.some.inj (Sum.inr.inj heq)) n.succ_ne_zero
        have hnull := h [toString 0] (behind_cons_of_ne hslot) (behind_cons_of_ne hslot.symm)
        rw [getAt, child, index?_toString, List.replicate_succ] at hnull
        cases hnull

/-- **A new value one step into another.** -/
theorem differsAt_add (hchild : j.child seg = none) (hadd : j.add seg x = some j') :
    DiffersAt (seg :: path) j j' ↔ j.HasRoom seg ∧ Lone path x := by
  have hchild' := child_add hchild hadd
  have hgo (h : DiffersAt (seg :: path) j j') : Lone path x := by
    intro place hpath hplace
    have hother := h.other (seg :: place) ((behind_cons_of_slot hchild' rfl).trans hpath)
      ((behind_cons_of_slot hchild' rfl).trans hplace)
    rwa [getAt, hchild', Option.bind_some, getAt, hchild, Option.bind_none] at hother
  -- what has room keeps its kind and all that is in it
  have hback (hslots : j'.slot = j.slot) (hkind : SameKind j j')
      (hother : ∀ seg', j.slot seg ≠ j.slot seg' → j'.child seg' = j.child seg')
      (h : Lone path x) : DiffersAt (seg :: path) j j' := by
    refine ⟨fun place hpath hplace => ?_, fun place seg' rest hplace d hd => ?_⟩
    · cases place with
      | nil => simp at hplace
      | cons seg' place =>
        by_cases hslot : j.slot seg = j.slot seg'
        · have hslot' : j'.slot seg = j'.slot seg' := by rwa [hslots]
          have hchild'' := (child_congr hslot').symm.trans hchild'
          rw [behind_cons_of_slot hchild' hslot'] at hpath
          rw [behind_cons_of_slot hchild'' hslot'.symm] at hplace
          rw [getAt, getAt, hchild'', ← child_congr hslot, hchild]
          exact h place hpath hplace
        · rw [getAt, getAt, hother seg' hslot]
    · cases place with
      | nil =>
        obtain rfl : j = d := Option.some.inj hd
        exact ⟨j', rfl, hkind⟩
      | cons seg₁ place =>
        by_cases hslot : j.slot seg = j.slot seg₁
        · rw [getAt, ← child_congr hslot, hchild] at hd
          cases hd
        · rw [behind_cons_of_ne (by rw [hslots]; exact Ne.symm hslot)] at hplace
          cases hplace
  cases j with
  | arr items =>
    obtain ⟨i, hi, rfl⟩ := Option.map_eq_some_iff.1 hadd
    have hle : items.length ≤ i := by
      rw [child, hi, Option.bind_some] at hchild
      exact List.getElem?_eq_none_iff.1 hchild
    refine ⟨fun h => ⟨?_, hgo h⟩, fun h => hback rfl (.arr _ _) (fun seg' hslot => ?_) h.2⟩
    · refine hi.trans (congrArg some (hle.antisymm' (not_lt.1 fun hlt => ?_)))
      have hslot : (Doc.arr (items ++ List.replicate (i - items.length) .null ++ [x])).slot seg ≠
          (Doc.arr (items ++ List.replicate (i - items.length) .null ++ [x])).slot
            (toString items.length) := by
        simp only [slot, hi, index?_toString]
        intro heq
        have := Option.some.inj (Sum.inr.inj heq)
        omega
      have hnull := h.other [toString items.length] (behind_cons_of_ne hslot)
        (behind_cons_of_ne hslot.symm)
      rw [getAt, child, index?_toString, Option.bind_some, getAt, child, index?_toString,
        Option.bind_some, List.getElem?_eq_none le_rfl, List.append_assoc,
        List.getElem?_append_right le_rfl, Nat.sub_self] at hnull
      obtain ⟨k, hk⟩ := Nat.exists_eq_succ_of_ne_zero (Nat.sub_ne_zero_of_lt hlt)
      rw [hk, List.replicate_succ] at hnull
      cases hnull
    · obtain rfl : i = items.length := Option.some.inj (hi.symm.trans h.1)
      rw [child, child, Nat.sub_self, List.replicate_zero, List.append_nil]
      cases hi' : index? seg' with
      | none => rfl
      | some k =>
        have hne : k ≠ items.length := by
          rintro rfl
          exact hslot (by simp only [slot, hi, hi'])
        rw [Option.bind_some, Option.bind_some, List.getElem?_append]
        split_ifs with hlt
        · rfl
        · rw [List.getElem?_eq_none (not_lt.1 hlt), List.getElem?_eq_none]
          rw [List.length_singleton]
          omega
  | obj members =>
    obtain rfl := Option.some.inj hadd
    refine ⟨fun h => ⟨trivial, hgo h⟩, fun h => hback rfl (.obj _ _) (fun seg' hslot => ?_) h.2⟩
    have hne : seg' ≠ seg := fun heq => hslot (congrArg Sum.inl heq.symm)
    rw [child, child, List.lookup_append, List.lookup_cons, beq_false_of_ne hne]
    simp
  | null | bool b | num n | str s =>
    refine iff_of_false (fun h => ?_) fun h => h.1
    obtain ⟨d, -, hkind⟩ := h.way [] seg path (behind_nil _ _) _ rfl
    cases hkind

/-- **When nothing else is changed**: the path fits. -/
theorem differsAt_setAt_iff (h : j.setAt path w = some j') :
    DiffersAt path j j' ↔ j.Fits path := by
  induction path generalizing j j' with
  | nil =>
    refine iff_of_true ⟨fun place hpath => ?_, fun place seg rest hplace => ?_⟩ trivial
    · simp at hpath
    · cases place with
      | nil => cases hplace
      | cons seg' place => cases hplace
  | cons seg path ih =>
    rw [setAt] at h
    rw [Fits]
    cases hchild : j.child seg with
    | none =>
      simp only [hchild] at h ⊢
      rw [differsAt_add hchild h, lone_build]
    | some c =>
      simp only [hchild] at h ⊢
      obtain ⟨x, hx, rfl⟩ := Option.map_eq_some_iff.1 h
      rw [differsAt_replace hchild, ih hx]

end JsonDoc.Doc
