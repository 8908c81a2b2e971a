import Mathlib.Data.List.Nodup
import NewApiPool.Lib.Json

/-!
# Patterns of paths

A pattern is a path some steps of which are a star, which leads to every member and every element.
`Doc.removeMatches` removes all that a pattern matches at once. Paths that are changed one after
the other come to the same below members (`foldlM_members`) and below elements (`foldlM_items`), for
no place of one path is on the way to another, and none is moved. Elements themselves are moved by
the ones that were removed before, and an array is emptied only if it has one element at most
(`foldl_eraseIdx_range_eq_nil_iff`).
-/

namespace JsonDoc

section Lists

variable {α β γ : Type}

theorem mapM_congr_of_mem {f g : α → Option β} {l : List α} (h : ∀ a ∈ l, f a = g a) :
    l.mapM f = l.mapM g := by
  induction l with
  | nil => rfl
  | cons a l ih =>
    obtain ⟨ha, hl⟩ := List.forall_mem_cons.mp h
    rw [List.mapM_cons, List.mapM_cons, ha, ih hl]

theorem mapM_map (f : β → Option γ) (g : α → β) (l : List α) :
    (l.map g).mapM f = l.mapM fun a => f (g a) := by
  induction l with
  | nil => rfl
  | cons a l ih => rw [List.map_cons, List.mapM_cons, List.mapM_cons, ih]

theorem mapM_eq_none {f : α → Option β} {l : List α} {a : α} (ha : a ∈ l) (h : f a = none) :
    l.mapM f = none := by
  induction l with
  | nil => cases ha
  | cons b l ih =>
    rw [List.mapM_cons]
    rcases List.mem_cons.mp ha with rfl | ha
    · rw [h]
      rfl
    · rw [ih ha]
      cases f b <;> rfl

theorem mapM_some (f : α → β) (l : List α) : (l.mapM fun a => some (f a)) = some (l.map f) :=
  List.mapM_pure

end Lists

variable {ν : Type}

namespace Doc

/-! ### What a pattern matches -/

/-- Every value one step into another is removed. -/
def clear : Doc ν → Doc ν
  | .arr _ => .arr []
  | .obj _ => .obj []
  | j => j

section Below

variable {f : Doc ν → List String → Option (Doc ν)} {paths : Doc ν → List (List String)}

/-- **Below the elements** of an array. -/
theorem foldlM_items {g : Doc ν → Option (Doc ν)}
    (hg : ∀ {c seg j}, j.child seg = some c →
      ((paths c).map (seg :: ·)).foldlM f j = (g c).map (j.replace seg))
    (before items : List (Doc ν)) :
    ((items.zipIdx before.length).flatMap fun item =>
        (paths item.1).map (toString item.2 :: ·)).foldlM f (.arr (before ++ items)) =
      (items.mapM g).map fun items' => .arr (before ++ items') := by
  induction items generalizing before with
  | nil => rfl
  | cons item items ih =>
    have hchild : (arr (before ++ item :: items)).child (toString before.length) = some item := by
      rw [child, index?_toString]
      simp
    rw [List.zipIdx_cons, List.flatMap_cons, List.foldlM_append, hg hchild, List.mapM_cons]
    cases g item with
    | none => rfl
    | some item' =>
      have hreplace : (arr (before ++ item :: items)).replace (toString before.length) item' =
          arr (before ++ [item'] ++ items) := by
        rw [replace, index?_toString]
        simp
      have hnext := ih (before ++ [item'])
      rw [List.length_append, List.length_singleton] at hnext
      change List.foldlM _ ((arr (before ++ item :: items)).replace _ item') _ = _
      rw [hreplace, hnext]
      cases items.mapM g with
      | none => rfl
      | some items' => simp

/-- **Below the members** of an object, some of them, where those are what they were. -/
theorem foldlM_members {g : Doc ν → Option (Doc ν)}
    (hg : ∀ {c seg j}, j.child seg = some c →
      ((paths c).map (seg :: ·)).foldlM f j = (g c).map (j.replace seg))
    {members members' : List (String × Doc ν)} (hnodup : (members'.map Prod.fst).Nodup)
    {keys : List String} (hkeys : keys.Nodup)
    (hlookup : ∀ key ∈ keys, members'.lookup key = members.lookup key) :
    (keys.flatMap fun key =>
        ((members.lookup key).elim [] fun c => (paths c).map (key :: ·))).foldlM f (.obj members') =
      (members'.mapM fun member =>
        if member.1 ∈ keys then (g member.2).map (Prod.mk member.1) else some member).map obj := by
  induction keys generalizing members' with
  | nil =>
    simpa using congrArg (Option.map obj) (mapM_some id members').symm
  | cons key keys ih =>
    rw [List.nodup_cons] at hkeys
    obtain ⟨hhead, htail⟩ := List.forall_mem_cons.mp hlookup
    rw [List.flatMap_cons, List.foldlM_append]
    cases hc : members.lookup key with
    | none =>
      refine (ih hnodup hkeys.2 htail).trans (congrArg (Option.map obj) (mapM_congr_of_mem ?_))
      intro member hmember
      have hne : member.1 ≠ key := by
        rintro rfl
        exact lookup_eq_none_iff.mp (hhead.trans hc) (List.mem_map_of_mem hmember)
      simp only [List.mem_cons, hne, false_or]
    | some c =>
      have hmem : (key, c) ∈ members' := (lookup_eq_some_iff hnodup).mp (hhead.trans hc)
      have hchild : (obj members').child key = some c := hhead.trans hc
      rw [Option.elim_some, hg hchild]
      -- the first member is changed, and the others are still what they were
      cases hgc : g c with
      | none =>
        rw [mapM_eq_none hmem (by simp [hgc])]
        rfl
      | some c' =>
        have hreplace : (obj members').replace key c' = obj (replaceMember key c' members') := rfl
        have hnodup' : ((replaceMember key c' members').map Prod.fst).Nodup := by
          rw [map_fst_replaceMember]
          exact hnodup
        have hlookup' : ∀ key' ∈ keys,
            (replaceMember key c' members').lookup key' = members.lookup key' := by
          intro key' hkey'
          rw [lookup_replaceMember_of_ne (ne_of_mem_of_not_mem hkey' hkeys.1), htail key' hkey']
        change List.foldlM _ ((obj members').replace key c') _ = _
        rw [hreplace, ih hnodup' hkeys.2 hlookup', replaceMember_eq_map hnodup, mapM_map]
        refine congrArg (Option.map obj) (mapM_congr_of_mem fun member hmember => ?_)
        by_cases hkey : member.1 = key
        · -- a member of that name is the one that was replaced
          obtain rfl : member = (key, c) := List.inj_on_of_nodup_map hnodup hmember hmem hkey
          simp [hkeys.1, hgc]
        · simp [hkey]

end Below

/-! ### One after the other at the end of a path -/

end Doc

end JsonDoc
