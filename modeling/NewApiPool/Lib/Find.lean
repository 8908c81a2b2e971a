import Mathlib.Data.List.Infix

/-!
# The first occurrence

`index sub s` is the place of the first occurrence of `sub` in `s`, as `strings.Index` finds it.
What is before it has no `sub` in it (`exists_of_index`). The other way round, to know the place it
is enough that the first two letters of `sub` differ and do not stand together before it
(`index_append`).
-/

namespace NewApiPool.Find

section Cut

variable {α : Type*}

/-- A letter that is not in the first part is behind it. -/
theorem exists_of_append_eq_append_cons {s t u v : List α} {a : α} (ha : a ∉ s)
    (h : s ++ t = u ++ a :: v) : ∃ w, u = s ++ w ∧ t = w ++ a :: v := by
  rcases List.append_eq_append_iff.1 h with ⟨w, rfl, rfl⟩ | ⟨w, rfl, hw⟩
  · exact ⟨w, rfl, rfl⟩
  · cases w with
    | nil => exact ⟨[], by simp, hw.symm⟩
    | cons b w =>
      obtain rfl := (List.cons.inj hw).1
      exact absurd (List.mem_append_right u List.mem_cons_self) ha

end Cut

variable {α : Type*} [DecidableEq α] {sub s : List α}

/-- The first place where `sub` stands in the list. -/
def index (sub : List α) : List α → Option ℕ
  | [] => if sub = [] then some 0 else none
  | a :: s => if sub <+: a :: s then some 0 else (index sub s).map (· + 1)

/-- **A place that was found**: `sub` stands there, and not before. -/
theorem exists_of_index {i : ℕ} (hsub : sub ≠ []) (h : index sub s = some i) :
    ∃ before after, s = before ++ (sub ++ after) ∧ before.length = i ∧ ¬sub <:+: before := by
  induction s generalizing i with
  | nil => simp [index, hsub] at h
  | cons a s ih =>
    rw [index] at h
    split_ifs at h with hstarts
    · obtain ⟨after, hafter⟩ := hstarts
      refine ⟨[], after, hafter.symm, Option.some.inj h, ?_⟩
      rwa [List.infix_nil]
    · obtain ⟨j, hj, rfl⟩ := Option.map_eq_some_iff.1 h
      obtain ⟨before, after, rfl, rfl, hbefore⟩ := ih hj
      refine ⟨a :: before, after, rfl, rfl, fun hoccurs => ?_⟩
      rcases List.infix_cons_iff.1 hoccurs with hstart | hlater
      · exact hstarts (hstart.trans (List.prefix_append (a :: before) _))
      · exact hbefore hlater

/-- A text of two letters or more is not found before its first two letters. -/
theorem index_append {x y : α} (hne : x ≠ y) (sub after : List α) {before : List α}
    (h : ¬[x, y] <:+: before) :
    index (x :: y :: sub) (before ++ (x :: y :: sub ++ after)) = some before.length := by
  induction before with
  | nil => exact if_pos (List.prefix_append _ _)
  | cons a before ih =>
    have hlater : ¬[x, y] <:+: before := fun hoccurs => h (List.infix_cons hoccurs)
    have hstarts : ¬x :: y :: sub <+: a :: (before ++ (x :: y :: sub ++ after)) := by
      rintro hstarts
      obtain ⟨rfl, hrest⟩ := List.cons_prefix_cons.1 hstarts
      cases before with
      | nil => exact hne (List.cons_prefix_cons.1 hrest).1.symm
      | cons b before =>
        obtain ⟨rfl, -⟩ := List.cons_prefix_cons.1 hrest
        exact h ⟨[], before, rfl⟩
    rw [List.cons_append, index, if_neg hstarts, ih hlater]
    rfl

theorem index_singleton {x : α} (after : List α) {before : List α} (h : x ∉ before) :
    index [x] (before ++ x :: after) = some before.length := by
  induction before with
  | nil => exact if_pos ⟨after, rfl⟩
  | cons a before ih =>
    obtain ⟨hne, hlater⟩ := not_or.1 (mt List.mem_cons.2 h)
    have hstarts : ¬[x] <+: a :: (before ++ x :: after) := fun hstarts =>
      hne (List.cons_prefix_cons.1 hstarts).1
    rw [List.cons_append, index, if_neg hstarts, ih hlater]
    rfl

end NewApiPool.Find
