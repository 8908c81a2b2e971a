import Mathlib.Data.List.Infix
import Mathlib.Data.Nat.Notation

/-!
# String search by shifts

A window is moved over a text and compared with a pattern. After a mismatch the letter behind the
window says how far it moves. No occurrence is passed over if no letter lets the window move
further than its last place in the pattern allows (`search_eq_of_safe`), and if some letter does,
there is a text whose only fault is that it holds the pattern just there (`exists_search_eq_false`).
-/

namespace Shifts

variable {α : Type*} [DecidableEq α]

/-- How many letters agree from the beginning. -/
def agree : List α → List α → ℕ
  | [], _ => 0
  | _, [] => 0
  | a :: t, b :: p => if a = b then agree t p + 1 else 0

/-- The search with the window at `i`, for at most `fuel` rounds; `none` if it is not over then. -/
def search (shift : α → ℕ) (p t : List α) : ℕ → ℕ → Option Bool
  | 0, _ => none
  | fuel + 1, i =>
    if i + p.length ≤ t.length then
      if agree (t.drop i) p = p.length then some true
      else
        match t[i + p.length]? with
        | some c => search shift p t fuel (i + shift c)
        | none => some false
    else some false

/-- No letter lets the window pass over a place of that letter in the pattern. -/
def Safe (shift : α → ℕ) (p : List α) : Prop :=
  ∀ (j : ℕ) (c : α), p[j]? = some c → shift c + j ≤ p.length

variable {shift : α → ℕ} {p t : List α} {fuel i : ℕ}

theorem agree_eq_length_iff : agree t p = p.length ↔ p <+: t := by
  induction p generalizing t with
  | nil => cases t <;> simp [agree]
  | cons b p ih =>
    cases t with
    | nil => simp [agree]
    | cons a t =>
      rw [agree, List.cons_prefix_cons, List.length_cons]
      by_cases h : a = b
      · rw [if_pos h, Nat.add_right_cancel_iff, ih]
        exact ⟨fun hp => ⟨h.symm, hp⟩, fun hp => hp.2⟩
      · rw [if_neg h]
        exact ⟨fun hlen => absurd hlen (Nat.zero_ne_add_one _), fun hp => absurd hp.1.symm h⟩

omit [DecidableEq α] in
theorem infix_iff_exists_drop : p <:+: t ↔ ∃ k, p <+: t.drop k := by
  rw [List.infix_iff_prefix_suffix]
  constructor
  · rintro ⟨s, hp, l, rfl⟩
    exact ⟨l.length, by rwa [List.drop_left]⟩
  · rintro ⟨k, hp⟩
    exact ⟨t.drop k, hp, List.drop_suffix k t⟩

theorem infix_of_search (h : search shift p t fuel i = some true) : p <:+: t := by
  induction fuel generalizing i with
  | zero => cases h
  | succ fuel ih =>
    rw [search] at h
    split_ifs at h with hi hp
    · exact infix_iff_exists_drop.2 ⟨i, agree_eq_length_iff.1 hp⟩
    · cases hc : t[i + p.length]? with
      | some c =>
        rw [hc] at h
        exact ih h
      | none =>
        rw [hc] at h
        cases h
    · cases h

/-- **The search comes to an end**, as every move is to the right. -/
theorem exists_search_eq (hpos : ∀ c, 0 < shift c) (hfuel : t.length - i < fuel) :
    ∃ b, search shift p t fuel i = some b := by
  induction fuel generalizing i with
  | zero => exact absurd hfuel (Nat.not_lt_zero _)
  | succ fuel ih =>
    rw [search]
    split_ifs with hi hp
    · exact ⟨true, rfl⟩
    · cases hc : t[i + p.length]? with
      | some c =>
        have hlt : i + p.length < t.length := (List.getElem?_eq_some_iff.1 hc).1
        have hmove := hpos c
        exact ih (by omega)
      | none => exact ⟨false, rfl⟩
    · exact ⟨false, rfl⟩

/-! ### What is found -/

omit [DecidableEq α] in
/-- A safe move passes over no occurrence: one that the window would leave out has the letter
behind the window too far to the right. -/
theorem le_of_safe {c : α} {k : ℕ} (hsafe : Safe shift p) (hle : ∀ c, shift c ≤ p.length + 1)
    (hc : t[i + p.length]? = some c) (hnot : ¬p <+: t.drop i) (hp : p <+: t.drop (i + k)) :
    shift c ≤ k := by
  by_contra hlt
  have hk : k ≠ 0 := fun h => hnot (by rwa [h, Nat.add_zero] at hp)
  have hbound := hle c
  have hj : p.length - k < p.length := by omega
  have hletter : p[p.length - k]? = some c := by
    have hplace : i + k + (p.length - k) = i + p.length := by omega
    rw [List.getElem?_eq_getElem hj, ← List.prefix_iff_getElem?.1 hp _ hj, List.getElem?_drop,
      hplace, hc]
  have := hsafe _ c hletter
  omega

/-- A search with safe moves does not miss the pattern. -/
theorem search_ne_false (hsafe : Safe shift p) (hle : ∀ c, shift c ≤ p.length + 1)
    (hne : p ≠ []) (hin : p <:+: t.drop i) : search shift p t fuel i ≠ some false := by
  intro h
  induction fuel generalizing i with
  | zero => cases h
  | succ fuel ih =>
    have hlen : p.length ≤ t.length - i := List.length_drop ▸ hin.length_le
    have hpos : 0 < p.length := List.length_pos_of_ne_nil hne
    obtain ⟨k, hk⟩ := infix_iff_exists_drop.1 hin
    rw [List.drop_drop] at hk
    rw [search, if_pos (by omega)] at h
    have hnot : ¬p <+: t.drop i := by
      intro hp
      rw [if_pos (agree_eq_length_iff.2 hp)] at h
      cases h
    rw [if_neg fun hp => hnot (agree_eq_length_iff.1 hp)] at h
    cases hc : t[i + p.length]? with
    | some c =>
      rw [hc] at h
      have hmove : shift c ≤ k := le_of_safe hsafe hle hc hnot hk
      refine ih (infix_iff_exists_drop.2 ⟨k - shift c, ?_⟩) h
      rwa [List.drop_drop, Nat.add_assoc, Nat.add_sub_cancel' hmove]
    | none =>
      have hend : t.length ≤ i + p.length := List.getElem?_eq_none_iff.1 hc
      have heq : p = t.drop i := hin.eq_of_length (by rw [List.length_drop]; omega)
      exact hnot (heq ▸ List.prefix_refl _)

/-- **Beyond a safe move** there is a text in which the search finds nothing, although it ends with
the pattern: with as many letters before it as the window may move. -/
theorem exists_not_found [Nontrivial α] {j : ℕ} {c : α} (hj : p[j]? = some c)
    (hmove : p.length < shift c + j) :
    ∃ t, p <:+: t ∧ search shift p t (t.length + 1) 0 = some false := by
  have hlt : j < p.length := (List.getElem?_eq_some_iff.1 hj).1
  obtain ⟨b, q, rfl⟩ : ∃ b q, p = b :: q :=
    List.exists_cons_of_ne_nil (List.ne_nil_of_length_pos (by omega))
  obtain ⟨a, ha⟩ := exists_ne b
  -- The window at the beginning has the letter `c` behind it, and moves past the pattern.
  obtain ⟨k, hk⟩ : ∃ k, k + 1 + j = (b :: q).length := ⟨(b :: q).length - j - 1, by omega⟩
  have hlen : (List.replicate (k + 1) a ++ b :: q).length = k + 1 + (b :: q).length := by
    rw [List.length_append, List.length_replicate]
  refine ⟨List.replicate (k + 1) a ++ b :: q, (List.suffix_append _ _).isInfix, ?_⟩
  have hfirst : ¬agree (List.replicate (k + 1) a ++ b :: q) (b :: q) = (b :: q).length := by
    rw [List.replicate_succ, List.cons_append, agree, if_neg ha]
    exact (Nat.succ_ne_zero _).symm
  have hbehind : (List.replicate (k + 1) a ++ b :: q)[0 + (b :: q).length]? = some c := by
    rw [Nat.zero_add, ← hk, List.getElem?_append_right (by rw [List.length_replicate]; omega),
      List.length_replicate, Nat.add_sub_cancel_left, hj]
  rw [hlen, search, if_pos (by omega), List.drop_zero, if_neg hfirst, hbehind]
  simp only
  rw [search.eq_def, hlen]
  obtain ⟨fuel, hfuel⟩ : ∃ fuel, k + 1 + (b :: q).length = fuel + 1 := ⟨_, rfl⟩
  simp only [hfuel]
  rw [if_neg (by omega)]

/-- **A search finds exactly what is there** if and only if its moves are safe. -/
theorem search_eq_iff [Nontrivial α] (hpos : ∀ c, 0 < shift c)
    (hle : ∀ c, shift c ≤ p.length + 1) (hne : p ≠ []) :
    (∀ t, search shift p t (t.length + 1) 0 = some (decide (p <:+: t))) ↔ Safe shift p := by
  constructor
  · intro h j c hj
    by_contra hmove
    obtain ⟨t, hin, hnot⟩ := exists_not_found hj (not_le.1 hmove)
    rw [h t, decide_eq_true hin] at hnot
    cases hnot
  · intro hsafe t
    obtain ⟨b, hb⟩ : ∃ b, search shift p t (t.length + 1) 0 = some b :=
      exists_search_eq hpos (Nat.lt_succ_self _)
    by_cases hin : p <:+: t
    · cases b with
      | true => rw [hb, decide_eq_true hin]
      | false => exact absurd hb (search_ne_false hsafe hle hne hin)
    · cases b with
      | true => exact absurd (infix_of_search hb) hin
      | false => rw [hb, decide_eq_false hin]

end Shifts
