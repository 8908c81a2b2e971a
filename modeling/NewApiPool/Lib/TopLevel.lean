import Mathlib.Data.List.Basic
import Mathlib.Data.List.Infix

/-!
# Splitting a text outside its parentheses

`TopLevel.split` cuts a text at a separator wherever no parenthesis is open. It knows nothing of
literals, so that a parenthesis in one counts like any other.

A text that was put together from pieces is split into these again
(`TopLevel.split_intercalate`) if no piece is cut in itself (`TopLevel.Uncut`), and each but the
last one closes the parentheses that it opens (`TopLevel.Splits`).
-/

namespace TopLevel

variable {sep p q cur : List Char} {d : ℤ} {c : Char}

/-! ### Depths -/

/-- The depth after a character. -/
def shift (d : ℤ) (c : Char) : ℤ := if c = '(' then d + 1 else if c = ')' then d - 1 else d

/-- The depth after a text. -/
def depth (d : ℤ) (s : List Char) : ℤ := s.foldl shift d

@[simp] theorem depth_nil (d : ℤ) : depth d [] = d := rfl

@[simp] theorem depth_cons (d : ℤ) (c : Char) (s : List Char) :
    depth d (c :: s) = depth (shift d c) s := rfl

/-- The text has no separator where the depth is `0`. -/
def Uncut (sep : List Char) : ℤ → List Char → Prop
  | _, [] => True
  | d, c :: s => ¬(shift d c = 0 ∧ sep <+: c :: s) ∧ Uncut sep (shift d c) s

instance decidableUncut (sep : List Char) : ∀ (d : ℤ) (s : List Char), Decidable (Uncut sep d s)
  | _, [] => inferInstanceAs (Decidable True)
  | d, c :: s => @instDecidableAnd _ _ _ (decidableUncut sep (shift d c) s)

/-! ### The split -/

/-- The loop: how many characters are still to be skipped, the depth, what there is of the
current piece, and the rest of the text. -/
def splitLoop (sep : List Char) : ℕ → ℤ → List Char → List Char → List (List Char)
  | _, _, cur, [] => [cur]
  | skip + 1, d, cur, _ :: s => splitLoop sep skip d cur s
  | 0, d, cur, c :: s =>
    if shift d c = 0 ∧ sep <+: c :: s then cur :: splitLoop sep (sep.length - 1) (shift d c) [] s
    else splitLoop sep 0 (shift d c) (cur ++ [c]) s

/-- The pieces of a text. -/
def split (sep s : List Char) : List (List Char) := splitLoop sep 0 0 [] s

theorem splitLoop_skip (s : List Char) :
    splitLoop sep s.length d cur (s ++ q) = splitLoop sep 0 d cur q := by
  induction s with
  | nil => rfl
  | cons c s ih => rw [List.length_cons, List.cons_append, splitLoop, ih]

theorem splitLoop_of_uncut (h : Uncut sep d p) : splitLoop sep 0 d cur p = [cur ++ p] := by
  induction p generalizing d cur with
  | nil => rw [splitLoop, List.append_nil]
  | cons c p ih =>
    rw [splitLoop, if_neg h.1, ih h.2, List.append_assoc, List.singleton_append]

/-- A separator does not begin in a piece and end behind it, if the last character of the piece
is none of its own. -/
theorem prefix_of_prefix_append {r t : List Char} (hr : r ≠ [])
    (hlast : ∀ c ∈ r.getLast?, c ∉ sep) (h : sep <+: r ++ t) : sep <+: r := by
  rcases List.prefix_or_prefix_of_prefix h (List.prefix_append r t) with hsep | hr'
  · exact hsep
  · exact absurd (hr'.subset (List.getLast_mem hr)) (hlast _ (List.getLast?_eq_some_getLast hr))

/-- **The split at a separator**: the piece before it is one, if the depth is back at `0`. -/
theorem splitLoop_append (hsep : ∀ c ∈ sep, c ≠ '(' ∧ c ≠ ')') (hne : sep ≠ [])
    (h : Uncut sep d p) (hlast : ∀ c ∈ p.getLast?, c ∉ sep) (hdepth : depth d p = 0) :
    splitLoop sep 0 d cur (p ++ (sep ++ q)) = (cur ++ p) :: splitLoop sep 0 0 [] q := by
  induction p generalizing d cur with
  | nil =>
    obtain rfl : d = 0 := hdepth
    obtain ⟨c, s, rfl⟩ := List.exists_cons_of_ne_nil hne
    have hshift : shift 0 c = 0 := by
      obtain ⟨hopen, hclose⟩ := hsep c List.mem_cons_self
      rw [shift, if_neg hopen, if_neg hclose]
    have hprefix : c :: s <+: c :: (s ++ q) := List.prefix_append (c :: s) q
    rw [List.nil_append, List.cons_append, splitLoop, if_pos ⟨hshift, hprefix⟩, hshift,
      List.length_cons, Nat.add_sub_cancel, splitLoop_skip, List.append_nil]
  | cons c p ih =>
    have hcut : ¬(shift d c = 0 ∧ sep <+: c :: (p ++ (sep ++ q))) := by
      rintro ⟨hzero, hprefix⟩
      exact h.1 ⟨hzero, prefix_of_prefix_append (List.cons_ne_nil c p) hlast hprefix⟩
    have hlast' : ∀ c ∈ p.getLast?, c ∉ sep := by
      intro c' hc'
      obtain ⟨hp, -⟩ := List.mem_getLast?_eq_getLast hc'
      refine hlast c' ?_
      rw [List.getLast?_cons_of_ne_nil hp]
      exact hc'
    rw [List.cons_append, splitLoop, if_neg hcut, ih h.2 hlast' hdepth, List.append_assoc,
      List.singleton_append]

/-! ### Pieces -/

/-- The pieces are not cut, and each but the last one closes the parentheses it opens. -/
def Splits (sep : List Char) : List (List Char) → Prop
  | [] => True
  | [p] => Uncut sep 0 p
  | p :: q :: ps => Uncut sep 0 p ∧ depth 0 p = 0 ∧ Splits sep (q :: ps)

instance decidableSplits (sep : List Char) : ∀ ps : List (List Char), Decidable (Splits sep ps)
  | [] => inferInstanceAs (Decidable True)
  | [p] => inferInstanceAs (Decidable (Uncut sep 0 p))
  | _ :: q :: ps =>
    @instDecidableAnd _ _ _ (@instDecidableAnd _ _ _ (decidableSplits sep (q :: ps)))

/-- **Pieces that were put together come back.** -/
theorem split_intercalate (hsep : ∀ c ∈ sep, c ≠ '(' ∧ c ≠ ')') (hne : sep ≠ [])
    {ps : List (List Char)} (hps : ps ≠ []) (hlast : ∀ p ∈ ps, ∀ c ∈ p.getLast?, c ∉ sep)
    (h : Splits sep ps) : split sep (sep.intercalate ps) = ps := by
  induction ps with
  | nil => exact absurd rfl hps
  | cons p ps ih =>
    cases ps with
    | nil =>
      rw [List.intercalate_singleton, split, splitLoop_of_uncut h, List.nil_append]
    | cons q ps =>
      obtain ⟨hp, hdepth, hrest⟩ := h
      rw [List.intercalate_cons_cons, split, List.append_assoc, splitLoop_append hsep hne hp
        (hlast p List.mem_cons_self) hdepth, List.nil_append]
      exact congrArg (p :: ·) (ih (List.cons_ne_nil q ps)
        (fun p' hp' => hlast p' (List.mem_cons_of_mem p hp')) hrest)

end TopLevel
