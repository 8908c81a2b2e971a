import NewApiPool.Lib.Pieces
import Mathlib.Data.Nat.Notation
import Mathlib.Tactic.SplitIfs

/-!
# The runes of a byte string

Go's `range` over a string: it goes from rune to rune, where a byte that begins no well-formed rune
is a rune of its own, the replacement character. Runes are numbers here, and so are their places.

A rune that is also the value of a single byte from `0x80` on takes two bytes
(`Utf8.decodeRune_latin`).
-/

namespace Utf8

def runeError : ℕ := 0xFFFD

def IsTail (b : UInt8) : Prop := 0x80 ≤ b ∧ b ≤ 0xBF

instance : DecidablePred IsTail := fun b => inferInstanceAs (Decidable (0x80 ≤ b ∧ b ≤ 0xBF))

/-- The first byte after `a` in a rune of three or four bytes: shorter forms, surrogates and too
large runes are excluded. -/
def IsSecond (a b : UInt8) : Prop :=
  IsTail b ∧ (a = 0xE0 → 0xA0 ≤ b) ∧ (a = 0xED → b ≤ 0x9F) ∧ (a = 0xF0 → 0x90 ≤ b) ∧
    (a = 0xF4 → b ≤ 0x8F)

instance (a b : UInt8) : Decidable (IsSecond a b) := inferInstanceAs (Decidable (_ ∧ _))

/-- `utf8.DecodeRune`: the first rune and how many bytes it takes. -/
def decodeRune : List UInt8 → ℕ × ℕ
  | [] => (runeError, 0)
  | a :: s =>
    if a < 0x80 then (a.toNat, 1)
    else if 0xC2 ≤ a ∧ a ≤ 0xDF then
      match s with
      | b :: _ =>
        if IsTail b then (a.toNat % 0x20 * 0x40 + b.toNat % 0x40, 2) else (runeError, 1)
      | [] => (runeError, 1)
    else if 0xE0 ≤ a ∧ a ≤ 0xEF then
      match s with
      | b :: c :: _ =>
        if IsSecond a b ∧ IsTail c then
          (a.toNat % 0x10 * 0x1000 + b.toNat % 0x40 * 0x40 + c.toNat % 0x40, 3)
        else (runeError, 1)
      | _ => (runeError, 1)
    else if 0xF0 ≤ a ∧ a ≤ 0xF4 then
      match s with
      | b :: c :: d :: _ =>
        if IsSecond a b ∧ IsTail c ∧ IsTail d then
          (a.toNat % 0x08 * 0x40000 + b.toNat % 0x40 * 0x1000 + c.toNat % 0x40 * 0x40 +
            d.toNat % 0x40, 4)
        else (runeError, 1)
      | _ => (runeError, 1)
    else (runeError, 1)

/-- The runes from the place `i` on, where the first `skip` bytes belong to the rune before. -/
def runesFrom (i : ℕ) : ℕ → List UInt8 → List (ℕ × ℕ)
  | _, [] => []
  | skip + 1, _ :: s => runesFrom (i + 1) skip s
  | 0, a :: s =>
    (i, (decodeRune (a :: s)).1) :: runesFrom (i + 1) ((decodeRune (a :: s)).2 - 1) s

/-- `range s`: the runes and their places. -/
def runes (s : List UInt8) : List (ℕ × ℕ) := runesFrom 0 0 s

variable {i j r k n : ℕ} {s : List UInt8}

theorem le_three {a b : UInt8} (ha : 0xE0 ≤ a ∧ a ≤ 0xEF) (hb : IsSecond a b) (n : ℕ) :
    0x100 ≤ a.toNat % 0x10 * 0x1000 + b.toNat % 0x40 * 0x40 + n := by
  obtain ⟨⟨hlow, hhigh⟩, hfirst, -, -, -⟩ := hb
  simp only [UInt8.le_iff_toNat_le, ← UInt8.toNat_inj, UInt8.reduceToNat] at *
  omega

theorem le_four {a b : UInt8} (ha : 0xF0 ≤ a ∧ a ≤ 0xF4) (hb : IsSecond a b) (m n : ℕ) :
    0x100 ≤ a.toNat % 0x08 * 0x40000 + b.toNat % 0x40 * 0x1000 + m + n := by
  obtain ⟨⟨hlow, hhigh⟩, -, -, hfirst, -⟩ := hb
  simp only [UInt8.le_iff_toNat_le, ← UInt8.toNat_inj, UInt8.reduceToNat] at *
  omega

/-- **A rune from `0x80` to `0xFF`** takes two bytes, and the second one is its lower part. -/
theorem decodeRune_latin (hlow : 0x80 ≤ (decodeRune s).1) (hhigh : (decodeRune s).1 < 0x100) :
    ∃ a b q, s = a :: b :: q ∧ IsTail b ∧ (decodeRune s).1 % 0x40 = b.toNat % 0x40 := by
  have herror : ¬runeError < 0x100 := by decide
  cases s with
  | nil => exact absurd hhigh herror
  | cons a s =>
    rw [decodeRune.eq_def] at *
    dsimp only at *
    by_cases h1 : a < 0x80
    · rw [if_pos h1] at hlow
      rw [UInt8.lt_iff_toNat_lt] at h1
      exact absurd h1 (Nat.not_lt.2 hlow)
    rw [if_neg h1] at *
    by_cases h2 : 0xC2 ≤ a ∧ a ≤ 0xDF
    · rw [if_pos h2] at *
      match s with
      | [] => exact absurd hhigh herror
      | b :: q =>
        by_cases hb : IsTail b
        · refine ⟨a, b, q, rfl, hb, ?_⟩
          simp only [if_pos hb]
          omega
        · simp only [if_neg hb] at hhigh
          exact absurd hhigh herror
    rw [if_neg h2] at *
    by_cases h3 : 0xE0 ≤ a ∧ a ≤ 0xEF
    · rw [if_pos h3] at *
      match s with
      | [] | [_] => exact absurd hhigh herror
      | b :: c :: _ =>
        by_cases hb : IsSecond a b ∧ IsTail c
        · simp only [if_pos hb] at hhigh
          exact absurd hhigh (Nat.not_lt.2 (le_three h3 hb.1 _))
        · simp only [if_neg hb] at hhigh
          exact absurd hhigh herror
    rw [if_neg h3] at *
    by_cases h4 : 0xF0 ≤ a ∧ a ≤ 0xF4
    · rw [if_pos h4] at *
      match s with
      | [] | [_] | [_, _] => exact absurd hhigh herror
      | b :: c :: d :: _ =>
        by_cases hb : IsSecond a b ∧ IsTail c ∧ IsTail d
        · simp only [if_pos hb] at hhigh
          exact absurd hhigh (Nat.not_lt.2 (le_four h4 hb.1 _ _))
        · simp only [if_neg hb] at hhigh
          exact absurd hhigh herror
    · rw [if_neg h4] at hhigh
      exact absurd hhigh herror

theorem exists_of_mem_runesFrom (h : (j, r) ∈ runesFrom i k s) :
    ∃ l q, s = l ++ q ∧ q ≠ [] ∧ j = i + l.length ∧ r = (decodeRune q).1 := by
  induction s generalizing i k with
  | nil => cases k <;> cases h
  | cons a s ih =>
    cases k with
    | succ skip =>
      obtain ⟨l, q, rfl, hne, rfl, hr⟩ := ih h
      exact ⟨a :: l, q, rfl, hne, by rw [List.length_cons]; omega, hr⟩
    | zero =>
      rcases List.mem_cons.1 h with heq | hmem
      · obtain ⟨rfl, rfl⟩ := Prod.mk.injEq _ _ _ _ ▸ heq
        exact ⟨[], a :: s, rfl, List.cons_ne_nil _ _, rfl, rfl⟩
      · obtain ⟨l, q, rfl, hne, rfl, hr⟩ := ih hmem
        exact ⟨a :: l, q, rfl, hne, by rw [List.length_cons]; omega, hr⟩

/-- **Each rune stands at its place.** -/
theorem exists_of_mem_runes (h : (j, r) ∈ runes s) :
    ∃ l q, s = l ++ q ∧ q ≠ [] ∧ j = l.length ∧ r = (decodeRune q).1 := by
  obtain ⟨l, q, hs, hne, hj, hr⟩ := exists_of_mem_runesFrom h
  exact ⟨l, q, hs, hne, by rw [hj, Nat.zero_add], hr⟩

/-- **The runes of ASCII** are the bytes. -/
theorem runesFrom_ascii (h : ∀ b ∈ s, b < 0x80) (i : ℕ) :
    runesFrom i 0 s = (s.zipIdx i).map fun e => (e.2, e.1.toNat) := by
  induction s generalizing i with
  | nil => rfl
  | cons a s ih =>
    have ha : decodeRune (a :: s) = (a.toNat, 1) := if_pos (h a List.mem_cons_self)
    have hs := ih (fun b hb => h b (List.mem_cons_of_mem a hb)) (i + 1)
    rw [runesFrom, ha, Nat.sub_self, hs, List.zipIdx_cons, List.map_cons]

/-! ### The bytes of a rune -/

/-- How many bytes the first rune takes. -/
def runeWidth (s : List UInt8) : ℕ := (decodeRune s).2

/-- What `decodeRune` looks at: the bytes of the rune, or it is an error that less bytes are too. -/
theorem decodeRune_take (hs : s ≠ []) (h : runeWidth s ≤ n + 1) :
    decodeRune (s.take (n + 1)) = decodeRune s := by
  obtain ⟨a, s, rfl⟩ := List.exists_cons_of_ne_nil hs
  rw [List.take_succ_cons]
  rw [runeWidth, decodeRune.eq_def] at h
  rw [decodeRune.eq_def, decodeRune.eq_def]
  dsimp only at *
  by_cases h1 : a < 0x80
  · rw [if_pos h1, if_pos h1]
  rw [if_neg h1] at *
  rw [if_neg h1]
  by_cases h2 : 0xC2 ≤ a ∧ a ≤ 0xDF
  · rw [if_pos h2] at *
    rw [if_pos h2]
    match s, n with
    | [], _ => rw [List.take_nil]
    | b :: q, 0 =>
      by_cases hb : IsTail b
      · simp only [if_pos hb] at h
        omega
      · simp only [if_neg hb, List.take_zero]
    | b :: q, n + 1 => rw [List.take_succ_cons]
  rw [if_neg h2] at *
  rw [if_neg h2]
  by_cases h3 : 0xE0 ≤ a ∧ a ≤ 0xEF
  · rw [if_pos h3] at *
    rw [if_pos h3]
    match s, n with
    | [], _ => rw [List.take_nil]
    | [b], 0 => rfl
    | [b], n + 1 => rw [List.take_succ_cons, List.take_nil]
    | b :: c :: q, n =>
      by_cases hb : IsSecond a b ∧ IsTail c
      · simp only [if_pos hb] at h
        obtain ⟨n, rfl⟩ := Nat.exists_eq_add_of_le' (Nat.le_of_succ_le_succ h)
        rw [List.take_succ_cons, List.take_succ_cons]
      · match n with
        | 0 => simp only [if_neg hb, List.take_zero]
        | 1 => simp only [if_neg hb, List.take_succ_cons, List.take_zero]
        | n + 2 => rw [List.take_succ_cons, List.take_succ_cons]
  rw [if_neg h3] at *
  rw [if_neg h3]
  by_cases h4 : 0xF0 ≤ a ∧ a ≤ 0xF4
  · rw [if_pos h4] at *
    rw [if_pos h4]
    match s, n with
    | [], _ => rw [List.take_nil]
    | [b], 0 => rfl
    | [b], n + 1 => rw [List.take_succ_cons, List.take_nil]
    | [b, c], 0 => rfl
    | [b, c], 1 => rfl
    | [b, c], n + 2 => rw [List.take_succ_cons, List.take_succ_cons, List.take_nil]
    | b :: c :: d :: q, n =>
      by_cases hb : IsSecond a b ∧ IsTail c ∧ IsTail d
      · simp only [if_pos hb] at h
        obtain ⟨n, rfl⟩ := Nat.exists_eq_add_of_le' (Nat.le_of_succ_le_succ h)
        rw [List.take_succ_cons, List.take_succ_cons, List.take_succ_cons]
      · match n with
        | 0 => simp only [if_neg hb, List.take_zero]
        | 1 => simp only [if_neg hb, List.take_succ_cons, List.take_zero]
        | 2 => simp only [if_neg hb, List.take_succ_cons, List.take_zero]
        | n + 3 => rw [List.take_succ_cons, List.take_succ_cons, List.take_succ_cons]
  · rw [if_neg h4, if_neg h4]

theorem runeWidth_spec (hs : s ≠ []) : 0 < runeWidth s ∧ runeWidth s ≤ s.length := by
  obtain ⟨a, s, rfl⟩ := List.exists_cons_of_ne_nil hs
  rw [runeWidth, decodeRune.eq_def]
  dsimp only
  split_ifs
  · exact ⟨Nat.one_pos, Nat.le_add_left 1 _⟩
  · match s with
    | [] => exact ⟨Nat.one_pos, Nat.le_add_left 1 _⟩
    | b :: q =>
      dsimp only
      split_ifs
      · exact ⟨Nat.two_pos, Nat.le_add_left 2 _⟩
      · exact ⟨Nat.one_pos, Nat.le_add_left 1 _⟩
  · match s with
    | [] | [_] => exact ⟨Nat.one_pos, Nat.le_add_left 1 _⟩
    | b :: c :: q =>
      dsimp only
      split_ifs
      · exact ⟨Nat.succ_pos 2, Nat.le_add_left 3 _⟩
      · exact ⟨Nat.one_pos, Nat.le_add_left 1 _⟩
  · match s with
    | [] | [_] | [_, _] => exact ⟨Nat.one_pos, Nat.le_add_left 1 _⟩
    | b :: c :: d :: q =>
      dsimp only
      split_ifs
      · exact ⟨Nat.succ_pos 3, Nat.le_add_left 4 _⟩
      · exact ⟨Nat.one_pos, Nat.le_add_left 1 _⟩
  · exact ⟨Nat.one_pos, Nat.le_add_left 1 _⟩

theorem lawful_runeWidth : Pieces.Lawful runeWidth where
  pos _ hs := (runeWidth_spec hs).1
  le s := by
    rcases eq_or_ne s [] with rfl | hs
    · exact Nat.zero_le 0
    · exact (runeWidth_spec hs).2
  take s n h := by
    rcases eq_or_ne s [] with rfl | hs
    · rw [List.take_nil]
    · obtain ⟨n, rfl⟩ := Nat.exists_eq_add_of_le' (Nat.le_trans (runeWidth_spec hs).1 h)
      rw [runeWidth, decodeRune_take hs h, runeWidth]

/-- The bytes of each rune. -/
def chars (s : List UInt8) : List (List UInt8) := Pieces.split runeWidth s

def rune (c : List UInt8) : ℕ := (decodeRune c).1

/-- `[]rune(s)` -/
def runeList (s : List UInt8) : List ℕ := (chars s).map rune

def encodeRune (r : ℕ) : List UInt8 :=
  if r < 0x80 then [r.toUInt8]
  else if r < 0x800 then [(0xC0 + r / 0x40).toUInt8, (0x80 + r % 0x40).toUInt8]
  else if 0x10FFFF < r ∨ (0xD800 ≤ r ∧ r ≤ 0xDFFF) then [0xEF, 0xBF, 0xBD]
  else if r < 0x10000 then
    [(0xE0 + r / 0x1000).toUInt8, (0x80 + r / 0x40 % 0x40).toUInt8, (0x80 + r % 0x40).toUInt8]
  else
    [(0xF0 + r / 0x40000).toUInt8, (0x80 + r / 0x1000 % 0x40).toUInt8,
      (0x80 + r / 0x40 % 0x40).toUInt8, (0x80 + r % 0x40).toUInt8]

theorem encodeRune_length_pos (r : ℕ) : 0 < (encodeRune r).length := by
  rw [encodeRune]
  split_ifs <;> exact Nat.succ_pos _

/-- `string(runes)` -/
def encode (runes : List ℕ) : List UInt8 := runes.flatMap encodeRune

theorem length_le_encode (runes : List ℕ) : runes.length ≤ (encode runes).length := by
  induction runes with
  | nil => exact Nat.le_refl 0
  | cons r runes ih =>
    have hpos := encodeRune_length_pos r
    rw [encode, List.flatMap_cons, List.length_append, List.length_cons, ← encode]
    omega

end Utf8
