import NewApiPool.Lib.LastWins
import NewApiPool.Lib.Shifts
import NewApiPool.Lib.Utf8

/-!
# The search for a word in a text

`SundaySearch` moves a window over the bytes of a text, as far as the byte behind the window tells.
How far that is stands in a table that is filled from the pattern, but rune by rune: the table has
the places of the pattern's runes, and it is asked for bytes. For a pattern in ASCII this is the
same, and the search finds the pattern wherever it is. In any other pattern there is a byte that the
table does not have, or has too early, and a text in which the pattern is missed
(`NewApiPool.SundaySearch.sundaySearch_iff`). The search always ends, and what it finds is there.
-/

namespace NewApiPool.SundaySearch

open Shifts Utf8

/-- The table: for each rune of the pattern, how far its last place is from the end. -/
def offset (pattern : List UInt8) : ℕ → Option ℕ :=
  (runes pattern).foldl (fun m e => Function.update m e.2 (some (pattern.length - e.1)))
    fun _ => none

/-- How far the window moves when `next` is the byte behind it. -/
def jump (pattern : List UInt8) (next : UInt8) : ℕ :=
  match offset pattern next.toNat with
  | some val => val
  | none => pattern.length + 1

/-- The search; `none` would be that it does not end. -/
def sundaySearch (text pattern : List UInt8) : Option Bool :=
  search (jump pattern) pattern text (text.length + 1) 0

variable {pattern : List UInt8} {b : UInt8} {r v j : ℕ}

/-! ### The table -/

/-- What a rune at a place gives to the table. -/
def given (pattern : List UInt8) (r : ℕ) (e : ℕ × ℕ) : Option ℕ :=
  if r = e.2 then some (pattern.length - e.1) else none

theorem offset_eq_pick : offset pattern r = LastWins.pick (given pattern) (runes pattern) r := by
  have hwrite (m : ℕ → Option ℕ) (e : ℕ × ℕ) (k : ℕ) :
      Function.update m e.2 (some (pattern.length - e.1)) k = (given pattern k e).or (m k) := by
    by_cases h : k = e.2
    · rw [given, if_pos h, h, Function.update_self, Option.some_or]
    · rw [given, if_neg h, Function.update_of_ne h, Option.none_or]
  exact (LastWins.lookup_foldl (fun m => m) _ hwrite _ _ r).trans Option.or_none

/-- An entry of the table is from a place of the rune. -/
theorem exists_of_offset (h : offset pattern r = some v) :
    ∃ i, (i, r) ∈ runes pattern ∧ v = pattern.length - i := by
  rw [offset_eq_pick] at h
  obtain ⟨⟨i, r'⟩, hmem, hgiven⟩ := LastWins.exists_mem_of_pick h
  rw [given] at hgiven
  split_ifs at hgiven with heq
  obtain rfl : r = r' := heq
  exact ⟨i, hmem, (Option.some.inj hgiven).symm⟩

theorem jump_eq_of_some (h : offset pattern b.toNat = some v) : jump pattern b = v := by
  rw [jump, h]

theorem jump_eq_of_none (h : offset pattern b.toNat = none) :
    jump pattern b = pattern.length + 1 := by
  rw [jump, h]

theorem jump_pos (b : UInt8) : 0 < jump pattern b := by
  cases h : offset pattern b.toNat with
  | none =>
    rw [jump_eq_of_none h]
    exact Nat.succ_pos _
  | some v =>
    obtain ⟨i, hmem, rfl⟩ := exists_of_offset h
    obtain ⟨l, q, rfl, hne, rfl, -⟩ := exists_of_mem_runes hmem
    rw [jump_eq_of_some h, List.length_append, Nat.add_sub_cancel_left]
    exact List.length_pos_of_ne_nil hne

theorem jump_le (b : UInt8) : jump pattern b ≤ pattern.length + 1 := by
  cases h : offset pattern b.toNat with
  | none => exact (jump_eq_of_none h).le
  | some v =>
    obtain ⟨i, -, rfl⟩ := exists_of_offset h
    rw [jump_eq_of_some h]
    omega

/-! ### Patterns in ASCII -/

/-- **In ASCII** the table has the last place of every byte. -/
theorem safe_of_ascii (h : ∀ b ∈ pattern, b < 0x80) : Safe (jump pattern) pattern := by
  intro j c hj
  obtain ⟨hlt, hc⟩ := List.getElem?_eq_some_iff.1 hj
  obtain ⟨l, q, hsplit, hlen⟩ : ∃ l q, pattern = l ++ c :: q ∧ l.length = j :=
    ⟨pattern.take j, pattern.drop (j + 1), by
      rw [← hc, List.getElem_cons_drop, List.take_append_drop], by
      rw [List.length_take, min_eq_left hlt.le]⟩
  have hrunes : runes pattern = (l.zipIdx.map fun e => (e.2, e.1.toNat)) ++
      (j, c.toNat) :: ((q.zipIdx (j + 1)).map fun e => (e.2, e.1.toNat)) := by
    rw [runes, runesFrom_ascii h, hsplit, List.zipIdx_append, List.map_append, List.zipIdx_cons,
      List.map_cons, Nat.zero_add, hlen]
  have hpick := @offset_eq_pick pattern c.toNat
  rw [hrunes, LastWins.pick_append, LastWins.pick_cons] at hpick
  cases hlater : LastWins.pick (given pattern)
      ((q.zipIdx (j + 1)).map fun e => (e.2, e.1.toNat)) c.toNat with
  | none =>
    rw [hlater, given, if_pos rfl] at hpick
    rw [jump_eq_of_some hpick]
    omega
  | some v =>
    rw [hlater] at hpick
    obtain ⟨e, hmem, hgiven⟩ := LastWins.exists_mem_of_pick hlater
    obtain ⟨⟨a, i⟩, hplace, rfl⟩ := List.mem_map.1 hmem
    have hle : j + 1 ≤ i := (List.mem_zipIdx_iff_le_and_getElem?_sub.1 hplace).1
    rw [given] at hgiven
    split_ifs at hgiven
    rw [jump_eq_of_some hpick, ← Option.some.inj hgiven]
    omega

/-! ### Other patterns -/

/-- A byte from `0x80` on that the table has is a rune there, of two bytes, and has the lower part
of the second one. -/
theorem exists_tail_of_offset (hb : ¬b < 0x80) (h : offset pattern b.toNat = some v) :
    ∃ i c, v = pattern.length - i ∧ pattern[i + 1]? = some c ∧ IsTail c ∧
      b.toNat % 0x40 = c.toNat % 0x40 := by
  obtain ⟨i, hmem, rfl⟩ := exists_of_offset h
  obtain ⟨l, q, rfl, -, rfl, hr⟩ := exists_of_mem_runes hmem
  have hlow : 0x80 ≤ (decodeRune q).1 := hr ▸ UInt8.le_iff_toNat_le.1 (UInt8.not_lt.1 hb)
  obtain ⟨a, c, q, rfl, hc, hpart⟩ := decodeRune_latin hlow (hr ▸ b.toNat_lt)
  refine ⟨l.length, c, rfl, ?_, hc, hr ▸ hpart⟩
  rw [List.getElem?_append_right (Nat.le_add_right _ 1), Nat.add_sub_cancel_left]
  rfl

theorem eq_of_tails {b c : UInt8} (hb : IsTail b) (hc : IsTail c)
    (h : b.toNat % 0x40 = c.toNat % 0x40) : b = c := by
  obtain ⟨hb1, hb2⟩ := hb
  obtain ⟨hc1, hc2⟩ := hc
  simp only [UInt8.le_iff_toNat_le, UInt8.reduceToNat, ← UInt8.toNat_inj] at *
  omega

/-- A byte from `0x80` on that the window may not pass over is a rune of the pattern. -/
theorem exists_tail_of_safe (hsafe : Safe (jump pattern) pattern) (hj : pattern[j]? = some b)
    (hb : ¬b < 0x80) :
    ∃ i c, jump pattern b = pattern.length - i ∧ pattern[i + 1]? = some c ∧ IsTail c ∧
      b.toNat % 0x40 = c.toNat % 0x40 := by
  have hmove := hsafe j b hj
  cases h : offset pattern b.toNat with
  | none =>
    rw [jump_eq_of_none h] at hmove
    omega
  | some v =>
    rw [jump_eq_of_some h]
    exact exists_tail_of_offset hb h

/-- **Outside ASCII** the window may pass over the second byte of a rune: the rune that has the
value of this byte begins one place before. -/
theorem ascii_of_safe (hsafe : Safe (jump pattern) pattern) : ∀ b ∈ pattern, b < 0x80 := by
  intro b hmem
  by_contra hb
  obtain ⟨j, hj⟩ := List.mem_iff_getElem?.1 hmem
  obtain ⟨i, c, -, hc, htail, -⟩ := exists_tail_of_safe hsafe hj hb
  obtain ⟨i', c', hjump, hc', htail', hpart⟩ :=
    exists_tail_of_safe hsafe hc (UInt8.not_lt.2 htail.1)
  obtain rfl := eq_of_tails htail htail' hpart
  have hlt : i' + 1 < pattern.length := (List.getElem?_eq_some_iff.1 hc').1
  have hmove := hsafe (i' + 1) c hc'
  omega

/-! ### The search -/

instance nontrivialByte : Nontrivial UInt8 := ⟨0, 1, by decide⟩

/-- **The search ends, and what it finds is there; it finds the pattern in every text that holds it
if and only if the pattern is ASCII.** -/
theorem sundaySearch_iff (pattern : List UInt8) (hne : pattern ≠ []) :
    (∀ text, ∃ found, sundaySearch text pattern = some found ∧
      (found = true → pattern <:+: text)) ∧
    ((∀ text, sundaySearch text pattern = some (decide (pattern <:+: text))) ↔
      ∀ b ∈ pattern, b < 0x80) := by
  constructor
  · intro text
    obtain ⟨found, hfound⟩ : ∃ found, sundaySearch text pattern = some found :=
      exists_search_eq jump_pos (Nat.lt_succ_self _)
    exact ⟨found, hfound, fun h => infix_of_search (h ▸ hfound)⟩
  · exact (search_eq_iff jump_pos jump_le hne).trans ⟨ascii_of_safe, safe_of_ascii⟩

theorem sundaySearch_iff_chat :
    (∀ text, ∃ found, sundaySearch text [0x63, 0x68, 0x61, 0x74] = some found ∧
      (found = true → [0x63, 0x68, 0x61, 0x74] <:+: text)) ∧
    ((∀ text, sundaySearch text [0x63, 0x68, 0x61, 0x74] =
        some (decide ([0x63, 0x68, 0x61, 0x74] <:+: text))) ↔
      ∀ b ∈ ([0x63, 0x68, 0x61, 0x74] : List UInt8), b < 0x80) :=
  sundaySearch_iff [0x63, 0x68, 0x61, 0x74] (List.cons_ne_nil _ _)

/-- `中` is not found behind an `x`. -/
theorem sundaySearch_zhong :
    ¬sundaySearch [0x78, 0xE4, 0xB8, 0xAD] [0xE4, 0xB8, 0xAD] =
      some (decide ([0xE4, 0xB8, 0xAD] <:+: [0x78, 0xE4, 0xB8, 0xAD])) := by
  decide

end NewApiPool.SundaySearch
