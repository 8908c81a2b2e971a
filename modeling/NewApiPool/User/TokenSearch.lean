import NewApiPool.Lib.GoText
import NewApiPool.Lib.Like

/-!
# Searching tokens

The search of a user's tokens takes patterns with `%`. `sanitizeLikePattern` escapes the other
special characters and refuses patterns that are too wide. What it lets pass means what was typed
(`NewApiPool.TokenSearch.meansTyped_escapedInput`). Of its rules, the one on the length of the
keyword is checked after the escaping, and in bytes
(`NewApiPool.TokenSearch.sanitizeLikePattern_iff`).
-/

namespace NewApiPool.TokenSearch

open GoText Like

def sanitizeLikePattern (input : String) : Except String String :=
  let input := replaceAll "_" "!_" (replaceAll "!" "!!" input)
  if contains input "%%" then .error "搜索模式中不允许包含连续的 % 通配符"
  else
    let count := input.toList.count '%'
    if count > 2 then .error "搜索模式中最多允许包含 2 个 % 通配符"
    else if count > 0 then
      let stripped := replaceAll "%" "" input
      if stripped.utf8ByteSize < 2 then .error "使用模糊搜索时，关键词长度至少为 2 个字符"
      else .ok input
    else .ok input

/-! ### What is asked for -/

/-- The input as it was typed: `%` is the only wildcard. -/
def typed (input : String) : List Piece :=
  input.toList.map fun c => if c = '%' then .any else .this c

/-- The pattern matches what was typed, under any collation. -/
def MeansTyped (input pattern : String) : Prop :=
  ∀ same s, like same '!' s pattern = fits same (typed input) s.toList

/-- What the input has besides its wildcards. -/
def keyword (input : String) : List Char := input.toList.filter (· ≠ '%')

/-- The rules of the comment on an input that is accepted. -/
structure FollowsRules (input : String) : Prop where
  two : input.toList.count '%' ≤ 2
  apart : ¬['%', '%'] <:+: input.toList
  length : '%' ∈ input.toList → 2 ≤ (keyword input).length

/-- The keyword is one character, which is two bytes or more once it is escaped. -/
def ShortKeyword (input : String) : Prop :=
  '%' ∈ input.toList ∧ ∃ c, keyword input = [c] ∧ (c = '!' ∨ c = '_' ∨ 0x80 ≤ c.toNat)

/-! ### The text of the pattern -/

variable {input pattern : String} {s t u : List Char} {c d : Char}

theorem toList_intercalate_splitAux (old : Char) (new : String) (cur s : List Char) :
    (new.intercalate (splitAux [old] cur 0 s)).toList =
      cur.reverse ++ s.flatMap fun c => if c = old then new.toList else [c] := by
  have hcons (piece : String) (pieces : List String) (hne : pieces ≠ []) :
      (new.intercalate (piece :: pieces)).toList =
        piece.toList ++ new.toList ++ (new.intercalate pieces).toList := by
    obtain ⟨p, ps, rfl⟩ := List.exists_cons_of_ne_nil hne
    simp [String.toList_intercalate, List.intercalate]
  have hne (cur s : List Char) : splitAux [old] cur 0 s ≠ [] := by
    induction s generalizing cur with
    | nil => exact List.cons_ne_nil _ _
    | cons c s ih =>
      rw [splitAux]
      split_ifs
      · exact List.cons_ne_nil _ _
      · exact ih _
  induction s generalizing cur with
  | nil => simp [splitAux]
  | cons c s ih =>
    rw [splitAux, List.flatMap_cons]
    by_cases hc : c = old
    · have hpre : [old].isPrefixOf (c :: s) = true := by simp [hc]
      rw [if_pos hpre, if_pos hc]
      change (new.intercalate (_ :: splitAux [old] [] 0 s)).toList = _
      rw [hcons _ _ (hne [] s), String.toList_ofList, ih, List.reverse_nil, List.nil_append,
        List.append_assoc]
    · have hpre : ¬[old].isPrefixOf (c :: s) = true := by simp [Ne.symm hc]
      rw [if_neg hpre, if_neg hc, ih, List.reverse_cons, List.append_assoc]

/-- **One character replaced** by a text, everywhere. -/
theorem toList_replaceAll (old : Char) (new s : String) :
    (replaceAll (String.singleton old) new s).toList =
      s.toList.flatMap fun c => if c = old then new.toList else [c] := by
  rw [replaceAll, splitOn, String.toList_singleton, toList_intercalate_splitAux]
  rfl

/-- A character as it stands in the pattern. -/
def escaped (c : Char) : List Char := if c = '!' ∨ c = '_' then ['!', c] else [c]

/-- The input after the escaping. -/
def escapedInput (input : String) : String := replaceAll "_" "!_" (replaceAll "!" "!!" input)

theorem toList_escapedInput (input : String) :
    (escapedInput input).toList = input.toList.flatMap escaped := by
  have hlist : (escapedInput input).toList =
      (input.toList.flatMap fun c => if c = '!' then "!!".toList else [c]).flatMap
        fun c => if c = '_' then "!_".toList else [c] := by
    rw [← toList_replaceAll, ← toList_replaceAll]
    rfl
  rw [hlist, List.flatMap_assoc]
  refine List.flatMap_congr fun c _ => ?_
  rw [escaped]
  by_cases hbang : c = '!'
  · subst hbang
    decide
  · by_cases hline : c = '_'
    · subst hline
      decide
    · simp [hbang, hline]

theorem escaped_percent : escaped '%' = ['%'] := rfl

theorem escaped_of_ne (h : ¬(c = '!' ∨ c = '_')) : escaped c = [c] := if_neg h

theorem percent_notMem_escaped (h : c ≠ '%') : '%' ∉ escaped c := by
  rw [escaped]
  split_ifs <;> simp [Ne.symm h]

/-- **The pattern is read** as it was typed. -/
theorem readPattern_escaped (s : List Char) :
    readPattern '!' (s.flatMap escaped) =
      some (s.map fun c => if c = '%' then .any else .this c) := by
  induction s with
  | nil => rfl
  | cons c s ih =>
    rw [List.flatMap_cons, List.map_cons]
    by_cases hc : c = '!' ∨ c = '_'
    · have hne : c ≠ '%' := by
        rintro rfl
        exact absurd hc (by decide)
      have hread : readPattern '!' ('!' :: c :: s.flatMap escaped) = _ := readPattern_escape c _
      rw [ih] at hread
      rw [escaped, if_pos hc, if_neg hne]
      exact hread
    · obtain ⟨hbang, hline⟩ := not_or.1 hc
      rw [escaped_of_ne hc, List.singleton_append, readPattern_cons hbang, ih, Option.map_some,
        readChar, if_neg hline]

theorem meansTyped_escapedInput (input : String) : MeansTyped input (escapedInput input) := by
  intro same s
  rw [like, toList_escapedInput, readPattern_escaped]
  rfl

/-! ### The rules -/

theorem count_flatMap_escaped (s : List Char) :
    (s.flatMap escaped).count '%' = s.count '%' := by
  induction s with
  | nil => rfl
  | cons c s ih =>
    rw [List.flatMap_cons, List.count_append, ih]
    by_cases hc : c = '%'
    · rw [hc, escaped_percent, List.count_cons_self, List.count_cons_self, List.count_nil]
      omega
    · rw [List.count_eq_zero_of_not_mem (percent_notMem_escaped hc), Nat.zero_add,
        List.count_cons_of_ne hc]

theorem head?_flatMap_escaped (s : List Char) :
    (s.flatMap escaped).head? = some '%' ↔ s.head? = some '%' := by
  cases s with
  | nil => exact Iff.rfl
  | cons c s =>
    rw [List.flatMap_cons, escaped]
    split_ifs with hc
    · refine iff_of_false (by simp) fun h => ?_
      obtain rfl : c = '%' := by simpa using h
      exact absurd hc (by decide)
    · rfl

theorem pair_prefix_iff (c : Char) (s : List Char) :
    ['%', '%'] <+: c :: s ↔ c = '%' ∧ s.head? = some '%' := by
  cases s with
  | nil => simp
  | cons d s => simp [List.cons_prefix_cons, eq_comm]

/-- The escaping puts nothing between two wildcards, and no wildcards together. -/
theorem pair_infix_flatMap_escaped (s : List Char) :
    ['%', '%'] <:+: s.flatMap escaped ↔ ['%', '%'] <:+: s := by
  induction s with
  | nil => exact Iff.rfl
  | cons c s ih =>
    rw [List.flatMap_cons, List.infix_cons_iff, pair_prefix_iff, ← ih]
    by_cases hc : c = '!' ∨ c = '_'
    · have hne : c ≠ '%' := by
        rintro rfl
        exact absurd hc (by decide)
      rw [escaped, if_pos hc]
      change ['%', '%'] <:+: '!' :: c :: s.flatMap escaped ↔ _
      rw [List.infix_cons_iff, List.infix_cons_iff, pair_prefix_iff, pair_prefix_iff]
      simp [hne]
    · rw [escaped_of_ne hc, List.singleton_append, List.infix_cons_iff, pair_prefix_iff,
        head?_flatMap_escaped]

/-- Without its wildcards, the pattern is the keyword after the escaping. -/
theorem stripped_eq (s : List Char) :
    ((s.flatMap escaped).flatMap fun c => if c = '%' then "".toList else [c]) =
      (s.filter (· ≠ '%')).flatMap escaped := by
  rw [List.flatMap_assoc]
  induction s with
  | nil => rfl
  | cons c s ih =>
    rw [List.flatMap_cons, ih]
    by_cases hc : c = '%'
    · subst hc
      rfl
    · rw [List.filter_cons_of_pos (by simpa using hc), List.flatMap_cons, escaped]
      split_ifs <;> simp [hc]

theorem utf8ByteSize_ofList_cons (c : Char) (l : List Char) :
    (String.ofList (c :: l)).utf8ByteSize = c.utf8Size + (String.ofList l).utf8ByteSize := by
  rw [String.ofList_cons, String.utf8ByteSize_append, String.utf8ByteSize_singleton]

theorem utf8Size_lt_two_iff (c : Char) : c.utf8Size < 2 ↔ c.toNat < 0x80 := by
  have hpos := c.utf8Size_pos
  have hone := @Char.utf8Size_eq_one_iff c
  rw [UInt32.le_iff_toNat_le] at hone
  change c.utf8Size = 1 ↔ c.toNat ≤ 127 at hone
  omega

/-- **Texts of less than two bytes.** -/
theorem utf8ByteSize_lt_two_iff (l : List Char) :
    (String.ofList l).utf8ByteSize < 2 ↔ l = [] ∨ ∃ c, l = [c] ∧ c.toNat < 0x80 := by
  cases l with
  | nil => exact iff_of_true (by decide) (Or.inl rfl)
  | cons c l =>
    rw [utf8ByteSize_ofList_cons]
    have hpos := c.utf8Size_pos
    cases l with
    | nil =>
      have hone := utf8Size_lt_two_iff c
      simpa using hone
    | cons d l =>
      have hd := d.utf8Size_pos
      rw [utf8ByteSize_ofList_cons]
      simp
      omega

theorem escaped_ne_nil (c : Char) : escaped c ≠ [] := by
  rw [escaped]
  split_ifs <;> exact List.cons_ne_nil _ _

/-- **The keywords that are refused**: none, and one character of one byte that is not escaped. -/
theorem refused_iff (k : List Char) :
    (String.ofList (k.flatMap escaped)).utf8ByteSize < 2 ↔
      k.length < 2 ∧ ¬∃ c, k = [c] ∧ (c = '!' ∨ c = '_' ∨ 0x80 ≤ c.toNat) := by
  rw [utf8ByteSize_lt_two_iff]
  cases k with
  | nil => simp
  | cons c k =>
    cases k with
    | nil =>
      rw [List.flatMap_singleton, or_iff_right (escaped_ne_nil c)]
      by_cases hc : c = '!' ∨ c = '_'
      · rw [escaped, if_pos hc]
        refine iff_of_false (by simp) fun h => h.2 ⟨c, rfl, ?_⟩
        exact hc.imp_right Or.inl
      · rw [escaped_of_ne hc]
        obtain ⟨hbang, hline⟩ := not_or.1 hc
        simp [hbang, hline]
    | cons d k =>
      refine iff_of_false ?_ (by simp)
      rw [List.flatMap_cons, List.flatMap_cons]
      obtain ⟨a, u, hu⟩ := List.exists_cons_of_ne_nil (escaped_ne_nil c)
      obtain ⟨b, v, hv⟩ := List.exists_cons_of_ne_nil (escaped_ne_nil d)
      simp [hu, hv]

/-! ### What is accepted -/

/-- **What is accepted**, and the pattern it becomes. -/
theorem sanitizeLikePattern_eq_ok_iff : sanitizeLikePattern input = .ok pattern ↔
    pattern = escapedInput input ∧ ¬['%', '%'] <:+: input.toList ∧ input.toList.count '%' ≤ 2 ∧
      ('%' ∈ input.toList → 2 ≤ (keyword input).length ∨ ShortKeyword input) := by
  have hcontains : contains (escapedInput input) "%%" = true ↔ ['%', '%'] <:+: input.toList := by
    rw [contains, decide_eq_true_iff, toList_escapedInput, ← pair_infix_flatMap_escaped]
    rfl
  have hcount : (escapedInput input).toList.count '%' = input.toList.count '%' := by
    rw [toList_escapedInput, count_flatMap_escaped]
  have hstripped : replaceAll "%" "" (escapedInput input) =
      String.ofList ((keyword input).flatMap escaped) := by
    refine String.toList_inj.1 ?_
    rw [String.toList_ofList, keyword, ← stripped_eq, ← toList_escapedInput, ← toList_replaceAll]
    rfl
  have hescaped : replaceAll "_" "!_" (replaceAll "!" "!!" input) = escapedInput input := rfl
  simp only [sanitizeLikePattern]
  rw [hescaped, hcount, hstripped]
  have hshort : ShortKeyword input ↔ '%' ∈ input.toList ∧
      ∃ c, keyword input = [c] ∧ (c = '!' ∨ c = '_' ∨ 0x80 ≤ c.toNat) := Iff.rfl
  by_cases hpair : ['%', '%'] <:+: input.toList
  · rw [if_pos (hcontains.2 hpair)]
    exact iff_of_false (fun h => by cases h) fun h => h.2.1 hpair
  · rw [if_neg (mt hcontains.1 hpair)]
    by_cases htwo : input.toList.count '%' > 2
    · rw [if_pos htwo]
      exact iff_of_false (fun h => by cases h) fun h => by omega
    · rw [if_neg htwo]
      by_cases hany : '%' ∈ input.toList
      · rw [if_pos (List.count_pos_iff.2 hany)]
        by_cases hrefused : (String.ofList ((keyword input).flatMap escaped)).utf8ByteSize < 2
        · rw [if_pos hrefused]
          obtain ⟨hlength, hno⟩ := (refused_iff _).1 hrefused
          refine iff_of_false (fun h => by cases h) fun h => ?_
          obtain hle | hshort := h.2.2.2 hany
          · omega
          · exact hno hshort.2
        · rw [if_neg hrefused, Except.ok.injEq]
          have hlong : 2 ≤ (keyword input).length ∨ ShortKeyword input := by
            rw [hshort, and_iff_right hany]
            by_contra hno
            obtain ⟨hlength, hno⟩ := not_or.1 hno
            exact hrefused ((refused_iff _).2 ⟨by omega, hno⟩)
          exact ⟨fun heq => ⟨heq.symm, hpair, by omega, fun _ => hlong⟩, fun h => h.1.symm⟩
      · rw [if_neg (by simpa using hany), Except.ok.injEq]
        exact ⟨fun heq => ⟨heq.symm, hpair, by omega, fun h => absurd h hany⟩, fun h => h.1.symm⟩

/-- **When the rules are kept**: what is accepted means what was typed, and its keyword has two
characters unless it is one that takes two bytes or more. -/
theorem sanitizeLikePattern_iff (h : sanitizeLikePattern input = .ok pattern) :
    MeansTyped input pattern ∧ FollowsRules input ↔ ¬ShortKeyword input := by
  obtain ⟨rfl, hpair, htwo, hkeyword⟩ := sanitizeLikePattern_eq_ok_iff.1 h
  rw [and_iff_right (meansTyped_escapedInput input)]
  constructor
  · rintro ⟨-, -, hlength⟩ ⟨hany, c, hc, -⟩
    have hle := hlength hany
    rw [hc] at hle
    exact absurd hle (by simp)
  · intro hshort
    exact ⟨htwo, hpair, fun hany => (hkeyword hany).resolve_right hshort⟩

/-- A keyword with a line in it. -/
theorem sanitizeLikePattern_line :
    MeansTyped "%a_b%" "%a!_b%" ∧ FollowsRules "%a_b%" :=
  (@sanitizeLikePattern_iff "%a_b%" "%a!_b%" rfl).2 <| by
    rintro ⟨-, c, hc, -⟩
    have hlength : (keyword "%a_b%").length = 3 := by decide
    rw [hc] at hlength
    exact absurd hlength (by simp)

/-- **One character is enough** if it is escaped. -/
theorem not_followsRules_line : ¬∀ input pattern : String,
    sanitizeLikePattern input = .ok pattern → MeansTyped input pattern ∧ FollowsRules input := by
  intro h
  obtain ⟨-, hrules⟩ := h "_%" "!_%" rfl
  exact absurd (hrules.length (by decide)) (by decide)

end NewApiPool.TokenSearch
