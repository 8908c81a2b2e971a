import Mathlib.Data.List.DropRight

/-!
# Texts of JavaScript

The functions on strings that a program in JavaScript has for nothing: `trim`, and
`JSON.stringify` and `JSON.parse` for strings. A string is the list of its characters; a
surrogate that has no partner is not one.
-/

namespace JsText

variable {s t : List Char} {c : Char}

/-! ### White space -/

/-- `LineTerminator`, which a dot of a regular expression does not match. -/
def isLineTerminator (c : Char) : Bool :=
  c == '\n' || c == '\r' || c == '\u2028' || c == '\u2029'

/-- What `trim` takes away. -/
def isWhiteSpace (c : Char) : Bool :=
  isLineTerminator c || c == '\t' || c == '\u000b' || c == '\u000c' || c == ' ' ||
    c == '\u00a0' || c == '\u1680' || (0x2000 ≤ c.toNat && c.toNat ≤ 0x200a) || c == '\u202f' ||
    c == '\u205f' || c == '\u3000' || c == '\ufeff'

def trim (s : List Char) : List Char := (s.dropWhile isWhiteSpace).rdropWhile isWhiteSpace

theorem isLineTerminator_of_isWhiteSpace (h : isWhiteSpace c = false) :
    isLineTerminator c = false := by
  simp only [isWhiteSpace, Bool.or_eq_false_iff] at h
  tauto

/-- A text between two characters that are no white space. -/
theorem trim_of_ends (hhead : ∀ c ∈ s.head?, isWhiteSpace c = false)
    (hlast : ∀ c ∈ s.getLast?, isWhiteSpace c = false) : trim s = s := by
  have hdrop : s.dropWhile isWhiteSpace = s := by
    cases s with
    | nil => rfl
    | cons c s => exact List.dropWhile_cons_of_neg (by simp [hhead c rfl])
  rw [trim, hdrop, List.rdropWhile_eq_self_iff]
  intro hne
  rw [hlast _ (List.getLast?_eq_some_getLast hne)]
  exact Bool.false_ne_true

/-! ### Literals -/

/-- A digit of `\u`. -/
def hexDigit (n : ℕ) : Char := Nat.digitChar n

/-- What a digit of `\u` stands for. -/
def hexValue (c : Char) : Option ℕ :=
  if '0' ≤ c ∧ c ≤ '9' then some (c.toNat - '0'.toNat)
  else if 'a' ≤ c ∧ c ≤ 'f' then some (c.toNat - 'a'.toNat + 10)
  else if 'A' ≤ c ∧ c ≤ 'F' then some (c.toNat - 'A'.toNat + 10)
  else none

theorem hexValue_hexDigit {n : ℕ} (h : n < 16) : hexValue (hexDigit n) = some n := by
  have hall : ∀ n < 16, hexValue (hexDigit n) = some n := by decide
  exact hall n h

theorem isLineTerminator_hexDigit {n : ℕ} (h : n < 16) :
    isLineTerminator (hexDigit n) = false := by
  have hall : ∀ n < 16, isLineTerminator (hexDigit n) = false := by decide
  exact hall n h

/-- A character in a literal of `JSON.stringify`. -/
def escapeChar (c : Char) : List Char :=
  if c = '"' then ['\\', '"']
  else if c = '\\' then ['\\', '\\']
  else if c = '\u0008' then ['\\', 'b']
  else if c = '\u000c' then ['\\', 'f']
  else if c = '\n' then ['\\', 'n']
  else if c = '\r' then ['\\', 'r']
  else if c = '\t' then ['\\', 't']
  else if c.toNat < 0x20 then
    ['\\', 'u', '0', '0', hexDigit (c.toNat / 16), hexDigit (c.toNat % 16)]
  else [c]

def escape (s : List Char) : List Char := s.flatMap escapeChar

/-- `JSON.stringify` of a string. -/
def stringify (s : List Char) : List Char := '"' :: (escape s ++ ['"'])

/-- The character of `\u` with four digits, which may have to be followed by the other half of a
pair of surrogates. -/
def unicode (a b c d : Char) : Option ℕ := do
  let a ← hexValue a
  let b ← hexValue b
  let c ← hexValue c
  let d ← hexValue d
  pure (a * 4096 + b * 256 + c * 16 + d)

/-- The character of an escape of one letter. -/
def unescapeLetter (c : Char) : Option Char :=
  match c with
  | '"' => some '"'
  | '\\' => some '\\'
  | '/' => some '/'
  | 'b' => some '\u0008'
  | 'f' => some '\u000c'
  | 'n' => some '\n'
  | 'r' => some '\r'
  | 't' => some '\t'
  | _ => none

/-- What is between the quotes of a literal, read by `JSON.parse`. One half of a pair of
surrogates has to be followed by the other. -/
def unescape : List Char → Option (List Char)
  | [] => some []
  | '\\' :: 'u' :: a :: b :: c :: d :: s =>
    match unicode a b c d with
    | none => none
    | some high =>
      if high < 0xd800 ∨ 0xe000 ≤ high then (unescape s).map (Char.ofNat high :: ·)
      else
        match s with
        | '\\' :: 'u' :: a :: b :: c :: d :: s =>
          match unicode a b c d with
          | none => none
          | some low =>
            if high < 0xdc00 ∧ 0xdc00 ≤ low ∧ low < 0xe000 then
              (unescape s).map
                (Char.ofNat (0x10000 + (high - 0xd800) * 0x400 + (low - 0xdc00)) :: ·)
            else none
        | _ => none
  | '\\' :: c :: s =>
    match unescapeLetter c with
    | none => none
    | some c => (unescape s).map (c :: ·)
  | c :: s => if c = '\\' ∨ c = '"' ∨ c.toNat < 0x20 then none else (unescape s).map (c :: ·)
termination_by structural s => s

/-- The character is written as it is. -/
def isPlain (c : Char) : Bool := c != '"' && c != '\\' && decide (0x20 ≤ c.toNat)

theorem escapeChar_of_isPlain (h : isPlain c = true) : escapeChar c = [c] := by
  simp only [isPlain, Bool.and_eq_true, bne_iff_ne, ne_eq, decide_eq_true_eq] at h
  obtain ⟨⟨hquote, hslash⟩, hspace⟩ := h
  have hcontrol (d : Char) (hd : d.toNat < 0x20) : c ≠ d := by
    rintro rfl
    omega
  rw [escapeChar, if_neg hquote, if_neg hslash, if_neg (hcontrol _ (by decide)),
    if_neg (hcontrol _ (by decide)), if_neg (hcontrol _ (by decide)),
    if_neg (hcontrol _ (by decide)), if_neg (hcontrol _ (by decide)), if_neg (by omega)]

theorem escape_of_isPlain (h : ∀ c ∈ s, isPlain c = true) : escape s = s := by
  rw [escape]
  induction s with
  | nil => rfl
  | cons c s ih =>
    rw [List.flatMap_cons, escapeChar_of_isPlain (h c List.mem_cons_self),
      ih fun c hc => h c (List.mem_cons_of_mem _ hc), List.singleton_append]

theorem unicode_hexDigit {n : ℕ} (h : n < 0x20) :
    unicode '0' '0' (hexDigit (n / 16)) (hexDigit (n % 16)) = some n := by
  have hzero : hexValue '0' = some 0 := by decide
  rw [unicode, hzero, hexValue_hexDigit (by omega), hexValue_hexDigit (by omega)]
  simp only [Option.bind_eq_bind, Option.bind_some, Option.pure_def, Option.some.injEq]
  omega

/-- **What is written for a character**: an escape of one letter, one of four digits, or the
character. -/
theorem escapeChar_cases (c : Char) :
    (∃ d, escapeChar c = ['\\', d] ∧ unescapeLetter d = some c ∧ d ≠ 'u' ∧
        isWhiteSpace d = false) ∨
      (c.toNat < 0x20 ∧ escapeChar c =
        ['\\', 'u', '0', '0', hexDigit (c.toNat / 16), hexDigit (c.toNat % 16)]) ∨
      (escapeChar c = [c] ∧ c ≠ '"' ∧ c ≠ '\\' ∧ 0x20 ≤ c.toNat ∧ c ≠ '\n' ∧ c ≠ '\r') := by
  by_cases hquote : c = '"'
  · subst c
    exact Or.inl ⟨'"', rfl, rfl, by decide, rfl⟩
  by_cases hslash : c = '\\'
  · subst c
    exact Or.inl ⟨'\\', rfl, rfl, by decide, rfl⟩
  by_cases hb : c = '\u0008'
  · subst c
    exact Or.inl ⟨'b', rfl, rfl, by decide, rfl⟩
  by_cases hf : c = '\u000c'
  · subst c
    exact Or.inl ⟨'f', rfl, rfl, by decide, rfl⟩
  by_cases hn : c = '\n'
  · subst c
    exact Or.inl ⟨'n', rfl, rfl, by decide, rfl⟩
  by_cases hr : c = '\r'
  · subst c
    exact Or.inl ⟨'r', rfl, rfl, by decide, rfl⟩
  by_cases ht : c = '\t'
  · subst c
    exact Or.inl ⟨'t', rfl, rfl, by decide, rfl⟩
  have hrest : escapeChar c = if c.toNat < 0x20 then
      ['\\', 'u', '0', '0', hexDigit (c.toNat / 16), hexDigit (c.toNat % 16)] else [c] := by
    rw [escapeChar, if_neg hquote, if_neg hslash, if_neg hb, if_neg hf, if_neg hn, if_neg hr,
      if_neg ht]
  by_cases hcontrol : c.toNat < 0x20
  · exact Or.inr (Or.inl ⟨hcontrol, by rw [hrest, if_pos hcontrol]⟩)
  · exact Or.inr (Or.inr
      ⟨by rw [hrest, if_neg hcontrol], hquote, hslash, not_lt.mp hcontrol, hn, hr⟩)

theorem unescape_escapeChar (c : Char) (t : List Char) :
    unescape (escapeChar c ++ t) = (unescape t).map (c :: ·) := by
  obtain ⟨d, hescape, hletter, hu, -⟩ | ⟨hcontrol, hescape⟩ |
    ⟨hescape, hquote, hslash, hspace, -⟩ := escapeChar_cases c
  · rw [hescape, List.cons_append, List.singleton_append, unescape, hletter]
    rintro a b e f t' rfl
    exact absurd rfl hu
  · have hscalar : c.toNat < 0xd800 ∨ 0xe000 ≤ c.toNat := Or.inl (by omega)
    rw [hescape]
    simp only [List.cons_append, List.nil_append, unescape]
    rw [unicode_hexDigit hcontrol]
    dsimp only
    rw [if_pos hscalar, Char.ofNat_toNat]
  · have hplain : ¬(c = '\\' ∨ c = '"' ∨ c.toNat < 0x20) := by
      rintro (h | h | h)
      · exact hslash h
      · exact hquote h
      · omega
    rw [hescape, List.singleton_append, unescape, if_neg hplain]
    · rintro a b d e t' rfl
      exact absurd rfl hslash
    · rintro d t' rfl
      exact absurd rfl hslash

/-- **What `JSON.stringify` writes, `JSON.parse` reads.** -/
theorem unescape_escape (s : List Char) : unescape (escape s) = some s := by
  rw [escape]
  induction s with
  | nil => rfl
  | cons c s ih => rw [List.flatMap_cons, unescape_escapeChar, ih, Option.map_some]

/-- `JSON.parse` of the literal of a string. -/
def parseString : List Char → Option (List Char)
  | '"' :: s => if s.getLast? = some '"' then unescape s.dropLast else none
  | _ => none

@[simp] theorem parseString_stringify (s : List Char) : parseString (stringify s) = some s := by
  rw [stringify, parseString, List.getLast?_concat, if_pos rfl, List.dropLast_concat,
    unescape_escape]

/-! ### Literals in a text -/

/-- The regular expression `(?:[^"\\]|\\.)*"`, with what it leaves of a text. -/
def literalBody : List Char → Option (List Char × List Char)
  | [] => none
  | '"' :: s => some ([], s)
  | '\\' :: c :: s =>
    if isLineTerminator c then none else (literalBody s).map fun (b, s) => ('\\' :: c :: b, s)
  | c :: s => if c = '\\' then none else (literalBody s).map fun (b, s) => (c :: b, s)

theorem isLineTerminator_of_mem_escapeChar (hline : c ≠ '\u2028') (hparagraph : c ≠ '\u2029') :
    ∀ d ∈ escapeChar c, isLineTerminator d = false := by
  obtain ⟨d, hescape, -, -, hd⟩ | ⟨hcontrol, hescape⟩ | ⟨hescape, -, -, -, hlf, hcr⟩ :=
    escapeChar_cases c
  · rw [hescape, List.forall_mem_cons, List.forall_mem_singleton]
    exact ⟨rfl, isLineTerminator_of_isWhiteSpace hd⟩
  · have hhigh := isLineTerminator_hexDigit (n := c.toNat / 16) (by omega)
    have hlow := isLineTerminator_hexDigit (n := c.toNat % 16) (by omega)
    rw [hescape]
    simp only [List.forall_mem_cons]
    exact ⟨rfl, rfl, rfl, rfl, hhigh, hlow, List.forall_mem_nil _⟩
  · rw [hescape, List.forall_mem_singleton]
    simp [isLineTerminator, hlf, hcr, hline, hparagraph]

/-- What is written is on one line, but for the two separators that are left as they are. -/
theorem isLineTerminator_of_mem_escape (h : ∀ c ∈ s, c ≠ '\u2028' ∧ c ≠ '\u2029') :
    ∀ d ∈ escape s, isLineTerminator d = false := by
  intro d hd
  obtain ⟨c, hc, hd⟩ := List.mem_flatMap.mp hd
  exact isLineTerminator_of_mem_escapeChar (h c hc).1 (h c hc).2 d hd

theorem literalBody_cons (hquote : c ≠ '"') (hslash : c ≠ '\\') (t : List Char) :
    literalBody (c :: t) = (literalBody t).map fun (b, t) => (c :: b, t) := by
  rw [literalBody, if_neg hslash]
  · rintro rfl
    exact hquote rfl
  · rintro d t' rfl
    exact absurd rfl hslash

theorem literalBody_slash (h : isLineTerminator c = false) (t : List Char) :
    literalBody ('\\' :: c :: t) = (literalBody t).map fun (b, t) => ('\\' :: c :: b, t) := by
  rw [literalBody, if_neg (by rw [h]; exact Bool.false_ne_true)]

/-- The body of a literal: what is found does not depend on what comes after it. -/
def Body (b : List Char) : Prop := ∀ t, literalBody (b ++ '"' :: t) = some (b, t)

theorem body_nil : Body [] := fun _ => rfl

theorem Body.cons (hquote : c ≠ '"') (hslash : c ≠ '\\') (h : Body s) : Body (c :: s) := by
  intro t
  rw [List.cons_append, literalBody_cons hquote hslash, h t]
  rfl

theorem Body.slash (hline : isLineTerminator c = false) (h : Body s) : Body ('\\' :: c :: s) := by
  intro t
  rw [List.cons_append, List.cons_append, literalBody_slash hline, h t]
  rfl

/-- A digit of `\u` is a character like any other. -/
theorem ne_of_hexValue {n : ℕ} (h : hexValue c = some n) : c ≠ '"' ∧ c ≠ '\\' := by
  constructor
  · rintro rfl
    exact absurd h (by simp [hexValue])
  · rintro rfl
    exact absurd h (by simp [hexValue])

theorem Body.unicode {a b c d : Char} {n : ℕ} (h : JsText.unicode a b c d = some n)
    (hs : Body s) : Body ('\\' :: 'u' :: a :: b :: c :: d :: s) := by
  simp only [JsText.unicode, Option.bind_eq_bind, Option.bind_eq_some_iff] at h
  obtain ⟨_, ha, _, hb, _, hc, _, hd, -⟩ := h
  obtain ⟨ha, ha'⟩ := ne_of_hexValue ha
  obtain ⟨hb, hb'⟩ := ne_of_hexValue hb
  obtain ⟨hc, hc'⟩ := ne_of_hexValue hc
  obtain ⟨hd, hd'⟩ := ne_of_hexValue hd
  exact ((((hs.cons hd hd').cons hc hc').cons hb hb').cons ha ha').slash rfl

theorem isLineTerminator_of_unescapeLetter {d : Char} (h : unescapeLetter c = some d) :
    isLineTerminator c = false := by
  unfold unescapeLetter at h
  split at h <;> first | rfl | exact absurd h (by simp)

/-- What `JSON.parse` reads is the body of a literal. -/
theorem body_of_unescape {v : List Char} (h : unescape s = some v) : Body s := by
  induction s using unescape.induct generalizing v with
  | case1 => exact body_nil
  | case2 a b c d s hunicode =>
    simp only [unescape, hunicode] at h
    exact absurd h (by simp)
  | case3 a b c d s high hunicode hscalar ih =>
    simp only [unescape, hunicode, if_pos hscalar, Option.map_eq_some_iff] at h
    obtain ⟨v', hv', -⟩ := h
    exact (ih hv').unicode hunicode
  | case4 a b c d high hunicode hscalar a' b' c' d' s hunicode' =>
    simp only [unescape, hunicode, if_neg hscalar, hunicode'] at h
    exact absurd h (by simp)
  | case5 a b c d high hunicode hscalar a' b' c' d' s low hunicode' hpair ih =>
    simp only [unescape, hunicode, if_neg hscalar, hunicode', if_pos hpair,
      Option.map_eq_some_iff] at h
    obtain ⟨v', hv', -⟩ := h
    exact ((ih hv').unicode hunicode').unicode hunicode
  | case6 a b c d high hunicode hscalar a' b' c' d' s low hunicode' hpair =>
    simp only [unescape, hunicode, if_neg hscalar, hunicode', if_neg hpair] at h
    exact absurd h (by simp)
  | case7 a b c d s high hunicode hscalar hrest =>
    simp only [unescape, hunicode, if_neg hscalar] at h
    exact absurd h (by simp)
  | case8 c s hu hletter =>
    simp only [unescape, hletter] at h
    exact absurd h (by simp)
  | case9 c s hu d hletter ih =>
    rw [unescape, hletter] at h
    · obtain ⟨v', hv', -⟩ := Option.map_eq_some_iff.mp h
      exact (ih hv').slash (isLineTerminator_of_unescapeLetter hletter)
    · exact hu
  | case10 c s hu hslash hbad =>
    rw [unescape, if_pos hbad] at h
    · exact absurd h (by simp)
    · exact hu
    · exact hslash
  | case11 c s hu hslash hplain ih =>
    rw [unescape, if_neg hplain] at h
    · obtain ⟨v', hv', -⟩ := Option.map_eq_some_iff.mp h
      simp only [not_or] at hplain
      exact (ih hv').cons hplain.2.1 hplain.1
    · exact hu
    · exact hslash

theorem body_escape (s : List Char) : Body (escape s) := body_of_unescape (unescape_escape s)

end JsText
