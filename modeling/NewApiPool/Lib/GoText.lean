import Mathlib.Algebra.Group.Int.Defs
import Mathlib.Algebra.Group.Nat.Defs
import Mathlib.Data.List.DropRight
import Mathlib.Data.List.Infix

/-!
# The text operations of the Go library

`strings.TrimSpace`, `strings.Contains`, `strings.HasPrefix`, `strings.TrimSuffix`,
`strings.Trim` and `strings.Split`, on Unicode text. The white space of the first is that of
`unicode.IsSpace`, which is wider than the four characters of `Char.isWhitespace`.
The cutset and the separator of the last two are one character, as their callers have
it; an empty text splits into one empty piece, never into none (`split_ne_nil`). A
separator of several characters is that of `splitOn`, on which `replaceAll` rests.
`strconv.Atoi` reads a sign and decimal digits into 64 bits.
`strings.ToLower` is here for comparisons with an ASCII word only.

A text that is sent in pieces is the join of them; `join_ite_eq_iff` says when some of the
pieces can be left out.
-/

namespace GoText

/-- `unicode.IsSpace`: the Latin-1 spaces and the category Z spaces above them. -/
def isSpace (c : Char) : Bool :=
  c.toNat ∈ [0x09, 0x0A, 0x0B, 0x0C, 0x0D, 0x20, 0x85, 0xA0, 0x1680, 0x2028, 0x2029, 0x202F,
    0x205F, 0x3000] || (0x2000 ≤ c.toNat && c.toNat ≤ 0x200A)

/-- `strings.TrimSpace`. -/
def trimSpace (s : String) : String :=
  String.ofList (((s.toList.dropWhile isSpace).reverse.dropWhile isSpace).reverse)

theorem trimSpace_trimSpace (s : String) : trimSpace (trimSpace s) = trimSpace s := by
  unfold trimSpace
  rw [String.toList_ofList]
  generalize hl : s.toList.dropWhile isSpace = l
  have hself : l.dropWhile isSpace = l := by
    rw [← hl]
    exact List.dropWhile_idempotent _ _
  -- what is left at the end begins where `l` begins, and `l` does not begin with a space
  have hleft : (l.reverse.dropWhile isSpace).reverse.dropWhile isSpace =
      (l.reverse.dropWhile isSpace).reverse := by
    rw [List.dropWhile_eq_self_iff]
    intro hpos
    have hpre : (l.reverse.dropWhile isSpace).reverse <+: l := List.rdropWhile_prefix isSpace l
    rw [List.dropWhile_eq_self_iff] at hself
    have hhead := hself (hpos.trans_le hpre.length_le)
    simpa [hpre.getElem hpos] using hhead
  rw [hleft, List.reverse_reverse, List.dropWhile_idempotent]

variable {s : String}

theorem trimSpace_of_forall (h : ∀ c ∈ s.toList, isSpace c = false) :
    trimSpace s = s := by
  have hdrop (l : List Char) (hl : ∀ c ∈ l, isSpace c = false) : l.dropWhile isSpace = l := by
    cases l with
    | nil => rfl
    | cons c l =>
      rw [List.dropWhile_cons, if_neg]
      rw [hl c List.mem_cons_self]
      exact Bool.false_ne_true
  rw [trimSpace, hdrop _ h, hdrop _ fun c hc => h c (List.mem_reverse.1 hc), List.reverse_reverse,
    String.ofList_toList]

/-- `strings.Contains`. -/
def contains (s substr : String) : Bool := decide (substr.toList <:+: s.toList)

/-- `strings.HasPrefix`. -/
def startsWith (s start : String) : Bool := start.toList.isPrefixOf s.toList

/-- `strings.HasSuffix`. -/
def endsWith (s suffix : String) : Bool := suffix.toList.isSuffixOf s.toList

/-- `strings.TrimSuffix`. -/
def trimSuffix (s suffix : String) : String :=
  if endsWith s suffix then
    String.ofList (s.toList.take (s.toList.length - suffix.toList.length))
  else s

theorem endsWith_append (s suffix : String) : endsWith (s ++ suffix) suffix = true := by
  rw [endsWith, List.isSuffixOf_iff_suffix, String.toList_append]
  exact List.suffix_append _ _

/-- `strings.ToLower`, as a comparison with a word of ASCII letters sees it: the only
characters outside ASCII with a lower case inside it are the Kelvin sign and the dotted
capital I. -/
def toLower (s : String) : String :=
  String.ofList <| s.toList.map fun c =>
    if c.toNat = 0x212A then 'k' else if c.toNat = 0x130 then 'i' else c.toLower

/-- One character of `toLower`. -/
def lowerChar (c : Char) : Char :=
  if c.toNat = 0x212A then 'k' else if c.toNat = 0x130 then 'i' else c.toLower

/-- A letter that is put in lower case is outside the capital letters. -/
theorem toNat_toLower (c : Char) :
    c.toLower.toNat = if 65 ≤ c.toNat ∧ c.toNat ≤ 90 then c.toNat + 32 else c.toNat := by
  delta Char.toLower
  by_cases h : 65 ≤ c.toNat ∧ c.toNat ≤ 90
  · have hval : c.val ≥ 'A'.val ∧ c.val ≤ 'Z'.val :=
      ⟨UInt32.le_iff_toNat_le.2 h.1, UInt32.le_iff_toNat_le.2 h.2⟩
    rw [dif_pos hval, if_pos h]
    have hadd : (c.val + ('a'.val - 'A'.val)).toNat = (c.toNat + 32) % 2 ^ 32 :=
      UInt32.toNat_add _ _
    exact hadd.trans (Nat.mod_eq_of_lt (by omega))
  · have hval : ¬(c.val ≥ 'A'.val ∧ c.val ≤ 'Z'.val) := fun hval =>
      h ⟨UInt32.le_iff_toNat_le.1 hval.1, UInt32.le_iff_toNat_le.1 hval.2⟩
    rw [dif_neg hval, if_neg h]

theorem lowerChar_lowerChar (c : Char) : lowerChar (lowerChar c) = lowerChar c := by
  rw [lowerChar.eq_def c]
  split_ifs with hk hi
  · decide
  · decide
  · have hnat := toNat_toLower c
    have hself : c.toLower.toLower = c.toLower := by
      have hnat' := toNat_toLower c.toLower
      refine Char.ext (UInt32.toNat_inj.1 (hnat'.trans (if_neg ?_)))
      split_ifs at hnat <;> omega
    rw [lowerChar, if_neg, if_neg, hself]
    · split_ifs at hnat <;> omega
    · split_ifs at hnat <;> omega

theorem toList_toLower (s : String) : (toLower s).toList = s.toList.map lowerChar :=
  String.toList_ofList

variable {c : Char}

theorem mem_of_mem_trimSpace (h : c ∈ (trimSpace s).toList) :
    c ∈ s.toList := by
  rw [trimSpace, String.toList_ofList, List.mem_reverse] at h
  have hback := (List.dropWhile_sublist isSpace).subset h
  exact (List.dropWhile_sublist isSpace).subset (List.mem_reverse.1 hback)

theorem toLower_trimSpace_toLower (s : String) :
    toLower (trimSpace (toLower s)) = trimSpace (toLower s) := by
  refine String.toList_inj.1 ((toList_toLower _).trans ?_)
  refine (List.map_congr_left fun c hc => ?_).trans (List.map_id _)
  have hmem := mem_of_mem_trimSpace hc
  rw [toList_toLower] at hmem
  obtain ⟨c, -, rfl⟩ := List.mem_map.1 hmem
  exact lowerChar_lowerChar c

/-- `strings.Trim` with a cutset of one character. -/
def trim (c : Char) (s : String) : String :=
  String.ofList (((s.toList.dropWhile (· == c)).reverse.dropWhile (· == c)).reverse)

theorem dropWhile_eq_self {l : List Char} (h : l.head? ≠ some c) :
    l.dropWhile (· == c) = l := by
  cases l with
  | nil => rfl
  | cons x l => exact List.dropWhile_cons_of_neg fun hx => h (by rw [beq_iff_eq.mp hx]; rfl)

/-- A text that does not begin or end with the character stays as it is. -/
theorem trim_eq_self (hhead : s.toList.head? ≠ some c)
    (hlast : s.toList.getLast? ≠ some c) : trim c s = s := by
  rw [trim, dropWhile_eq_self hhead, dropWhile_eq_self (by rwa [List.head?_reverse]),
    List.reverse_reverse, String.ofList_toList]

/-- `strings.Split` at a separator of one character. -/
def split (sep : Char) (s : String) : List String := (s.toList.splitOn sep).map String.ofList

theorem split_ne_nil (sep : Char) (s : String) : split sep s ≠ [] := by
  unfold split
  rw [Ne, List.map_eq_nil_iff]
  exact List.splitOn_ne_nil sep s.toList

/-- Texts that were joined are found again, where none of them holds the separator. -/
theorem split_intercalate {sep : Char} {pieces : List String} (hne : pieces ≠ [])
    (h : ∀ piece ∈ pieces, sep ∉ piece.toList) :
    split sep ((String.singleton sep).intercalate pieces) = pieces := by
  have hlists : ∀ piece ∈ pieces.map String.toList, sep ∉ piece := by
    intro piece hpiece
    obtain ⟨text, htext, rfl⟩ := List.mem_map.1 hpiece
    exact h text htext
  rw [split, String.toList_intercalate, String.toList_singleton,
    List.splitOn_intercalate sep hlists (by simpa using hne), List.map_map]
  exact (List.map_congr_left fun piece _ => String.ofList_toList).trans (List.map_id pieces)

/-- The pieces of a text between the occurrences of `sep`, found from the left: `cur` is
the piece that is being read, backwards, and `skip` what is left of an occurrence. -/
def splitAux (sep : List Char) : (cur : List Char) → (skip : Nat) → List Char → List String
  | cur, _, [] => [String.ofList cur.reverse]
  | cur, skip + 1, _ :: s => splitAux sep cur skip s
  | cur, 0, c :: s =>
    if sep.isPrefixOf (c :: s) then
      String.ofList cur.reverse :: splitAux sep [] (sep.length - 1) s
    else splitAux sep (c :: cur) 0 s

/-- `strings.Split` at a separator that is not empty. -/
def splitOn (sep s : String) : List String := splitAux sep.toList [] 0 s.toList

/-- `strings.Replace` without a limit, of a text that is not empty. -/
def replaceAll (old new s : String) : String := new.intercalate (splitOn old s)

/-- `strconv.Atoi`. -/
def atoi (s : String) : Option Int :=
  let digits := if startsWith s "-" || startsWith s "+" then s.toList.drop 1 else s.toList
  if digits ≠ [] ∧ digits.all Char.isDigit then
    let n : Int := digits.foldl (fun n c => 10 * n + (c.toNat - '0'.toNat : Nat)) 0
    let n := if startsWith s "-" then -n else n
    if -2 ^ 63 ≤ n ∧ n < 2 ^ 63 then some n else none
  else none

theorem isSpace_of_isDigit (h : c.isDigit = true) : isSpace c = false := by
  have hcode : 48 ≤ c.toNat ∧ c.toNat ≤ 57 := by
    simpa [Char.isDigit, UInt32.le_iff_toNat_le] using h
  simp only [isSpace, List.mem_cons, List.not_mem_nil, or_false, Bool.or_eq_false_iff,
    Bool.and_eq_false_iff, decide_eq_false_iff_not]
  omega

theorem isDigit_of_mem_repr {n : ℕ} (h : c ∈ n.repr.toList) : c.isDigit = true :=
  Nat.isDigit_of_mem_toDigits (by decide) (by decide) (Nat.toList_repr ▸ h)

theorem repr_ne_empty (n : ℕ) : n.repr ≠ "" := by
  intro h
  have hlist : n.repr.toList = Nat.toDigits 10 n := Nat.toList_repr
  rw [h] at hlist
  exact Nat.toDigits_ne_nil hlist.symm

theorem trimSpace_repr (n : ℕ) : trimSpace n.repr = n.repr :=
  trimSpace_of_forall fun _ hc => isSpace_of_isDigit (isDigit_of_mem_repr hc)

/-- `strconv.Itoa`, of a natural number, is read back. -/
theorem atoi_repr {n : ℕ} (h : n < 2 ^ 63) : atoi n.repr = some (n : Int) := by
  have hdigit : ∀ c ∈ n.repr.toList, c.isDigit = true := fun c => isDigit_of_mem_repr
  have hlist : n.repr.toList = Nat.toDigits 10 n := Nat.toList_repr
  -- a number has no sign, as its first character is a digit
  have hsign (c : Char) (hc : c.isDigit = false) :
      startsWith n.repr (String.singleton c) = false := by
    rw [startsWith, String.toList_singleton]
    cases hdigits : n.repr.toList with
    | nil => rfl
    | cons d l =>
      have hne : c ≠ d := fun heq => by
        rw [heq, hdigit d (hdigits ▸ List.mem_cons_self)] at hc
        cases hc
      rw [List.isPrefixOf_cons_cons, beq_false_of_ne hne, Bool.false_and]
  have hminus : startsWith n.repr "-" = false := hsign '-' (by decide)
  have hplus : startsWith n.repr "+" = false := hsign '+' (by decide)
  have hvalue : (Nat.toDigits 10 n).foldl
      (fun (n : Int) c => 10 * n + (c.toNat - '0'.toNat : ℕ)) 0 = (n : Int) := by
    have hcast := congrArg (fun m : ℕ => (m : Int)) (Nat.ofDigitChars_ten_toDigits (n := n))
    rw [Nat.ofDigitChars_eq_foldl] at hcast
    rw [← hcast]
    exact List.foldl_hom (fun m : ℕ => (m : Int)) fun m c => rfl
  rw [hlist] at hdigit
  rw [atoi, hminus, hplus, hlist]
  simp only [Bool.or_self, Bool.false_eq_true, if_false]
  rw [if_pos ⟨Nat.toDigits_ne_nil, List.all_eq_true.2 hdigit⟩, hvalue, if_pos (by omega)]

/-! ### Joined texts -/

variable {α : Type*}

theorem length_join_map_le {f g : α → String} {l : List α}
    (h : ∀ x ∈ l, (f x).length ≤ (g x).length) :
    (String.join (l.map f)).length ≤ (String.join (l.map g)).length := by
  induction l with
  | nil => exact le_rfl
  | cons x l ih =>
    rw [List.forall_mem_cons] at h
    have hrest := ih h.2
    simp only [List.map_cons, String.join_cons, String.length_append]
    omega

/-- **If none of the texts is longer**, the whole is the same only if all of them are. -/
theorem join_map_eq_iff {f g : α → String} {l : List α} (h : ∀ x ∈ l, (f x).length ≤ (g x).length) :
    String.join (l.map f) = String.join (l.map g) ↔ ∀ x ∈ l, f x = g x := by
  refine ⟨fun heq => ?_, fun heq => congrArg String.join (List.map_congr_left heq)⟩
  induction l with
  | nil => exact nofun
  | cons x l ih =>
    rw [List.forall_mem_cons] at h ⊢
    simp only [List.map_cons, String.join_cons] at heq
    have hlen : (f x).toList.length = (g x).toList.length := by
      have htotal := congrArg String.length heq
      have hrest := length_join_map_le h.2
      rw [String.length_append, String.length_append] at htotal
      rw [String.length_toList, String.length_toList]
      omega
    have hlist := congrArg String.toList heq
    rw [String.toList_append, String.toList_append] at hlist
    obtain ⟨hx, hl⟩ := List.append_inj hlist hlen
    exact ⟨String.toList_inj.mp hx, ih h.2 (String.toList_inj.mp hl)⟩

theorem length_join_ite_le (f : α → String) (p : α → Bool) (l : List α) :
    (String.join (l.map fun x => if p x then f x else "")).length ≤
      (String.join (l.map f)).length := by
  refine length_join_map_le fun x _ => ?_
  split_ifs
  · exact le_rfl
  · exact Nat.zero_le _

/-- **Leaving texts out** changes the whole unless they are empty. -/
theorem join_ite_eq_iff (f : α → String) (p : α → Bool) (l : List α) :
    String.join (l.map fun x => if p x then f x else "") = String.join (l.map f) ↔
      ∀ x ∈ l, p x = false → f x = "" := by
  have hle (x : α) (_ : x ∈ l) : (if p x then f x else "").length ≤ (f x).length := by
    split_ifs
    · exact le_rfl
    · exact Nat.zero_le _
  rw [join_map_eq_iff hle]
  refine forall₂_congr fun x _ => ?_
  rcases p x
  · exact ⟨fun heq _ => heq.symm, fun heq => (heq rfl).symm⟩
  · exact iff_of_true rfl nofun

theorem join_eq_empty_iff (l : List String) : String.join l = "" ↔ ∀ s ∈ l, s = "" := by
  induction l with
  | nil => simp
  | cons s l ih => rw [String.join_cons, String.append_eq_empty_iff, List.forall_mem_cons, ih]

theorem join_flatMap_filterMap {β : Type*} (l : List α) (f : α → List β) (g : β → Option String) :
    String.join ((l.flatMap f).filterMap g) =
      String.join (l.map fun x => String.join ((f x).filterMap g)) := by
  induction l with
  | nil => rfl
  | cons x l ih =>
    rw [List.flatMap_cons, List.filterMap_append, String.join_append, ih, List.map_cons,
      String.join_cons]

theorem join_eq_getLast_iff (texts : List String) :
    String.join texts = texts.getLast?.getD "" ↔ ∀ t ∈ texts.dropLast, t = "" := by
  rcases List.eq_nil_or_concat texts with rfl | ⟨init, last, rfl⟩
  · exact iff_of_true rfl nofun
  · rw [List.concat_eq_append, List.getLast?_concat, Option.getD_some, List.dropLast_concat,
      ← join_eq_empty_iff, String.join_append]
    simp

theorem length_join_le_of_sublist {l l' : List String} (h : l.Sublist l') :
    (String.join l).length ≤ (String.join l').length := by
  induction h with
  | slnil => exact le_rfl
  | cons s _ ih =>
    rw [String.join_cons, String.length_append]
    omega
  | cons_cons s _ ih =>
    rw [String.join_cons, String.join_cons, String.length_append, String.length_append]
    omega

theorem length_intercalate (sep : String) (l : List String) :
    (sep.intercalate l).length = (String.join l).length + sep.length * (l.length - 1) := by
  induction l with
  | nil => rfl
  | cons s l ih =>
    rcases l with _ | ⟨t, l⟩
    · simp
    · rw [String.intercalate_cons_cons, String.length_append, String.length_append, ih,
        String.join_cons (s := s), String.length_append]
      simp only [List.length_cons, Nat.add_sub_cancel, Nat.mul_succ]
      omega
end GoText
