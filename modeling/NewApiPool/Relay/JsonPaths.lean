import NewApiPool.Lib.GoText
import NewApiPool.Lib.Json

/-!
# Paths with negative indices

The operations on a body name their places by paths of `gjson`, in which an index may count from
the end. `processNegativeIndex` replaces such an index before `gjson` sees the path. It works on
the text: it looks for every `.-k` of the original path, takes the array at what stands before
the *first* `-k` there, and replaces the first `.-k` of the text so far.

* `resolve` – what the negative indices of a path stand for, each in the array that the steps
  before it lead to once they are resolved themselves.
* `processNegativeIndex_eq_iff` – where no text of an index occurs before it, the path is resolved
  exactly if at most one index counts from the end of an array, and it is not the first step.
-/

namespace NewApiPool.Relay

open GoText JsonDoc

/-! ### What the code uses of `gjson` and `sjson` -/

/-- A text that is one step of a path for `gjson` and `sjson`, and means itself. -/
structure Plain (seg : String) : Prop where
  ne_empty : seg ≠ ""
  chars : ∀ c ∈ seg.toList, c ∉ ['.', '*', '?', '|', '#', '@', '\\']
  head : ∀ c ∈ seg.toList.head?, c ∉ ['!', '{', '[', ':']

instance (seg : String) : Decidable (Plain seg) :=
  decidable_of_iff (seg ≠ "" ∧
    seg.toList.all (fun c => c ∉ ['.', '*', '?', '|', '#', '@', '\\']) = true ∧
    seg.toList.head?.all (fun c => c ∉ ['!', '{', '[', ':']) = true)
    ⟨fun ⟨hne, hchars, hhead⟩ => ⟨hne, fun c hc => by simpa using List.all_eq_true.1 hchars c hc,
        fun c hc => by simpa using (Option.all_eq_true _ _).1 hhead c hc⟩,
      fun h => ⟨h.ne_empty, List.all_eq_true.2 fun c hc => by simpa using h.chars c hc,
        (Option.all_eq_true _ _).2 fun c hc => by simpa using h.head c hc⟩⟩

def joinPath (segs : List String) : String := ".".intercalate segs

/-- The libraries, and what they do at a path of plain steps. -/
structure JsonLibs (ν : Type) where
  /-- `gjson.Get` -/
  get : Doc ν → String → Option (Doc ν)
  get_join : ∀ j segs, segs ≠ [] → (∀ seg ∈ segs, Plain seg) → get j (joinPath segs) = j.getAt segs

variable {ν : Type} (go : JsonLibs ν)

/-! ### `processNegativeIndex` -/

/-- The matches of the regular expression `\.(-\d+)`, each without the dot. The number is how much
is left of a match. -/
def negativeIndexRegexp : ℕ → List Char → List (List Char)
  | _, [] => []
  | skip + 1, _ :: s => negativeIndexRegexp skip s
  | 0, c :: s =>
    let digits := (s.drop 1).takeWhile Char.isDigit
    if c = '.' ∧ s.head? = some '-' ∧ digits ≠ [] then
      ('-' :: digits) :: negativeIndexRegexp (digits.length + 1) s
    else negativeIndexRegexp 0 s

/-- `strings.Split(s, sep)[0]` -/
def before (sep : List Char) : List Char → List Char
  | [] => []
  | c :: s => if sep.isPrefixOf (c :: s) then [] else c :: before sep s

/-- `strings.Replace(s, old, new, 1)` -/
def replaceFirst (old new : List Char) : List Char → List Char
  | [] => []
  | c :: s =>
    if old.isPrefixOf (c :: s) then new ++ (c :: s).drop old.length
    else c :: replaceFirst old new s

/-- `array[:len(array)-1]`, if it ends with a dot. -/
def trimDot (s : List Char) : List Char := if s.getLast? = some '.' then s.dropLast else s

/-- The number after the sign. A number that `Atoi` refuses is larger than any length. -/
def indexNumber (negIndex : List Char) : ℕ := Nat.ofDigitChars 10 (negIndex.drop 1) 0

/-- The body of the loop over the matches. -/
def replaceIndex (json : Doc ν) (path : List Char) (result negIndex : List Char) : List Char :=
  match go.get json (String.ofList (trimDot (before negIndex path))) with
  | some (.arr items) =>
    let actualIndex : ℤ := items.length - indexNumber negIndex
    if 0 ≤ actualIndex ∧ actualIndex < items.length then
      replaceFirst ('.' :: negIndex) ('.' :: (toString actualIndex.toNat).toList) result
    else result
  | _ => result

/-- **`processNegativeIndex`** -/
def processNegativeIndex (json : Doc ν) (path : String) : String :=
  String.ofList ((negativeIndexRegexp 0 path.toList).foldl (replaceIndex go json path.toList)
    path.toList)

/-! ### What the indices stand for -/

/-- A step that counts from the end: its digits. -/
def negative? (seg : String) : Option (List Char) :=
  match seg.toList with
  | '-' :: digits => if digits ≠ [] ∧ digits.all Char.isDigit then some digits else none
  | _ => none

/-- A step behind a path: the index it stands for, if it counts from the end of the array that is
there, and has an element. -/
def resolveStep (json : Doc ν) (done : List String) (seg : String) : String :=
  match negative? seg, json.getAt done with
  | some digits, some (.arr items) =>
    let k := Nat.ofDigitChars 10 digits 0
    if 0 < k ∧ k ≤ items.length then toString (items.length - k) else seg
  | _, _ => seg

/-- **The steps of a path behind those that are resolved.** -/
def resolve (json : Doc ν) : (done rest : List String) → List String
  | _, [] => []
  | done, seg :: rest =>
    resolveStep json done seg :: resolve json (done ++ [resolveStep json done seg]) rest

/-- How many steps count from the end of an array. -/
def resolvedCount (json : Doc ν) : (done rest : List String) → ℕ
  | _, [] => 0
  | done, seg :: rest =>
    (if resolveStep json done seg = seg then 0 else 1) +
      resolvedCount json (done ++ [resolveStep json done seg]) rest

/-- **The text of an index is not read elsewhere**: it occurs in no step before it, and only a
negative index begins like one. -/
def Unambiguous : (done rest : List String) → Prop
  | _, [] => True
  | done, seg :: rest =>
    (negative? seg = none → ∀ d, ['-', d] <+: seg.toList → d.isDigit = false) ∧
      ((negative? seg).isSome → ∀ step ∈ done, ¬seg.toList <:+: step.toList) ∧
      Unambiguous (done ++ [seg]) rest

/-! ### The text of a path -/

section Text

variable {seg : String} {digits neg new s t : List Char} {done rest steps : List String}

/-- The text of steps behind others. -/
def tailText (steps : List String) : List Char := steps.flatMap fun seg => '.' :: seg.toList

@[simp] theorem tailText_nil : tailText [] = [] := rfl

@[simp] theorem tailText_cons (seg : String) (steps : List String) :
    tailText (seg :: steps) = '.' :: (seg.toList ++ tailText steps) := rfl

@[simp] theorem tailText_append (steps steps' : List String) :
    tailText (steps ++ steps') = tailText steps ++ tailText steps' := List.flatMap_append

theorem toList_joinPath (seg : String) (steps : List String) :
    (joinPath (seg :: steps)).toList = seg.toList ++ tailText steps := by
  rw [joinPath, String.toList_intercalate]
  induction steps generalizing seg with
  | nil => simp
  | cons seg' steps ih =>
    rw [tailText_cons, ← ih seg']
    simp [List.intercalate]

theorem negative?_eq_some (h : negative? seg = some digits) :
    seg.toList = '-' :: digits ∧ digits ≠ [] ∧ ∀ c ∈ digits, c.isDigit = true := by
  unfold negative? at h
  split at h
  · rename_i ds hseg
    split at h
    · rename_i hdigits
      cases h
      exact ⟨hseg, hdigits.1, List.all_eq_true.1 hdigits.2⟩
    · cases h
  · cases h

theorem not_isDigit_dot : '.'.isDigit = false := rfl

theorem head?_tailText (steps : List String) : ∀ c ∈ (tailText steps).head?, c = '.' := by
  cases steps with
  | nil => simp
  | cons seg steps => simp

theorem takeWhile_digits (hdigits : ∀ c ∈ digits, c.isDigit = true) (steps : List String) :
    (digits ++ tailText steps).takeWhile Char.isDigit = digits := by
  rw [List.takeWhile_append_of_pos hdigits]
  cases steps with
  | nil => simp
  | cons seg steps => simp [not_isDigit_dot]

theorem negativeIndexRegexp_append (hs : '.' ∉ s) (t : List Char) :
    negativeIndexRegexp 0 (s ++ t) = negativeIndexRegexp 0 t := by
  induction s with
  | nil => rfl
  | cons c s ih =>
    rw [List.mem_cons, not_or] at hs
    rw [List.cons_append, negativeIndexRegexp, if_neg fun h => hs.1 h.1.symm, ih hs.2]

theorem negativeIndexRegexp_skip (s t : List Char) :
    negativeIndexRegexp s.length (s ++ t) = negativeIndexRegexp 0 t := by
  induction s with
  | nil => rfl
  | cons c s ih => exact ih

theorem negativeIndexRegexp_negative (h : negative? seg = some digits) (steps : List String) :
    negativeIndexRegexp 0 (tailText (seg :: steps)) =
      seg.toList :: negativeIndexRegexp 0 (tailText steps) := by
  obtain ⟨hseg, hne, hdigits⟩ := negative?_eq_some h
  have htake : ((seg.toList ++ tailText steps).drop 1).takeWhile Char.isDigit = digits := by
    rw [hseg]
    exact takeWhile_digits hdigits steps
  rw [tailText_cons, negativeIndexRegexp]
  simp only [htake]
  rw [if_pos ⟨trivial, by rw [hseg]; rfl, hne⟩, ← hseg]
  have hlength : digits.length + 1 = seg.toList.length := by rw [hseg]; rfl
  rw [hlength, negativeIndexRegexp_skip]

theorem negativeIndexRegexp_other (hseg : '.' ∉ seg.toList)
    (h : ∀ d, ['-', d] <+: seg.toList → d.isDigit = false) (steps : List String) :
    negativeIndexRegexp 0 (tailText (seg :: steps)) = negativeIndexRegexp 0 (tailText steps) := by
  have hno : ¬('.' = '.' ∧ (seg.toList ++ tailText steps).head? = some '-' ∧
      ((seg.toList ++ tailText steps).drop 1).takeWhile Char.isDigit ≠ []) := by
    rintro ⟨-, hhead, hdigits⟩
    cases hs : seg.toList with
    | nil =>
      rw [hs, List.nil_append] at hhead
      exact absurd (head?_tailText steps _ hhead) (by decide)
    | cons c s =>
      obtain rfl : c = '-' := by simpa [hs] using hhead
      rw [hs] at hdigits h
      cases s with
      | nil =>
        cases steps with
        | nil => exact hdigits rfl
        | cons seg' steps => exact hdigits (by simp [not_isDigit_dot])
      | cons d s =>
        have hd := h d ⟨s, rfl⟩
        exact hdigits (by simp [hd])
  rw [tailText_cons, negativeIndexRegexp]
  rw [if_neg hno, negativeIndexRegexp_append hseg]

/-- The text of a step that is a negative index. -/
def negativeText (seg : String) : Option (List Char) := (negative? seg).map fun _ => seg.toList

/-- **The matches** are the negative indices behind the first step. -/
theorem negativeIndexRegexp_tailText (hdot : ∀ seg ∈ rest, '.' ∉ seg.toList)
    (h : Unambiguous done rest) :
    negativeIndexRegexp 0 (tailText rest) = rest.filterMap negativeText := by
  induction rest generalizing done with
  | nil => rfl
  | cons seg rest ih =>
    obtain ⟨hother, -, hrest⟩ := h
    obtain ⟨hseg, hdot⟩ := List.forall_mem_cons.1 hdot
    cases hneg : negative? seg with
    | none =>
      rw [negativeIndexRegexp_other hseg (hother hneg), ih hdot hrest, List.filterMap_cons]
      simp [negativeText, hneg]
    | some digits =>
      rw [negativeIndexRegexp_negative hneg, ih hdot hrest, List.filterMap_cons]
      simp [negativeText, hneg]

/-! ### One replacement -/

theorem prefix_of_prefix_append (hneg : '.' ∉ neg) (h : neg <+: s ++ '.' :: t) : neg <+: s := by
  obtain hs | hs := List.prefix_or_prefix_of_prefix h (List.prefix_append s ('.' :: t))
  · exact hs
  · obtain ⟨u, rfl⟩ := hs
    rw [List.prefix_append_right_inj] at h
    cases u with
    | nil => simp
    | cons c u =>
      obtain rfl : c = '.' := (List.cons_prefix_cons.1 h).1
      exact absurd (List.mem_append_right s List.mem_cons_self) hneg

/-- A text that a step does not hold is looked for behind its dot. -/
theorem before_append (hneg : '.' ∉ neg) (hne : neg ≠ []) (hs : ¬neg <:+: s) (t : List Char) :
    before neg (s ++ '.' :: t) = s ++ '.' :: before neg t := by
  induction s with
  | nil =>
    have hno : neg.isPrefixOf ('.' :: t) = false := by
      rw [Bool.eq_false_iff, ne_eq, List.isPrefixOf_iff_prefix]
      exact fun h => hne (List.prefix_nil.1 (prefix_of_prefix_append hneg h))
    rw [List.nil_append, before, hno, if_neg Bool.false_ne_true, List.nil_append]
  | cons c s ih =>
    have hno : neg.isPrefixOf (c :: s ++ '.' :: t) = false := by
      rw [Bool.eq_false_iff, ne_eq, List.isPrefixOf_iff_prefix]
      exact fun h => hs (prefix_of_prefix_append hneg h).isInfix
    have hs' : ¬neg <:+: s := fun h => hs (h.trans (List.suffix_cons c s).isInfix)
    rw [List.cons_append] at hno
    rw [List.cons_append, before, hno, if_neg Bool.false_ne_true, ih hs', List.cons_append]

/-- **What stands before an index** is the text of the steps before it. -/
theorem before_tailText (hneg : '.' ∉ neg) (hne : neg ≠ []) (hs : ¬neg <:+: s)
    (hsteps : ∀ step ∈ steps, ¬neg <:+: step.toList) (t : List Char) :
    before neg (s ++ tailText steps ++ '.' :: (neg ++ t)) = s ++ tailText steps ++ ['.'] := by
  induction steps generalizing s with
  | nil =>
    obtain ⟨c, neg', rfl⟩ := List.exists_cons_of_ne_nil hne
    rw [tailText_nil, List.append_nil, before_append hneg hne hs, List.cons_append, before,
      if_pos (by simp [List.isPrefixOf_iff_prefix])]
  | cons step steps ih =>
    obtain ⟨hstep, hsteps⟩ := List.forall_mem_cons.1 hsteps
    have hrest := ih hstep hsteps
    simp only [List.append_assoc] at hrest
    simp only [tailText_cons, List.append_assoc, List.cons_append]
    rw [before_append hneg hne hs, hrest]

theorem trimDot_append (s : List Char) : trimDot (s ++ ['.']) = s := by
  rw [trimDot, if_pos List.getLast?_concat, List.dropLast_concat]

theorem replaceFirst_append (hs : '.' ∉ s) (t : List Char) :
    replaceFirst ('.' :: neg) new (s ++ t) = s ++ replaceFirst ('.' :: neg) new t := by
  induction s with
  | nil => rfl
  | cons c s ih =>
    rw [List.mem_cons, not_or] at hs
    have hno : ('.' :: neg).isPrefixOf (c :: (s ++ t)) = false := by
      rw [Bool.eq_false_iff, ne_eq, List.isPrefixOf_iff_prefix]
      exact fun h => hs.1 (List.cons_prefix_cons.1 h).1
    rw [List.cons_append, replaceFirst, hno, if_neg Bool.false_ne_true, ih hs.2, List.cons_append]

/-- **What is replaced** is the index itself. -/
theorem replaceFirst_tailText (hneg : '.' ∉ neg) (hs : '.' ∉ s)
    (hsteps : ∀ step ∈ steps, '.' ∉ step.toList ∧ ¬neg <:+: step.toList) (t : List Char) :
    replaceFirst ('.' :: neg) new (s ++ tailText steps ++ '.' :: (neg ++ t)) =
      s ++ tailText steps ++ (new ++ t) := by
  induction steps generalizing s with
  | nil =>
    rw [tailText_nil, List.append_nil, replaceFirst_append hs, replaceFirst,
      if_pos (by simp [List.isPrefixOf_iff_prefix])]
    simp
  | cons step steps ih =>
    obtain ⟨⟨hdot, hstep⟩, hsteps⟩ := List.forall_mem_cons.1 hsteps
    have hrest := ih hdot hsteps
    simp only [List.append_assoc] at hrest
    have hno : ('.' :: neg).isPrefixOf
        ('.' :: (step.toList ++ (tailText steps ++ '.' :: (neg ++ t)))) = false := by
      rw [Bool.eq_false_iff, ne_eq, List.isPrefixOf_iff_prefix, List.cons_prefix_cons]
      rintro ⟨-, h⟩
      refine hstep (List.IsPrefix.isInfix ?_)
      cases steps with
      | nil => exact prefix_of_prefix_append hneg h
      | cons step' steps =>
        rw [tailText_cons, List.cons_append] at h
        exact prefix_of_prefix_append hneg h
    simp only [tailText_cons, List.append_assoc, List.cons_append]
    rw [replaceFirst_append hs, replaceFirst, hno, if_neg Bool.false_ne_true, hrest]

end Text

/-! ### The loop -/

section Loop

variable (json : Doc ν) {first seg : String} {digits : List Char} {done done' rest : List String}

/-- The indices, each in the array that the original steps before it lead to. -/
def resolveOriginal (json : Doc ν) : (done rest : List String) → List String
  | _, [] => []
  | done, seg :: rest => resolveStep json done seg :: resolveOriginal json (done ++ [seg]) rest

theorem Plain.dot (h : Plain seg) : '.' ∉ seg.toList := fun hmem => h.chars _ hmem (by simp)

theorem resolveStep_cases (done : List String) (seg : String) :
    resolveStep json done seg = seg ∨ ∃ n : ℕ, resolveStep json done seg = toString n := by
  unfold resolveStep
  split
  · simp only
    split
    · exact Or.inr ⟨_, rfl⟩
    · exact Or.inl rfl
  · exact Or.inl rfl

theorem resolveStep_dot (hseg : '.' ∉ seg.toList) (done : List String) :
    '.' ∉ (resolveStep json done seg).toList := by
  obtain hstep | ⟨n, hstep⟩ := resolveStep_cases json done seg
  · rwa [hstep]
  · rw [hstep]
    exact fun hmem => absurd (isDigit_of_mem_toString hmem) (by decide)

theorem resolveStep_of_none (h : negative? seg = none) (done : List String) :
    resolveStep json done seg = seg := by
  rw [resolveStep, h]

/-- **One match**: its index is resolved by the original steps before it. -/
theorem replaceIndex_eq (hneg : negative? seg = some digits)
    (hplain : ∀ step ∈ first :: done, Plain step) (hseg : '.' ∉ seg.toList)
    (hno : ∀ step ∈ first :: done, ¬seg.toList <:+: step.toList)
    (hdone' : ∀ step ∈ done', '.' ∉ step.toList ∧ ¬seg.toList <:+: step.toList)
    (t t' : List Char) :
    replaceIndex go json (first.toList ++ tailText done ++ '.' :: (seg.toList ++ t))
        (first.toList ++ tailText done' ++ '.' :: (seg.toList ++ t')) seg.toList =
      first.toList ++ tailText done' ++
        '.' :: ((resolveStep json (first :: done) seg).toList ++ t') := by
  obtain ⟨htext, hne, -⟩ := negative?_eq_some hneg
  have hne' : seg.toList ≠ [] := by rw [htext]; exact List.cons_ne_nil _ _
  obtain ⟨hfirst, hsteps⟩ := List.forall_mem_cons.1 hno
  have hfound : go.get json (String.ofList (trimDot (before seg.toList
      (first.toList ++ tailText done ++ '.' :: (seg.toList ++ t))))) =
      json.getAt (first :: done) := by
    rw [before_tailText hseg hne' hfirst hsteps, trimDot_append, ← toList_joinPath,
      String.ofList_toList]
    exact go.get_join json _ (List.cons_ne_nil _ _) hplain
  have hnumber : indexNumber seg.toList = Nat.ofDigitChars 10 digits 0 := by
    rw [indexNumber, htext]
    rfl
  rw [replaceIndex, hfound, resolveStep, hneg]
  split
  · rename_i items hitems
    simp only [hnumber, hitems]
    generalize Nat.ofDigitChars 10 digits 0 = k
    by_cases hk : 0 < k ∧ k ≤ items.length
    · have hindex : ((items.length : ℤ) - k).toNat = items.length - k := by omega
      rw [if_pos (by omega), if_pos hk, hindex,
        replaceFirst_tailText hseg (hplain _ List.mem_cons_self).dot hdone']
      rfl
    · rw [if_neg (by omega), if_neg hk]
  · rename_i hother
    split
    · rename_i hitems
      exact absurd hitems (hother _)
    · rfl

theorem Unambiguous.not_infix (h : Unambiguous done rest) {step : String} (hstep : step ∈ done)
    (hseg : seg ∈ rest) (hneg : (negative? seg).isSome) : ¬seg.toList <:+: step.toList := by
  induction rest generalizing done with
  | nil => cases hseg
  | cons seg' rest ih =>
    obtain ⟨-, hno, hrest⟩ := h
    obtain rfl | hseg := List.mem_cons.1 hseg
    · exact hno hneg step hstep
    · exact ih hrest (List.mem_append_left _ hstep) hseg

theorem not_infix_toString (hneg : (negative? seg).isSome) (n : ℕ) :
    ¬seg.toList <:+: (toString n).toList := by
  obtain ⟨digits, hneg⟩ := Option.isSome_iff_exists.1 hneg
  intro h
  have hdash : '-' ∈ (toString n).toList :=
    h.mem (by rw [(negative?_eq_some hneg).1]; exact List.mem_cons_self)
  exact absurd (isDigit_of_mem_toString hdash) (by decide)

/-- **The loop resolves every index by the original steps before it.** -/
theorem foldl_replaceIndex (hplain : ∀ step ∈ first :: (done ++ rest), Plain step)
    (h : Unambiguous (first :: done) rest)
    (hdone' : ∀ step ∈ done', '.' ∉ step.toList ∧ ∀ seg ∈ rest, (negative? seg).isSome →
      ¬seg.toList <:+: step.toList) :
    (rest.filterMap negativeText).foldl
        (replaceIndex go json (first.toList ++ tailText (done ++ rest)))
        (first.toList ++ tailText (done' ++ rest)) =
      first.toList ++ tailText (done' ++ resolveOriginal json (first :: done) rest) := by
  induction rest generalizing done done' with
  | nil => rfl
  | cons seg rest ih =>
    obtain ⟨-, hno, hrest⟩ := h
    have hseg : Plain seg := hplain seg (by simp)
    -- what becomes of this step holds none of the indices behind it
    have hresolved : '.' ∉ (resolveStep json (first :: done) seg).toList ∧ ∀ q ∈ rest,
        (negative? q).isSome → ¬q.toList <:+: (resolveStep json (first :: done) seg).toList := by
      refine ⟨resolveStep_dot json hseg.dot _, fun q hq hneg => ?_⟩
      obtain hstep | ⟨n, hstep⟩ := resolveStep_cases json (first :: done) seg
      · rw [hstep]
        exact hrest.not_infix (by simp) hq hneg
      · rw [hstep]
        exact not_infix_toString hneg n
    have hnext := @ih (done ++ [seg]) (done' ++ [resolveStep json (first :: done) seg])
      (by simpa using hplain) hrest (by
        intro p hp
        obtain hp | hp := List.mem_append.1 hp
        · exact ⟨(hdone' p hp).1, fun q hq => (hdone' p hp).2 q (List.mem_cons_of_mem _ hq)⟩
        · rw [List.mem_singleton.1 hp]
          exact hresolved)
    simp only [List.append_assoc, List.singleton_append] at hnext
    rw [resolveOriginal, List.cons_append, ← hnext]
    cases hneg : negative? seg with
    | none =>
      rw [List.filterMap_cons, negativeText, hneg, Option.map_none, resolveStep_of_none json hneg]
    | some digits =>
      have hsome : (negative? seg).isSome := by rw [hneg]; rfl
      rw [List.filterMap_cons, negativeText, hneg, Option.map_some, List.foldl_cons]
      have hstep := @replaceIndex_eq ν go json first seg digits done done' hneg
        (fun step hstep => hplain step (by simp at hstep ⊢; tauto)) hseg.dot (hno hsome)
        (fun step hstep => ⟨(hdone' step hstep).1,
          (hdone' step hstep).2 seg List.mem_cons_self hsome⟩) (tailText rest) (tailText rest)
      simp only [tailText_append, tailText_cons, List.append_assoc] at hstep ⊢
      rw [hstep]

/-- **What `processNegativeIndex` makes of a path.** -/
theorem processNegativeIndex_joinPath (hplain : ∀ step ∈ first :: rest, Plain step)
    (h : Unambiguous [first] rest) :
    processNegativeIndex go json (joinPath (first :: rest)) =
      joinPath (first :: resolveOriginal json [first] rest) := by
  have hdot : ∀ step ∈ rest, '.' ∉ step.toList := fun step hstep =>
    (hplain step (List.mem_cons_of_mem _ hstep)).dot
  have hloop := @foldl_replaceIndex ν go json first [] [] rest hplain h (by simp)
  rw [List.nil_append, List.nil_append] at hloop
  rw [processNegativeIndex, toList_joinPath,
    negativeIndexRegexp_append (hplain _ List.mem_cons_self).dot,
    negativeIndexRegexp_tailText hdot h, hloop, ← toList_joinPath, String.ofList_toList]

/-! ### One index -/

theorem index?_of_negative (h : negative? seg = some digits) : index? seg = none := by
  rw [index?, (negative?_eq_some h).1, if_neg]
  simp

/-- **Behind an index that is resolved** the original steps lead nowhere. -/
theorem resolveStep_behind (h : resolveStep json done seg ≠ seg) (steps : List String)
    (step : String) : resolveStep json (done ++ seg :: steps) step = step := by
  have hnone : json.getAt (done ++ seg :: steps) = none := by
    rw [Doc.getAt_append]
    cases hneg : negative? seg with
    | none => exact absurd (resolveStep_of_none json hneg done) h
    | some digits =>
      cases hat : json.getAt done with
      | none => rfl
      | some c =>
        cases c with
        | arr items => simp [Doc.getAt, Doc.child, index?_of_negative hneg]
        | null => simp [resolveStep, hneg, hat] at h
        | bool b => simp [resolveStep, hneg, hat] at h
        | num n => simp [resolveStep, hneg, hat] at h
        | str s => simp [resolveStep, hneg, hat] at h
        | obj members => simp [resolveStep, hneg, hat] at h
  rw [resolveStep, hnone]
  split <;> simp_all

theorem resolveOriginal_behind (h : resolveStep json done seg ≠ seg) (steps : List String) :
    resolveOriginal json (done ++ seg :: steps) rest = rest := by
  induction rest generalizing steps with
  | nil => rfl
  | cons step rest ih =>
    rw [resolveOriginal, resolveStep_behind json h, List.append_assoc, List.cons_append, ih]

theorem resolve_eq_self_iff : resolve json done rest = rest ↔ resolvedCount json done rest = 0 := by
  induction rest generalizing done with
  | nil => simp [resolve, resolvedCount]
  | cons seg rest ih =>
    rw [resolve, resolvedCount, List.cons.injEq, ih]
    split <;> simp_all

/-- **The two ways to resolve agree** if there is at most one index to resolve. -/
theorem resolveOriginal_eq_iff :
    resolveOriginal json done rest = resolve json done rest ↔ resolvedCount json done rest ≤ 1 := by
  induction rest generalizing done with
  | nil => simp [resolveOriginal, resolve, resolvedCount]
  | cons seg rest ih =>
    rw [resolveOriginal, resolve, resolvedCount, List.cons.injEq]
    by_cases hstep : resolveStep json done seg = seg
    · rw [hstep, if_pos rfl, ih]
      simp
    · rw [if_neg hstep, resolveOriginal_behind json hstep, eq_comm (a := rest),
        resolve_eq_self_iff]
      simp only [true_and]
      omega

theorem resolve_dot (hrest : ∀ step ∈ rest, '.' ∉ step.toList) :
    ∀ step ∈ resolve json done rest, '.' ∉ step.toList := by
  induction rest generalizing done with
  | nil => simp [resolve]
  | cons seg rest ih =>
    obtain ⟨hseg, hrest⟩ := List.forall_mem_cons.1 hrest
    rw [resolve, List.forall_mem_cons]
    exact ⟨resolveStep_dot json hseg done, ih hrest⟩

theorem resolveOriginal_dot (hrest : ∀ step ∈ rest, '.' ∉ step.toList) :
    ∀ step ∈ resolveOriginal json done rest, '.' ∉ step.toList := by
  induction rest generalizing done with
  | nil => simp [resolveOriginal]
  | cons seg rest ih =>
    obtain ⟨hseg, hrest⟩ := List.forall_mem_cons.1 hrest
    rw [resolveOriginal, List.forall_mem_cons]
    exact ⟨resolveStep_dot json hseg done, ih hrest⟩

theorem takeWhile_tailText {s : List Char} (hs : '.' ∉ s) (steps : List String) :
    (s ++ tailText steps).takeWhile (fun c => c ≠ '.') = s := by
  rw [List.takeWhile_append_of_pos fun c hc => by simpa using ne_of_mem_of_not_mem hc hs]
  cases steps with
  | nil => simp
  | cons seg steps => simp

/-- Steps without a dot are told apart in the text of a path. -/
theorem append_tailText_inj {s t : List Char} (hs : '.' ∉ s) (ht : '.' ∉ t)
    {steps steps' : List String} (hsteps : ∀ step ∈ steps, '.' ∉ step.toList)
    (hsteps' : ∀ step ∈ steps', '.' ∉ step.toList)
    (h : s ++ tailText steps = t ++ tailText steps') : s = t ∧ steps = steps' := by
  obtain rfl : s = t := by rw [← takeWhile_tailText hs steps, h, takeWhile_tailText ht]
  refine ⟨rfl, ?_⟩
  replace h := List.append_cancel_left h
  clear hs ht
  induction steps generalizing steps' with
  | nil =>
    cases steps' with
    | nil => rfl
    | cons seg' steps' => cases h
  | cons seg steps ih =>
    cases steps' with
    | nil => cases h
    | cons seg' steps' =>
      obtain ⟨hseg, hsteps⟩ := List.forall_mem_cons.1 hsteps
      obtain ⟨hseg', hsteps'⟩ := List.forall_mem_cons.1 hsteps'
      rw [tailText_cons, tailText_cons, List.cons.injEq] at h
      replace h := h.2
      have htext : seg.toList = seg'.toList := by
        rw [← takeWhile_tailText hseg steps, h, takeWhile_tailText hseg']
      rw [htext] at h
      rw [String.toList_inj.1 htext, ih hsteps hsteps' (List.append_cancel_left h)]

theorem joinPath_inj {seg seg' : String} {steps steps' : List String}
    (hsteps : ∀ step ∈ seg :: steps, '.' ∉ step.toList)
    (hsteps' : ∀ step ∈ seg' :: steps', '.' ∉ step.toList) :
    joinPath (seg :: steps) = joinPath (seg' :: steps') ↔ seg :: steps = seg' :: steps' := by
  refine ⟨fun h => ?_, fun h => by rw [h]⟩
  obtain ⟨hseg, hsteps⟩ := List.forall_mem_cons.1 hsteps
  obtain ⟨hseg', hsteps'⟩ := List.forall_mem_cons.1 hsteps'
  have htext := congrArg String.toList h
  rw [toList_joinPath, toList_joinPath] at htext
  obtain ⟨hfirst, hrest⟩ := append_tailText_inj hseg hseg' hsteps hsteps' htext
  rw [String.toList_inj.1 hfirst, hrest]

/-- **When the indices are resolved**: at most one of them counts from the end of an array, and
the first step does not. -/
theorem processNegativeIndex_eq_iff (hplain : ∀ step ∈ first :: rest, Plain step)
    (h : Unambiguous [first] rest) :
    processNegativeIndex go json (joinPath (first :: rest)) =
        joinPath (resolve json [] (first :: rest)) ↔
      resolveStep json [] first = first ∧ resolvedCount json [first] rest ≤ 1 := by
  have hdot : ∀ step ∈ first :: rest, '.' ∉ step.toList := fun step hstep => (hplain step hstep).dot
  obtain ⟨hfirst, hrest⟩ := List.forall_mem_cons.1 hdot
  rw [processNegativeIndex_joinPath go json hplain h, resolve,
    joinPath_inj (List.forall_mem_cons.2 ⟨hfirst, resolveOriginal_dot json hrest⟩)
      (List.forall_mem_cons.2 ⟨resolveStep_dot json hfirst [], resolve_dot json hrest⟩),
    List.cons.injEq, eq_comm (a := first)]
  refine and_congr_right fun hstep => ?_
  rw [hstep]
  exact resolveOriginal_eq_iff json

end Loop

/-! ### Two paths -/

theorem split_joinPath {segs : List String} (hne : segs ≠ []) (hplain : ∀ seg ∈ segs, Plain seg) :
    split '.' (joinPath segs) = segs :=
  split_intercalate hne fun seg hseg => (hplain seg hseg).dot

/-- Libraries that know plain steps only. -/
def splitLibs : JsonLibs ν where
  get := fun j path => j.getAt (split '.' path)
  get_join := fun j segs hne hplain => by rw [split_joinPath hne hplain]

/-- Lists of a list, the second of which has more elements. -/
def nestedLists : Doc ℕ := .obj [("a", .arr [.arr [.num 1], .arr [.num 2, .num 3, .num 4]])]

/-- The last element of the list that is before the last one. -/
theorem processNegativeIndex_one :
    processNegativeIndex splitLibs nestedLists (joinPath ["a", "0", "-1"]) =
      joinPath (resolve nestedLists [] ["a", "0", "-1"]) :=
  (processNegativeIndex_eq_iff splitLibs nestedLists (by decide) (by
    refine ⟨fun _ d h => ?_, by decide, fun h => absurd h (by decide), by decide, trivial⟩
    exact absurd (List.cons_prefix_cons.1 h).1 (by decide))).2 ⟨by decide, by decide⟩

/-- **A second index is resolved in the wrong array.** -/
theorem not_processNegativeIndex_two : ¬∀ (go : JsonLibs ℕ) (json : Doc ℕ) (segs : List String),
    segs ≠ [] → (∀ seg ∈ segs, Plain seg) →
      processNegativeIndex go json (joinPath segs) = joinPath (resolve json [] segs) := by
  intro h
  have hpath := h splitLibs nestedLists ["a", "-1", "-1"] (by decide) (by decide)
  exact absurd hpath (by decide)

end NewApiPool.Relay
