import NewApiPool.Lib.GoText
import NewApiPool.Lib.Intervals

/-!
# The rules for status codes

A rule is a list of codes and of ranges of codes with commas between them, where the full-width
comma is one as well. `ParseHTTPStatusCodeRanges` sorts the ranges and merges those that overlap or
touch, and a code is looked up from the left, up to the first range that begins behind it. So a
rule means the codes of its tokens, in whatever order they stand, and it is the same again when it
is printed and parsed (`NewApiPool.StatusCodes.parse_spec`).
-/

namespace NewApiPool.StatusCodes

open GoText Intervals

abbrev StatusCodeRange : Type := Interval

/-- `strconv.Itoa`, or the format `%d`. -/
def itoa (n : ℤ) : String := toString n

def rangeToString (r : StatusCodeRange) : String :=
  if r.start = r.stop then itoa r.start else "-".intercalate [itoa r.start, itoa r.stop]

def statusCodeRangesToString (ranges : List StatusCodeRange) : String :=
  ",".intercalate (ranges.map rangeToString)

def shouldMatchStatusCodeRanges (ranges : List StatusCodeRange) (code : ℤ) : Bool :=
  if code < 100 ∨ 599 < code then false else find code ranges

/-- `strings.ReplaceAll(token, " ", "")`. -/
def removeBlanks (token : String) : String := String.ofList (token.toList.filter (· ≠ ' '))

def parseHTTPStatusCodeToken (token : String) : Except String StatusCodeRange :=
  let token := removeBlanks (trimSpace token)
  if token = "" then .error "empty token"
  else if contains token "-" then
    match split '-' token with
    | [first, second] =>
      if first = "" ∨ second = "" then .error ("invalid range token: " ++ token)
      else match atoi first with
        | none => .error ("invalid range start: " ++ token)
        | some start => match atoi second with
          | none => .error ("invalid range end: " ++ token)
          | some stop =>
            if stop < start then .error ("range start > end: " ++ token)
            else if start < 100 ∨ 599 < stop then .error ("range out of bounds: " ++ token)
            else .ok ⟨start, stop⟩
    | _ => .error ("invalid range token: " ++ token)
  else match atoi token with
    | none => .error ("invalid status code: " ++ token)
    | some code =>
      if code < 100 ∨ 599 < code then .error ("status code out of bounds: " ++ token)
      else .ok ⟨code, code⟩

/-- The replacer of the full-width comma. -/
def replaceComma (input : String) : String :=
  String.ofList (input.toList.map fun c => if c = '，' then ',' else c)

/-- The tokens of a rule, as they stand between the commas. -/
def segments (input : String) : List String := split ',' (replaceComma (trimSpace input))

/-- What is parsed of the tokens: none of them is empty, or else it is left out. -/
def tokens (segments : List String) : List String := (segments.map trimSpace).filter (· ≠ "")

/-- The token is not a rule. -/
def invalid (token : String) : Bool := !(parseHTTPStatusCodeToken token).isOk

def parseSegments (segments : List String) : Except String (List StatusCodeRange) :=
  if (tokens segments).filter invalid ≠ [] then
    .error ("invalid http status code rules: " ++
      ", ".intercalate ((tokens segments).filter invalid))
  else .ok (merge (((tokens segments).filterMap fun token =>
    (parseHTTPStatusCodeToken token).toOption).insertionSort Le))

def parseHTTPStatusCodeRanges (input : String) : Except String (List StatusCodeRange) :=
  if trimSpace input = "" then .ok [] else parseSegments (segments input)

variable {input token : String} {segs segs' : List String} {r : StatusCodeRange}
  {ranges : List StatusCodeRange} {code : ℤ}

/-! ### Tokens -/

theorem bounds_of_parse (h : parseHTTPStatusCodeToken token = .ok r) :
    100 ≤ r.start ∧ r.start ≤ r.stop ∧ r.stop ≤ 599 := by
  unfold parseHTTPStatusCodeToken at h
  generalize removeBlanks (trimSpace token) = t at h
  dsimp only at h
  by_cases hempty : t = ""
  · rw [if_pos hempty] at h
    cases h
  rw [if_neg hempty] at h
  by_cases hrange : contains t "-" = true
  · rw [if_pos hrange] at h
    split at h
    · split at h
      · cases h
      split at h
      · cases h
      split at h
      · cases h
      split_ifs at h with horder hbounds
      cases h
      dsimp only
      omega
    · cases h
  · rw [if_neg hrange] at h
    split at h
    · cases h
    split_ifs at h with hbounds
    cases h
    dsimp only
    omega

theorem isDigit_of_mem_itoa {n : ℤ} {c : Char} (hn : 0 ≤ n) (hc : c ∈ (itoa n).toList) :
    c.isDigit = true := by
  obtain ⟨m, rfl⟩ := Int.eq_ofNat_of_zero_le hn
  exact isDigit_of_mem_repr hc

theorem itoa_ne_empty {n : ℤ} (hn : 0 ≤ n) : itoa n ≠ "" := by
  obtain ⟨m, rfl⟩ := Int.eq_ofNat_of_zero_le hn
  exact repr_ne_empty m

theorem atoi_itoa {n : ℤ} (hn : 0 ≤ n) (hle : n ≤ 599) : atoi (itoa n) = some n := by
  obtain ⟨m, rfl⟩ := Int.eq_ofNat_of_zero_le hn
  exact atoi_repr (by omega)

theorem isDigit_or_of_mem_rangeToString {c : Char} (hr : 100 ≤ r.start ∧ r.start ≤ r.stop)
    (hc : c ∈ (rangeToString r).toList) : c.isDigit = true ∨ c = '-' := by
  have hstart (hc : c ∈ (itoa r.start).toList) : c.isDigit = true :=
    isDigit_of_mem_itoa (by omega) hc
  rw [rangeToString] at hc
  split at hc
  · exact Or.inl (hstart hc)
  · simp only [String.toList_intercalate, List.map_cons, List.map_nil, List.intercalate_cons_cons,
      List.intercalate_singleton, List.mem_append] at hc
    rcases hc with (hc | hc) | hc
    · exact Or.inl (hstart hc)
    · exact Or.inr (List.mem_singleton.1 hc)
    · exact Or.inl (isDigit_of_mem_itoa (by omega) hc)

/-- None of the characters of a printed range means anything but itself. -/
theorem plain_of_digit {c : Char} (h : c.isDigit = true ∨ c = '-') :
    isSpace c = false ∧ c ≠ ' ' ∧ c ≠ ',' ∧ c ≠ '，' := by
  rcases h with h | rfl
  · have hne (d : Char) (hd : d.isDigit = false) : c ≠ d := by
      rintro rfl
      exact Bool.false_ne_true (hd.symm.trans h)
    exact ⟨isSpace_of_isDigit h, hne ' ' (by decide), hne ',' (by decide), hne '，' (by decide)⟩
  · decide

/-- **A printed range is read back.** -/
theorem parse_rangeToString (hr : 100 ≤ r.start ∧ r.start ≤ r.stop ∧ r.stop ≤ 599) :
    parseHTTPStatusCodeToken (rangeToString r) = .ok r := by
  have hchars (c : Char) (hc : c ∈ (rangeToString r).toList) := plain_of_digit
    (isDigit_or_of_mem_rangeToString ⟨hr.1, hr.2.1⟩ hc)
  have htoken : removeBlanks (trimSpace (rangeToString r)) = rangeToString r := by
    rw [trimSpace_of_forall fun c hc => (hchars c hc).1, removeBlanks,
      List.filter_eq_self.2 fun c hc => decide_eq_true (hchars c hc).2.1, String.ofList_toList]
  have hstart := atoi_itoa (n := r.start) (by omega) (by omega)
  have hstop := atoi_itoa (n := r.stop) (by omega) (by omega)
  have hnodash (n : ℤ) (hn : 0 ≤ n) : '-' ∉ (itoa n).toList := fun hc =>
    absurd (isDigit_of_mem_itoa hn hc) (by decide)
  unfold parseHTTPStatusCodeToken
  rw [htoken]
  dsimp only
  by_cases heq : r.start = r.stop
  · have htext : rangeToString r = itoa r.start := if_pos heq
    have hsingle : contains (itoa r.start) "-" = false := by
      rw [contains, decide_eq_false_iff_not]
      exact fun hin => hnodash _ (by omega) (hin.subset (List.mem_singleton_self _))
    rw [htext, if_neg (itoa_ne_empty (by omega)), hsingle, if_neg Bool.false_ne_true, hstart]
    dsimp only
    rw [if_neg (by omega)]
    exact congrArg Except.ok (by rw [Interval.mk.injEq]; exact ⟨rfl, heq⟩)
  · have htext : rangeToString r = "-".intercalate [itoa r.start, itoa r.stop] := if_neg heq
    have hsplit : split '-' ("-".intercalate [itoa r.start, itoa r.stop]) =
        [itoa r.start, itoa r.stop] := by
      refine split_intercalate (List.cons_ne_nil _ _) fun piece hpiece => ?_
      rcases List.mem_pair.1 hpiece with rfl | rfl
      · exact hnodash _ (by omega)
      · exact hnodash _ (by omega)
    have hrange : contains ("-".intercalate [itoa r.start, itoa r.stop]) "-" = true := by
      rw [contains, decide_eq_true_eq, String.toList_intercalate]
      exact ⟨(itoa r.start).toList, (itoa r.stop).toList, by simp [List.intercalate_cons_cons]⟩
    have hne : ("-".intercalate [itoa r.start, itoa r.stop]) ≠ "" := by
      intro h
      rw [h] at hrange
      exact absurd hrange (by decide)
    rw [htext, if_neg hne, if_pos hrange, hsplit]
    dsimp only
    rw [if_neg (not_or.2 ⟨itoa_ne_empty (by omega), itoa_ne_empty (by omega)⟩), hstart, hstop]
    dsimp only
    rw [if_neg (by omega), if_neg (by omega)]

/-! ### Rules -/

/-- The codes of a token. -/
def TokenCovers (segment : String) (code : ℤ) : Prop :=
  ∃ r, parseHTTPStatusCodeToken (trimSpace segment) = .ok r ∧ r.Covers code

/-- The ranges of the tokens. -/
def parsed (segs : List String) : List StatusCodeRange :=
  (tokens segs).filterMap fun token => (parseHTTPStatusCodeToken token).toOption

theorem mem_parsed : r ∈ parsed segs ↔
    ∃ segment ∈ segs, parseHTTPStatusCodeToken (trimSpace segment) = .ok r := by
  rw [parsed, List.mem_filterMap]
  constructor
  · rintro ⟨token, htoken, hr⟩
    obtain ⟨segment, hmem, rfl⟩ := List.mem_map.1 (List.mem_filter.1 htoken).1
    cases hparse : parseHTTPStatusCodeToken (trimSpace segment) with
    | error e =>
      rw [hparse] at hr
      cases hr
    | ok r' =>
      rw [hparse] at hr
      exact ⟨segment, hmem, hparse.trans (congrArg Except.ok (Option.some.inj hr))⟩
  · rintro ⟨segment, hmem, hr⟩
    refine ⟨trimSpace segment, List.mem_filter.2 ⟨List.mem_map_of_mem hmem, ?_⟩, ?_⟩
    · refine decide_eq_true fun hempty => ?_
      rw [hempty] at hr
      cases hr
    · rw [hr]
      rfl

theorem parse_eq_parseSegments (input : String) :
    parseHTTPStatusCodeRanges input = parseSegments (segments input) := by
  rw [parseHTTPStatusCodeRanges]
  split
  · rename_i hempty
    rw [segments, hempty]
    rfl
  · rfl

theorem parseSegments_of_valid (hvalid : (tokens segs).filter invalid = []) :
    parseSegments segs = .ok (merge ((parsed segs).insertionSort Le)) :=
  if_neg (not_not.2 hvalid)

/-- What is accepted is the merged ranges of the tokens. -/
theorem parseSegments_eq_ok (h : parseSegments segs = .ok ranges) :
    (tokens segs).filter invalid = [] ∧ ranges = merge ((parsed segs).insertionSort Le) := by
  rw [parseSegments] at h
  split at h
  · cases h
  · rename_i hvalid
    exact ⟨not_not.1 hvalid, (Except.ok.inj h).symm⟩

theorem bounds_of_mem (h : parseSegments segs = .ok ranges) :
    ∀ r ∈ ranges, 100 ≤ r.start ∧ r.start ≤ r.stop ∧ r.stop ≤ 599 := by
  obtain ⟨-, rfl⟩ := parseSegments_eq_ok h
  refine forall_merge (fun r s hr hs => ?_) fun r hr => ?_
  · rw [Interval.start_grow, Interval.stop_grow]
    omega
  · obtain ⟨segment, -, hparse⟩ := mem_parsed.1 ((List.perm_insertionSort Le _).mem_iff.1 hr)
    exact bounds_of_parse hparse

theorem parseSegments_of_perm (hperm : segs'.Perm segs) (h : parseSegments segs = .ok ranges) :
    parseSegments segs' = .ok ranges := by
  obtain ⟨hvalid, rfl⟩ := parseSegments_eq_ok h
  have htokens : (tokens segs').Perm (tokens segs) := (hperm.map _).filter _
  have hvalid' : (tokens segs').filter invalid = [] := by
    rw [← List.perm_nil, ← hvalid]
    exact htokens.filter _
  have hparsed : (parsed segs').Perm (parsed segs) := htokens.filterMap _
  rw [parseSegments_of_valid hvalid', sort_eq_of_perm hparsed]

/-- **A rule means the codes of its tokens.** -/
theorem shouldMatch_iff (h : parseSegments segs = .ok ranges) :
    shouldMatchStatusCodeRanges ranges code = true ↔
      ∃ segment ∈ segs, TokenCovers segment code := by
  obtain ⟨-, rfl⟩ := parseSegments_eq_ok h
  have hsorted := pairwise_start_sort (parsed segs)
  have hbounds := bounds_of_mem h
  have hcover : Covers (merge ((parsed segs).insertionSort Le)) code ↔
      ∃ segment ∈ segs, TokenCovers segment code := by
    rw [covers_merge_iff hsorted, covers_of_perm (List.perm_insertionSort Le _)]
    constructor
    · rintro ⟨r, hr, hcode⟩
      obtain ⟨segment, hmem, hparse⟩ := mem_parsed.1 hr
      exact ⟨segment, hmem, r, hparse, hcode⟩
    · rintro ⟨segment, hmem, r, hparse, hcode⟩
      exact ⟨r, mem_parsed.2 ⟨segment, hmem, hparse⟩, hcode⟩
  rw [shouldMatchStatusCodeRanges, ← hcover]
  split
  · rename_i houtside
    refine iff_of_false Bool.false_ne_true ?_
    rintro ⟨r, hr, hcode⟩
    have hr := hbounds r hr
    unfold Interval.Covers at hcode
    omega
  · exact find_iff (separated_merge hsorted) fun r hr => (hbounds r hr).2.1

/-! ### Printed rules -/

theorem mem_intercalate {sep : List Char} {c : Char} : ∀ {l : List (List Char)},
    c ∈ sep.intercalate l → c ∈ sep ∨ ∃ piece ∈ l, c ∈ piece
  | [], h => absurd h List.not_mem_nil
  | [piece], h => Or.inr ⟨piece, List.mem_singleton_self piece, by simpa using h⟩
  | piece :: next :: l, h => by
    rw [List.intercalate_cons_cons, List.mem_append, List.mem_append] at h
    rcases h with (h | h) | h
    · exact Or.inr ⟨piece, List.mem_cons_self, h⟩
    · exact Or.inl h
    · rcases mem_intercalate h with h | ⟨p, hp, h⟩
      · exact Or.inl h
      · exact Or.inr ⟨p, List.mem_cons_of_mem piece hp, h⟩

theorem segments_statusCodeRangesToString (hne : ranges ≠ [])
    (hbounds : ∀ r ∈ ranges, 100 ≤ r.start ∧ r.start ≤ r.stop ∧ r.stop ≤ 599) :
    segments (statusCodeRangesToString ranges) = ranges.map rangeToString := by
  have hpiece : ∀ piece ∈ ranges.map rangeToString, ∀ c ∈ piece.toList,
      isSpace c = false ∧ c ≠ ' ' ∧ c ≠ ',' ∧ c ≠ '，' := by
    intro piece hpiece c hc
    obtain ⟨r, hr, rfl⟩ := List.mem_map.1 hpiece
    exact plain_of_digit (isDigit_or_of_mem_rangeToString
      ⟨(hbounds r hr).1, (hbounds r hr).2.1⟩ hc)
  have htext : ∀ c ∈ (statusCodeRangesToString ranges).toList,
      isSpace c = false ∧ c ≠ '，' := by
    intro c hc
    rw [statusCodeRangesToString, String.toList_intercalate] at hc
    rcases mem_intercalate hc with hc | ⟨l, hl, hc⟩
    · obtain rfl : c = ',' := List.mem_singleton.1 hc
      decide
    · obtain ⟨piece, hmem, rfl⟩ := List.mem_map.1 hl
      exact ⟨(hpiece piece hmem c hc).1, (hpiece piece hmem c hc).2.2.2⟩
  have hcomma : replaceComma (statusCodeRangesToString ranges) =
      statusCodeRangesToString ranges := by
    rw [replaceComma, List.map_congr_left fun c hc => if_neg (htext c hc).2, List.map_id',
      String.ofList_toList]
  rw [segments, trimSpace_of_forall fun c hc => (htext c hc).1, hcomma]
  exact split_intercalate (fun h => hne (List.map_eq_nil_iff.1 h)) fun piece hmem hc =>
    (hpiece piece hmem _ hc).2.2.1 rfl

theorem parseSegments_rangeToString (hsep : Separated ranges)
    (hbounds : ∀ r ∈ ranges, 100 ≤ r.start ∧ r.start ≤ r.stop ∧ r.stop ≤ 599) :
    parseSegments (ranges.map rangeToString) = .ok ranges := by
  have htrim : ∀ r ∈ ranges, trimSpace (rangeToString r) = rangeToString r := fun r hr =>
    trimSpace_of_forall fun c hc => (plain_of_digit (isDigit_or_of_mem_rangeToString
      ⟨(hbounds r hr).1, (hbounds r hr).2.1⟩ hc)).1
  have hparse : ∀ r ∈ ranges, parseHTTPStatusCodeToken (rangeToString r) = .ok r := fun r hr =>
    parse_rangeToString (hbounds r hr)
  have htokens : tokens (ranges.map rangeToString) = ranges.map rangeToString := by
    have hmap : (ranges.map rangeToString).map trimSpace = ranges.map rangeToString := by
      rw [List.map_map]
      exact List.map_congr_left htrim
    rw [tokens, hmap, List.filter_eq_self]
    intro token htoken
    obtain ⟨r, hr, rfl⟩ := List.mem_map.1 htoken
    refine decide_eq_true fun hempty => ?_
    have hr := hparse r hr
    rw [hempty] at hr
    cases hr
  have hvalid : (tokens (ranges.map rangeToString)).filter invalid = [] := by
    rw [htokens, List.filter_eq_nil_iff]
    intro token htoken
    obtain ⟨r, hr, rfl⟩ := List.mem_map.1 htoken
    rw [invalid, hparse r hr]
    exact Bool.false_ne_true
  have hranges : parsed (ranges.map rangeToString) = ranges := by
    have hsome : ∀ r ∈ ranges,
        ((fun token => (parseHTTPStatusCodeToken token).toOption) ∘ rangeToString) r = some r := by
      intro r hr
      rw [Function.comp_apply, hparse r hr]
      rfl
    rw [parsed, htokens, List.filterMap_map, List.filterMap_congr hsome, List.filterMap_some]
  have hle : ∀ r ∈ ranges, r.start ≤ r.stop := fun r hr => (hbounds r hr).2.1
  rw [parseSegments_of_valid hvalid, hranges, sort_of_separated hsep hle, merge_of_separated hsep]

/-- **A rule means the union of its tokens**: what was accepted is sorted with gaps, of status
codes, and a code is found exactly if a token has it; the order of the tokens makes no difference,
and the rule that is printed is read as the same one. -/
theorem parse_spec {input : String} {ranges : List StatusCodeRange}
    (h : parseHTTPStatusCodeRanges input = .ok ranges) :
    Separated ranges ∧
    (∀ r ∈ ranges, 100 ≤ r.start ∧ r.start ≤ r.stop ∧ r.stop ≤ 599) ∧
    (∀ code, shouldMatchStatusCodeRanges ranges code = true ↔
      ∃ segment ∈ segments input, TokenCovers segment code) ∧
    (∀ input', (segments input').Perm (segments input) →
      parseHTTPStatusCodeRanges input' = .ok ranges) ∧
    parseHTTPStatusCodeRanges (statusCodeRangesToString ranges) = .ok ranges := by
  rw [parse_eq_parseSegments] at h
  have hbounds := bounds_of_mem h
  have hsep : Separated ranges :=
    (parseSegments_eq_ok h).2 ▸ separated_merge (pairwise_start_sort _)
  refine ⟨hsep, hbounds, fun code => shouldMatch_iff h, fun input' hperm => ?_, ?_⟩
  · rw [parse_eq_parseSegments]
    exact parseSegments_of_perm hperm h
  · by_cases hne : ranges = []
    · subst hne
      rfl
    · rw [parse_eq_parseSegments, segments_statusCodeRangesToString hne hbounds]
      exact parseSegments_rangeToString hsep hbounds

theorem parse_spec_five : Separated [(⟨500, 504⟩ : StatusCodeRange)] ∧
    ∀ code, shouldMatchStatusCodeRanges [⟨500, 504⟩] code = true ↔
      ∃ segment ∈ segments "504, 500-503", TokenCovers segment code :=
  have h : parseHTTPStatusCodeRanges "504, 500-503" = .ok [⟨500, 504⟩] := by decide +kernel
  ⟨(parse_spec h).1, (parse_spec h).2.2.1⟩

end NewApiPool.StatusCodes
