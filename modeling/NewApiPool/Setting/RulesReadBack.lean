import NewApiPool.Setting.RequestRules

/-!
# Request rules that come back

What `buildRequestConditionExpr` writes for a condition whose texts stand there as they are
(`NewApiPool.RequestRules.Printed`) begins and ends with a character that belongs to no separator
(`NewApiPool.RequestRules.Printed.firm`), and is read back by one of the regular expressions
(`NewApiPool.RequestRules.Printed.parse`). So are the factors of the groups, and their product.
-/

namespace NewApiPool.RequestRules

open JsText

/-! ### Parts that were written -/

section Parts

variable {w s t v : Text} {c : Char}

@[simp] theorem lit_append (w s : Text) : lit w (w ++ s) = some s := by
  induction w with
  | nil => rfl
  | cons c w ih => rw [List.cons_append, lit, if_pos rfl, ih]

variable {p : Char → Bool}

theorem span_append (ht : ∀ c ∈ t, p c = true) (hs : ∀ c ∈ s.head?, p c = false) :
    (t ++ s).takeWhile p = t ∧ (t ++ s).dropWhile p = s := by
  have hrest : s.takeWhile p = [] ∧ s.dropWhile p = s := by
    cases s with
    | nil => exact ⟨rfl, rfl⟩
    | cons c s => simp [hs c rfl]
  rw [List.takeWhile_append_of_pos ht, List.dropWhile_append_of_pos ht, hrest.1, hrest.2,
    List.append_nil]
  exact ⟨rfl, rfl⟩

theorem run_append (hne : t ≠ []) (ht : ∀ c ∈ t, p c = true)
    (hs : ∀ c ∈ s.head?, p c = false) : run p (t ++ s) = some (t, s) := by
  obtain ⟨htake, hdrop⟩ := span_append ht hs
  rw [run, htake, hdrop, if_neg (by simpa using hne)]

/-- The argument of a call, as it stands in a text. -/
def argText (t rest : Text) : Text := '(' :: '"' :: (t ++ '"' :: ')' :: rest)

theorem call_append (name t s : Text) : call name t ++ s = name ++ argText (escape t) s := by
  simp [call, stringify, argText]

theorem argText_append (t s r : Text) : argText t s ++ r = argText t (s ++ r) := by
  simp [argText]

theorem argument_argText (hne : t ≠ []) (hquote : '"' ∉ t) (s : Text) :
    argument (argText t s) = some (t, s) := by
  have hopen (s : Text) : lit "(\"".toList ('(' :: '"' :: s) = some s := rfl
  have hclose : lit "\")".toList ('"' :: ')' :: s) = some s := rfl
  have hrun : run (· != '"') (t ++ '"' :: ')' :: s) = some (t, '"' :: ')' :: s) := by
    refine run_append hne (fun c hc => ?_) (by simp)
    rw [bne_iff_ne]
    rintro rfl
    exact hquote hc
  rw [argText, argument, hopen]
  simp only [Option.bind_eq_bind, Option.bind_some]
  rw [hrun]
  simp only [Option.bind_some, hclose, Option.pure_def]

@[simp] theorem timeFunc_name (f : TimeFunc) (s : Text) : timeFunc (f.name ++ s) = some (f, s) := by
  cases f <;> rfl

theorem literal_stringify (v s : Text) : literal (stringify v ++ s) = some (escape v, s) := by
  have hopen (s : Text) : lit "\"".toList ('"' :: s) = some s := rfl
  rw [stringify, List.cons_append, List.append_assoc, List.singleton_append, literal, hopen]
  exact body_escape v s

/-! ### Numbers and literals -/

theorem mem_of_dropWhile {q : Char → Bool} (hpq : ∀ c, p c = true → q c = true)
    (h : ∀ c ∈ s.dropWhile p, q c = true) : ∀ c ∈ s, q c = true := by
  intro c hc
  rw [← List.takeWhile_append_dropWhile (p := p) (l := s)] at hc
  rcases List.mem_append.mp hc with htake | hdrop
  · exact hpq c (List.mem_takeWhile_imp htake)
  · exact h c hdrop

theorem mem_of_dropOptional {q : Char → Bool} (hpq : ∀ c, p c = true → q c = true)
    (h : ∀ c ∈ dropOptional p s, q c = true) : ∀ c ∈ s, q c = true := by
  cases s with
  | nil => exact h
  | cons c s =>
    rw [dropOptional] at h
    split at h
    · rename_i hc
      exact List.forall_mem_cons.mpr ⟨hpq c hc, h⟩
    · exact h

theorem isNumberChar_of_isDigit (c : Char) (h : c.isDigit = true) : isNumberChar c = true := by
  simp [isNumberChar, h]

theorem isNumberChar_of_isExponent (h : isExponent s = true) :
    ∀ c ∈ s, isNumberChar c = true := by
  cases s with
  | nil => exact List.forall_mem_nil _
  | cons c s =>
    simp only [isExponent, Bool.and_eq_true, Bool.or_eq_true, beq_iff_eq, List.all_eq_true] at h
    obtain ⟨hletter, -, hdigits⟩ := h
    have hsign : ∀ c : Char, (c == '+' || c == '-') = true → isNumberChar c = true := by
      intro c hc
      simp only [Bool.or_eq_true, beq_iff_eq] at hc
      rcases hc with rfl | rfl <;> rfl
    refine List.forall_mem_cons.mpr ⟨?_, mem_of_dropOptional hsign fun c hc =>
      isNumberChar_of_isDigit c (hdigits c hc)⟩
    rcases hletter with rfl | rfl <;> rfl

theorem isNumberChar_of_isUnsigned (h : isUnsigned s = true) :
    ∀ c ∈ s, isNumberChar c = true := by
  unfold isUnsigned at h
  split at h
  · split at h
    · rename_i s
      rw [Bool.and_eq_true] at h
      exact List.forall_mem_cons.mpr
        ⟨rfl, mem_of_dropWhile isNumberChar_of_isDigit (isNumberChar_of_isExponent h.2)⟩
    · exact absurd h Bool.false_ne_true
  · refine mem_of_dropWhile isNumberChar_of_isDigit (mem_of_dropOptional (p := (· == '.')) ?_
      (mem_of_dropWhile isNumberChar_of_isDigit (isNumberChar_of_isExponent h)))
    intro c hc
    rw [beq_iff_eq] at hc
    rw [hc]
    rfl

/-- A number has nothing but the characters that `[\d.eE+-]+` takes. -/
theorem isNumberChar_of_isNumericLiteral (h : isNumericLiteral s = true) :
    ∀ c ∈ s, isNumberChar c = true := by
  refine mem_of_dropOptional (p := (· == '-')) ?_ (isNumberChar_of_isUnsigned h)
  intro c hc
  rw [beq_iff_eq] at hc
  rw [hc]
  rfl

theorem ne_nil_of_isNumericLiteral (h : isNumericLiteral s = true) : s ≠ [] := by
  rintro rfl
  exact absurd h (by decide)

/-- A number is read up to a character that belongs to none. -/
theorem run_number (h : isNumericLiteral v = true)
    (hs : ∀ c ∈ s.head?, isNumberChar c = false) :
    run isNumberChar (v ++ s) = some (v, s) :=
  run_append (ne_nil_of_isNumericLiteral h) (isNumberChar_of_isNumericLiteral h) hs

theorem run_number_end (h : isNumericLiteral v = true) :
    run isNumberChar v = some (v, []) := by
  have hrun : run isNumberChar (v ++ []) = some (v, []) := run_number h (by simp)
  rwa [List.append_nil] at hrun

theorem isBare_quote (s : Text) : isBare ('"' :: s) = false := rfl

theorem trim_stringify (s : Text) : trim (stringify s) = stringify s := by
  refine trim_of_ends (fun c hc => ?_) fun c hc => ?_
  · obtain rfl : '"' = c := by simpa [stringify] using hc
    decide
  · obtain rfl : '"' = c := by
      rw [stringify, ← List.cons_append, List.getLast?_concat] at hc
      simpa using hc
    decide

theorem ne_nil_of_isBare (h : isBare v = true) : v ≠ [] := by
  rintro rfl
  exact absurd h (by decide)

theorem buildExprLiteral_ne_nil (v : Text) : buildExprLiteral .eq v ≠ [] := by
  rw [buildExprLiteral, if_neg (by decide)]
  split
  · rename_i hbare
    exact ne_nil_of_isBare hbare
  · exact List.cons_ne_nil _ _

/-- **A literal is read back**: one that is bare as it stands, and any other from between the quotes
that were put around it. -/
theorem parseExprLiteral_buildExprLiteral (composite : Text → Option Text) (hv : trim v = v) :
    parseExprLiteral composite (buildExprLiteral .eq v) = some v := by
  rw [buildExprLiteral, if_neg (by decide), hv]
  by_cases hbare : isBare v = true
  · simp only [hbare, if_true, parseExprLiteral, hv]
  · rw [if_neg hbare, parseExprLiteral, trim_stringify]
    have hquote : isBare (stringify v) = false := isBare_quote _
    have hhead : (stringify v).head? = some '"' := rfl
    simp only [hquote, Bool.false_eq_true, if_false, hhead, parseString_stringify]

/-! ### The ends of what is written -/

/-- No character of a separator, and none that is trimmed. -/
def isSolid (c : Char) : Bool := !isWhiteSpace c && c != '&' && c != '*'

def Starts (s : Text) : Prop := ∃ c t, s = c :: t ∧ isSolid c = true

def Ends (s : Text) : Prop := ∃ t c, s = t ++ [c] ∧ isSolid c = true

/-- The text begins and ends with such a character. -/
structure Firm (s : Text) : Prop where
  starts : Starts s
  ends : Ends s

theorem Starts.append (h : Starts s) (t : Text) : Starts (s ++ t) := by
  obtain ⟨c, u, rfl, hc⟩ := h
  exact ⟨c, u ++ t, rfl, hc⟩

theorem Ends.append (h : Ends t) (s : Text) : Ends (s ++ t) := by
  obtain ⟨u, c, rfl, hc⟩ := h
  exact ⟨s ++ u, c, (List.append_assoc _ _ _).symm, hc⟩

theorem ends_of_forall (hne : s ≠ []) (h : ∀ c ∈ s, isSolid c = true) : Ends s :=
  ⟨s.dropLast, s.getLast hne, (List.dropLast_append_getLast hne).symm, h _ (List.getLast_mem hne)⟩

theorem Firm.ne_nil (h : Firm s) : s ≠ [] := by
  obtain ⟨c, t, rfl, -⟩ := h.starts
  exact List.cons_ne_nil c t

theorem Firm.isSolid_getLast (h : Firm s) : ∀ c ∈ s.getLast?, isSolid c = true := by
  obtain ⟨t, c, rfl, hc⟩ := h.ends
  intro d hd
  rw [List.getLast?_concat, Option.mem_some_iff] at hd
  rwa [← hd]

theorem isWhiteSpace_of_isSolid (h : isSolid c = true) : isWhiteSpace c = false := by
  simp only [isSolid, Bool.and_eq_true, Bool.not_eq_true'] at h
  exact h.1.1

theorem Firm.trim_eq (h : Firm s) : trim s = s := by
  refine trim_of_ends (fun d hd => ?_) fun d hd =>
    isWhiteSpace_of_isSolid (h.isSolid_getLast d hd)
  obtain ⟨c, t, rfl, hc⟩ := h.starts
  rw [List.head?_cons, Option.mem_some_iff] at hd
  rw [← hd]
  exact isWhiteSpace_of_isSolid hc

theorem isSolid_of_toNat (hlow : 42 < c.toNat) (hhigh : c.toNat < 0x80) : isSolid c = true := by
  have hne (d : Char) (hd : d.toNat ≤ 42 ∨ 0x80 ≤ d.toNat) : c ≠ d := by
    rintro rfl
    omega
  simp only [isSolid, isWhiteSpace, isLineTerminator, Bool.and_eq_true, Bool.not_eq_true',
    Bool.or_eq_false_iff, beq_eq_false_iff_ne, bne_iff_ne, Bool.and_eq_false_iff,
    decide_eq_false_iff_not]
  and_intros
  any_goals exact hne _ (by decide)
  omega

theorem isSolid_of_isNumberChar (h : isNumberChar c = true) : isSolid c = true := by
  simp only [isNumberChar, Char.isDigit, Bool.or_eq_true, Bool.and_eq_true, decide_eq_true_eq,
    beq_iff_eq] at h
  rcases h with ((((⟨hlow, hhigh⟩ | rfl) | rfl) | rfl) | rfl) | rfl
  · rw [ge_iff_le, UInt32.le_iff_toNat_le] at hlow
    rw [UInt32.le_iff_toNat_le] at hhigh
    exact isSolid_of_toNat (lt_of_lt_of_le (by decide) hlow) (lt_of_le_of_lt hhigh (by decide))
  all_goals rfl

theorem isLineTerminator_of_isSolid (h : isSolid c = true) : isLineTerminator c = false := by
  have hspace := isWhiteSpace_of_isSolid h
  simp only [isWhiteSpace, Bool.or_eq_false_iff] at hspace
  tauto

theorem isSolid_of_isBare (h : isBare s = true) : ∀ c ∈ s, isSolid c = true := by
  simp only [isBare, Bool.or_eq_true, beq_iff_eq] at h
  rcases h with (rfl | rfl) | hnumber
  · exact List.all_eq_true.1 rfl
  · exact List.all_eq_true.1 rfl
  · exact fun c hc => isSolid_of_isNumberChar (isNumberChar_of_isNumericLiteral hnumber c hc)

theorem ends_of_isNumericLiteral (h : isNumericLiteral s = true) : Ends s :=
  ends_of_forall (ne_nil_of_isNumericLiteral h) fun c hc =>
    isSolid_of_isNumberChar (isNumberChar_of_isNumericLiteral h c hc)

theorem ends_stringify (s : Text) : Ends (stringify s) := ⟨'"' :: escape s, '"', rfl, rfl⟩

theorem ends_buildExprLiteral (v : Text) : Ends (buildExprLiteral .eq v) := by
  rw [buildExprLiteral, if_neg (by decide)]
  split
  · rename_i hbare
    exact ends_of_forall (ne_nil_of_isBare hbare) (isSolid_of_isBare hbare)
  · exact ends_stringify (trim v)

theorem all_buildExprLiteral (hv : trim v = v) (hline : ∀ c ∈ v, c ≠ '\u2028' ∧ c ≠ '\u2029') :
    ((buildExprLiteral .eq v).all (!isLineTerminator ·)) = true := by
  simp only [List.all_eq_true, Bool.not_eq_true']
  rw [buildExprLiteral, if_neg (by decide), hv]
  split
  · rename_i hbare
    exact fun c hc => isLineTerminator_of_isSolid (isSolid_of_isBare hbare c hc)
  · have hquote : isLineTerminator '"' = false := by decide
    rw [stringify, List.forall_mem_cons, List.forall_mem_append]
    exact ⟨hquote, isLineTerminator_of_mem_escape hline, List.forall_mem_singleton.mpr hquote⟩

end Parts

/-! ### Conditions come back -/

section Conditions

variable {f : TimeFunc} {timezone path v e closing : Text} {source : Source}
  (composite : Text → Option Text)

theorem tryParseTimeCondition_source (source : Source) (s : Text) :
    tryParseTimeCondition (source.name ++ s) = none := by
  cases source <;> rfl

theorem tryParseTimeCondition_has (s : Text) :
    tryParseTimeCondition ("has(".toList ++ s) = none := rfl

theorem lit_paren_timeFunc (f : TimeFunc) (s : Text) : lit "(".toList (f.name ++ s) = none := by
  cases f <;> rfl

theorem timeRange_append (hne : timezone ≠ []) (hquote : '"' ∉ timezone)
    (hv : isNumericLiteral v = true) (he : isNumericLiteral e = true)
    (hclosing : ∀ c ∈ closing.head?, isNumberChar c = false) :
    timeRange closing (f.name ++ argText timezone (" >= ".toList ++ (v ++ (" || ".toList ++
        (f.name ++ argText timezone (" < ".toList ++ (e ++ closing))))))) =
      some (.time f timezone .range [] v e) := by
  have hrun : run isNumberChar (v ++ (" || ".toList ++
      (f.name ++ argText timezone (" < ".toList ++ (e ++ closing))))) =
      some (v, " || ".toList ++ (f.name ++ argText timezone (" < ".toList ++ (e ++ closing)))) :=
    run_number hv (by simp [isNumberChar])
  -- the second call is looked for as a text
  have hagain : " || ".toList ++ (f.name ++ argText timezone (" < ".toList ++ (e ++ closing))) =
      (" || ".toList ++ (f.name ++ ("(\"".toList ++ (timezone ++ "\") < ".toList)))) ++
        (e ++ closing) := by simp [argText]
  rw [timeRange, timeFunc_name]
  simp only [Option.bind_eq_bind, Option.bind_some]
  rw [argument_argText hne hquote]
  simp only [Option.bind_some, lit_append]
  rw [hrun, Option.bind_some]
  simp only []
  rw [hagain, lit_append, Option.bind_some, run_number he hclosing, Option.bind_some]
  simp only [if_true]

theorem tryParseTimeCondition_range (hne : timezone ≠ []) (hquote : '"' ∉ timezone)
    (hv : isNumericLiteral v = true) (he : isNumericLiteral e = true) :
    tryParseTimeCondition (f.name ++ argText timezone (" >= ".toList ++ (v ++ (" || ".toList ++
        (f.name ++ argText timezone (" < ".toList ++ e)))))) =
      some (.time f timezone .range [] v e) := by
  have hrange : timeRange [] (f.name ++ argText timezone (" >= ".toList ++ (v ++ (" || ".toList ++
      (f.name ++ argText timezone (" < ".toList ++ (e ++ []))))))) =
      some (.time f timezone .range [] v e) := timeRange_append hne hquote hv he (by simp)
  rw [List.append_nil] at hrange
  rw [tryParseTimeCondition, hrange, Option.some_or]

theorem tryParseTimeCondition_wrapped (hne : timezone ≠ []) (hquote : '"' ∉ timezone)
    (hv : isNumericLiteral v = true) (he : isNumericLiteral e = true) :
    tryParseTimeCondition ("(".toList ++ (f.name ++ argText timezone (" >= ".toList ++ (v ++
        (" || ".toList ++ (f.name ++ argText timezone (" < ".toList ++ (e ++ ")".toList)))))))) =
      some (.time f timezone .range [] v e) := by
  have hparen (s : Text) : timeRange [] ("(".toList ++ s) = none := rfl
  rw [tryParseTimeCondition, hparen, Option.none_or, lit_append, Option.bind_some,
    timeRange_append hne hquote hv he (by simp [isNumberChar]), Option.some_or]

variable {mode : MatchMode}

theorem operator_time (hmode : mode ∈ [MatchMode.eq, .gte, .lt]) (s : Text) :
    operator [.eq, .gte, .lt] (" ".toList ++ (mode.op ++ (" ".toList ++ s))) = some (mode, s) := by
  simp only [List.mem_cons, List.not_mem_nil, or_false] at hmode
  rcases hmode with rfl | rfl | rfl <;> rfl

theorem tryParseTimeCondition_simple (hmode : mode ∈ [MatchMode.eq, .gte, .lt])
    (hne : timezone ≠ []) (hquote : '"' ∉ timezone) (hv : isNumericLiteral v = true) :
    tryParseTimeCondition
        (f.name ++ argText timezone (" ".toList ++ (mode.op ++ (" ".toList ++ v)))) =
      some (.time f timezone mode v [] []) := by
  have hrange : timeRange []
      (f.name ++ argText timezone (" ".toList ++ (mode.op ++ (" ".toList ++ v)))) = none := by
    rw [timeRange, timeFunc_name]
    simp only [Option.bind_eq_bind, Option.bind_some]
    rw [argument_argText hne hquote]
    simp only [List.mem_cons, List.not_mem_nil, or_false] at hmode
    rcases hmode with rfl | rfl | rfl
    · rfl
    · -- the first half of a range
      have hlit : lit " >= ".toList (" ".toList ++ (MatchMode.gte.op ++ (" ".toList ++ v))) =
          some v := rfl
      simp only [Option.bind_some, hlit, run_number_end hv]
      rfl
    · rfl
  rw [tryParseTimeCondition, hrange, Option.none_or, lit_paren_timeFunc, Option.bind_none,
    Option.none_or, timeSimple, timeFunc_name]
  simp only [Option.bind_eq_bind, Option.bind_some]
  rw [argument_argText hne hquote]
  simp only [Option.bind_some, operator_time hmode, run_number_end hv, if_true]

/-- What comes after the source, for the regular expressions that begin with it. -/
theorem presence_append (source : Source) (hne : path ≠ []) (hquote : '"' ∉ path) (s : Text) :
    presence source (source.name ++ argText path s) =
      if s = source.absent then some (.request source path .present []) else none := by
  rw [presence, lit_append]
  simp only [Option.bind_eq_bind, Option.bind_some]
  rw [argument_argText hne hquote, Option.bind_some]

theorem presence_param_header (s : Text) :
    presence .param (Source.header.name ++ s) = none := rfl

theorem presence_header_param (s : Text) :
    presence .header (Source.param.name ++ s) = none := rfl

theorem tryParseRequestCondition_presence (hne : path ≠ []) (hquote : '"' ∉ path) :
    tryParseRequestCondition composite (source.name ++ argText path source.absent) =
      .ok (some (.request source path .present [])) := by
  rw [tryParseRequestCondition, tryParseTimeCondition_source, Option.none_or]
  cases source with
  | header =>
    simp only [presence_append .header hne hquote, if_true, Option.some_or]
  | param =>
    simp only [presence_header_param, presence_append .param hne hquote, if_true, Option.none_or]

theorem parseContains_escape (source : Source) (path v : Text) :
    parseContains source path (escape v) = .ok (some (.request source path .contains v)) := by
  rw [parseContains, unescape_escape]

theorem tryParseRequestCondition_headerContains (hne : path ≠ []) (hquote : '"' ∉ path)
    (v : Text) :
    tryParseRequestCondition composite ("has(".toList ++ (Source.header.name ++
        argText path (", ".toList ++ (stringify v ++ ")".toList)))) =
      .ok (some (.request .header path .contains v)) := by
  have hpresence (source : Source) (s : Text) : presence source ("has(".toList ++ s) = none := by
    cases source <;> rfl
  have hcontains : headerContains ("has(".toList ++ (Source.header.name ++
      argText path (", ".toList ++ (stringify v ++ ")".toList)))) =
      some (.ok (some (.request .header path .contains v))) := by
    have hlit (s : Text) : lit "has(header".toList ("has(".toList ++ (Source.header.name ++ s)) =
        some s := rfl
    rw [headerContains, hlit]
    simp only [Option.bind_eq_bind, Option.bind_some]
    rw [argument_argText hne hquote]
    simp only [Option.bind_some, lit_append, literal_stringify, if_true, parseContains_escape]
  rw [tryParseRequestCondition, tryParseTimeCondition_has, hpresence, hpresence, hcontains]
  rfl

theorem headerContains_source (source : Source) (s : Text) :
    headerContains (source.name ++ s) = none := by
  cases source <;> rfl

theorem append_ne_of_lit {w s t : Text} (h : lit w t = none) : w ++ s ≠ t := by
  rintro rfl
  rw [lit_append] at h
  exact Option.some_ne_none s h

theorem lit_param (s : Text) : lit "param".toList (Source.param.name ++ s) = some s :=
  lit_append Source.param.name s

/-- A condition of a parameter that is more than its presence. -/
theorem tryParseRequestCondition_param (hne : path ≠ []) (hquote : '"' ∉ path) {s : Text}
    (hs : s ≠ Source.param.absent) :
    tryParseRequestCondition composite (Source.param.name ++ argText path s) =
      ((paramContains (Source.param.name ++ argText path s)).or
        (((paramCompare (Source.param.name ++ argText path s)).map (.ok <| some ·)).or
          (equality composite (Source.param.name ++ argText path s)))).getD (.ok none) := by
  rw [tryParseRequestCondition, tryParseTimeCondition_source, presence_header_param,
    presence_append .param hne hquote, if_neg hs, headerContains_source]
  rfl

theorem tryParseRequestCondition_paramContains (hne : path ≠ []) (hquote : '"' ∉ path)
    (v : Text) :
    tryParseRequestCondition composite (Source.param.name ++ argText path
        (" != nil && has(".toList ++ (Source.param.name ++ argText path
          (", ".toList ++ (stringify v ++ ")".toList))))) =
      .ok (some (.request .param path .contains v)) := by
  have hcontains : paramContains (Source.param.name ++ argText path
      (" != nil && has(".toList ++ (Source.param.name ++
        argText path (", ".toList ++ (stringify v ++ ")".toList))))) =
      some (.ok (some (.request .param path .contains v))) := by
    have hlit (s : Text) : lit " != nil && has(param".toList
        (" != nil && has(".toList ++ (Source.param.name ++ s)) = some s := rfl
    rw [paramContains, lit_param]
    simp only [Option.bind_eq_bind, Option.bind_some]
    rw [argument_argText hne hquote]
    simp only [Option.bind_some]
    rw [hlit, Option.bind_some, argument_argText hne hquote]
    simp only [Option.bind_some, lit_append, literal_stringify, parseContains_escape,
      and_self, if_true]
  have hs (s : Text) : " != nil && has(".toList ++ s ≠ Source.param.absent :=
    append_ne_of_lit rfl
  rw [tryParseRequestCondition_param composite hne hquote (hs _), hcontains]
  rfl

theorem operator_compare (hmode : mode ∈ [MatchMode.gt, .gte, .lt, .lte]) (s : Text) :
    operator [.gt, .gte, .lt, .lte] (" ".toList ++ (mode.op ++ (" ".toList ++ s))) =
      some (mode, s) := by
  simp only [List.mem_cons, List.not_mem_nil, or_false] at hmode
  rcases hmode with rfl | rfl | rfl | rfl <;> rfl

theorem tryParseRequestCondition_paramCompare
    (hmode : mode ∈ [MatchMode.gt, .gte, .lt, .lte]) (hne : path ≠ []) (hquote : '"' ∉ path)
    (hv : isNumericLiteral v = true) :
    tryParseRequestCondition composite (Source.param.name ++ argText path (" != nil && ".toList ++
        (Source.param.name ++ argText path (" ".toList ++ (mode.op ++ (" ".toList ++ v)))))) =
      .ok (some (.request .param path mode v)) := by
  have hcontains (s : Text) : paramContains (Source.param.name ++ argText path
      (" != nil && ".toList ++ (Source.param.name ++ s))) = none := by
    rw [paramContains, lit_param]
    simp only [Option.bind_eq_bind, Option.bind_some]
    rw [argument_argText hne hquote]
    rfl
  have hcompare : paramCompare (Source.param.name ++ argText path (" != nil && ".toList ++
      (Source.param.name ++ argText path (" ".toList ++ (mode.op ++ (" ".toList ++ v)))))) =
      some (.request .param path mode v) := by
    have hlit (s : Text) : lit " != nil && param".toList
        (" != nil && ".toList ++ (Source.param.name ++ s)) = some s := rfl
    rw [paramCompare, lit_param]
    simp only [Option.bind_eq_bind, Option.bind_some]
    rw [argument_argText hne hquote]
    simp only [Option.bind_some]
    rw [hlit, Option.bind_some, argument_argText hne hquote]
    simp only [Option.bind_some, operator_compare hmode, run_number_end hv, and_self, if_true]
  have hs (s : Text) : " != nil && ".toList ++ s ≠ Source.param.absent := append_ne_of_lit rfl
  rw [tryParseRequestCondition_param composite hne hquote (hs _), hcontains, hcompare]
  rfl

theorem equality_append (source : Source) (hne : path ≠ []) (hquote : '"' ∉ path) (hv : v ≠ [])
    (hline : v.all (!isLineTerminator ·) = true) :
    equality composite (source.name ++ argText path (" == ".toList ++ v)) =
      some (.ok ((parseExprLiteral composite v).map (.request source path .eq ·))) := by
  have hname (s : Text) :
      oneOf Source.name [.param, .header] (source.name ++ s) = some (source, s) := by
    cases source <;> rfl
  rw [equality, hname]
  simp only [Option.bind_eq_bind, Option.bind_some]
  rw [argument_argText hne hquote]
  simp only [Option.bind_some, lit_append]
  rw [if_pos ⟨hv, hline⟩]

theorem tryParseRequestCondition_equality (hne : path ≠ []) (hquote : '"' ∉ path) (hv : v ≠ [])
    (hline : v.all (!isLineTerminator ·) = true) :
    tryParseRequestCondition composite (source.name ++ argText path (" == ".toList ++ v)) =
      .ok ((parseExprLiteral composite v).map (.request source path .eq ·)) := by
  cases source with
  | header =>
    have hs : " == ".toList ++ v ≠ Source.header.absent := append_ne_of_lit rfl
    have hparam (s : Text) : paramContains (Source.header.name ++ s) = none := rfl
    have hcompare (s : Text) : paramCompare (Source.header.name ++ s) = none := rfl
    rw [tryParseRequestCondition, tryParseTimeCondition_source, presence_param_header,
      presence_append .header hne hquote, if_neg hs, headerContains_source, hparam, hcompare,
      equality_append composite .header hne hquote hv hline]
    rfl
  | param =>
    have hs : " == ".toList ++ v ≠ Source.param.absent := append_ne_of_lit rfl
    have hcontains : paramContains (Source.param.name ++ argText path (" == ".toList ++ v)) =
        none := by
      rw [paramContains, lit_param]
      simp only [Option.bind_eq_bind, Option.bind_some]
      rw [argument_argText hne hquote]
      rfl
    have hcompare : paramCompare (Source.param.name ++ argText path (" == ".toList ++ v)) =
        none := by
      rw [paramCompare, lit_param]
      simp only [Option.bind_eq_bind, Option.bind_some]
      rw [argument_argText hne hquote]
      rfl
    rw [tryParseRequestCondition_param composite hne hquote hs, hcontains, hcompare,
      equality_append composite .param hne hquote hv hline]
    rfl

end Conditions

/-! ### Every condition -/

/-- The texts of conditions. -/
inductive Printed : Condition → Text → Prop
  | range (f : TimeFunc) {timezone rangeStart rangeEnd : Text} (value : Text)
      (hne : timezone ≠ []) (hstart : isNumericLiteral (trim rangeStart) = true)
      (hend : isNumericLiteral (trim rangeEnd) = true) :
      Printed (.time f timezone .range value rangeStart rangeEnd)
        (f.name ++ argText (escape timezone) (" >= ".toList ++ (trim rangeStart ++
          (" || ".toList ++ (f.name ++ argText (escape timezone) (" < ".toList ++
            trim rangeEnd))))))
  | simple (f : TimeFunc) {mode : MatchMode} {timezone value : Text} (rangeStart rangeEnd : Text)
      (hmode : mode ∈ [MatchMode.eq, .gte, .lt]) (hne : timezone ≠ [])
      (hvalue : isNumericLiteral (trim value) = true) :
      Printed (.time f timezone mode value rangeStart rangeEnd)
        (f.name ++ argText (escape timezone) (" ".toList ++ (mode.op ++ (" ".toList ++
          trim value))))
  | presence (source : Source) {path : Text} (value : Text) (hpath : trim path ≠ []) :
      Printed (.request source path .present value)
        (source.name ++ argText (escape (trim path)) source.absent)
  | headerContains {path : Text} (value : Text) (hpath : trim path ≠ []) :
      Printed (.request .header path .contains value)
        ("has(".toList ++ (Source.header.name ++ argText (escape (trim path)) (", ".toList ++
          (stringify (trim value) ++ ")".toList))))
  | paramContains {path : Text} (value : Text) (hpath : trim path ≠ []) :
      Printed (.request .param path .contains value)
        (Source.param.name ++ argText (escape (trim path)) (" != nil && has(".toList ++
          (Source.param.name ++ argText (escape (trim path)) (", ".toList ++
            (stringify (trim value) ++ ")".toList)))))
  | paramCompare {mode : MatchMode} {path value : Text}
      (hmode : mode ∈ [MatchMode.gt, .gte, .lt, .lte]) (hpath : trim path ≠ [])
      (hvalue : isNumericLiteral (trim value) = true) :
      Printed (.request .param path mode value)
        (Source.param.name ++ argText (escape (trim path)) (" != nil && ".toList ++
          (Source.param.name ++ argText (escape (trim path)) (" ".toList ++ (mode.op ++
            (" ".toList ++ trim value))))))
  | equality (source : Source) {path : Text} (value : Text) (hpath : trim path ≠ []) :
      Printed (.request source path .eq value)
        (source.name ++ argText (escape (trim path)) (" == ".toList ++
          buildExprLiteral .eq value))

variable {c : Condition}

theorem normalizeCondition_of_complete (h : c.Complete) :
    normalizeCondition c = c := by
  cases c with
  | request source path mode value => rw [normalizeCondition, if_pos h.2.1]
  | time f timezone mode value rangeStart rangeEnd =>
    rw [normalizeCondition, if_neg h.1, if_pos h.2.1]

theorem printed_time {f : TimeFunc} {timezone : Text} {mode : MatchMode}
    {value rangeStart rangeEnd : Text}
    (hcomplete : (Condition.time f timezone mode value rangeStart rangeEnd).Complete) :
    Printed (.time f timezone mode value rangeStart rangeEnd)
      (buildTimeConditionExpr f timezone mode value rangeStart rangeEnd) := by
  obtain ⟨hne, hmode, hnumeric⟩ := hcomplete
  by_cases hrange : mode = .range
  · subst hrange
    rw [if_pos rfl] at hnumeric
    simp only [buildTimeConditionExpr, if_true, hnumeric.1, hnumeric.2, Bool.not_true,
      Bool.or_false, Bool.false_eq_true, if_false, List.append_assoc, call_append, argText_append]
    exact .range f value hne hnumeric.1 hnumeric.2
  · rw [if_neg hrange] at hnumeric
    have hmode' : mode ∈ [MatchMode.eq, .gte, .lt] := by
      simp only [timeMatchOptions, List.mem_cons, List.not_mem_nil, or_false] at hmode ⊢
      tauto
    simp only [buildTimeConditionExpr, if_neg hrange, hnumeric, Bool.not_true,
      Bool.false_eq_true, if_false, List.append_assoc, call_append, argText_append]
    exact .simple f rangeStart rangeEnd hmode' hne hnumeric

/-- The condition has a path, but nothing is left of it. -/
def Condition.Blank : Condition → Prop
  | .request _ path _ _ => trim path = []
  | .time .. => False

/-- **What is written for a condition.** -/
theorem printed_build (hcomplete : c.Complete) (hblank : ¬c.Blank) :
    Printed c (buildRequestConditionExpr c) := by
  rw [buildRequestConditionExpr, normalizeCondition_of_complete hcomplete]
  cases c with
  | time f timezone mode value rangeStart rangeEnd => exact printed_time hcomplete
  | request source path mode value =>
    obtain ⟨-, hmode, -, hnumeric⟩ := hcomplete
    have hpath : trim path ≠ [] := hblank
    simp only [if_neg hpath]
    cases mode with
    | eq =>
      simp only [List.append_assoc, call_append, argText_append]
      exact .equality source value hpath
    | contains =>
      simp only [buildExprLiteral, if_true]
      cases source with
      | header =>
        simp only [List.append_assoc, call_append, argText_append]
        exact .headerContains value hpath
      | param =>
        simp only [List.append_assoc, call_append, argText_append]
        exact .paramContains value hpath
    | present =>
      simp only [call_append]
      exact .presence source value hpath
    | range => cases source <;> exact absurd hmode (by decide)
    | gt | gte | lt | lte =>
      cases source with
      | header => exact absurd hmode (by decide)
      | param =>
        have hvalue : isNumericLiteral (trim value) = true := hnumeric (by decide)
        simp only [hvalue, Bool.not_true, Bool.false_eq_true, if_false, List.append_assoc,
          call_append, argText_append]
        exact .paramCompare (by decide) hpath hvalue

theorem not_blank (hcomplete : c.Complete) (hlegible : c.Legible) :
    ¬c.Blank := by
  cases c with
  | time f timezone mode value rangeStart rangeEnd => exact id
  | request source path mode value =>
    intro hblank
    rw [Condition.Blank, hlegible.1] at hblank
    exact hcomplete.1 hblank

theorem starts_sourceName (source : Source) : Starts source.name := by
  cases source <;> exact ⟨_, _, rfl, by decide⟩

theorem starts_timeFuncName (f : TimeFunc) : Starts f.name := by
  cases f <;> exact ⟨_, _, rfl, by decide⟩

variable {s : Text}

theorem Ends.argText (h : Ends s) (t : Text) : Ends (argText t s) := by
  have happend : RequestRules.argText t s = '(' :: '"' :: (t ++ ['"', ')']) ++ s := by
    simp [RequestRules.argText]
  rw [happend]
  exact h.append _

theorem Printed.firm (h : Printed c s) : Firm s := by
  have hclose : Ends ")".toList := ⟨[], ')', rfl, by decide⟩
  cases h with
  | range f value hne hstart hend =>
    refine ⟨(starts_timeFuncName f).append _, ?_⟩
    exact (((((((ends_of_isNumericLiteral hend).append _).argText _).append _).append _).append
      _).append _).argText _ |>.append _
  | simple f rangeStart rangeEnd hmode hne hvalue =>
    refine ⟨(starts_timeFuncName f).append _, ?_⟩
    exact ((((ends_of_isNumericLiteral hvalue).append _).append _).append _).argText _ |>.append _
  | presence source value hpath =>
    refine ⟨(starts_sourceName source).append _, (Ends.argText ?_ _).append _⟩
    cases source with
    | header => exact ⟨" != \"".toList, '"', rfl, by decide⟩
    | param => exact ⟨" != ni".toList, 'l', rfl, by decide⟩
  | headerContains value hpath =>
    refine ⟨⟨'h', _, rfl, by decide⟩, ?_⟩
    exact (((hclose.append _).append _).argText _ |>.append _).append _
  | paramContains value hpath =>
    refine ⟨(starts_sourceName .param).append _, ?_⟩
    exact (((((hclose.append _).append _).argText _).append _).append _).argText _ |>.append _
  | paramCompare hmode hpath hvalue =>
    refine ⟨(starts_sourceName .param).append _, ?_⟩
    exact (((((((ends_of_isNumericLiteral hvalue).append _).append _).append _).argText
      _).append _).append _).argText _ |>.append _
  | equality source value hpath =>
    refine ⟨(starts_sourceName source).append _, ?_⟩
    exact ((ends_buildExprLiteral value).append _).argText _ |>.append _

theorem escape_eq (h : ∀ c ∈ s, isPlain c = true) : escape s = s ∧ '"' ∉ s := by
  refine ⟨escape_of_isPlain h, fun hquote => ?_⟩
  exact absurd (h _ hquote) (by decide)

/-- **A condition alone is read back.** -/
theorem Printed.parse (h : Printed c s) (hlegible : c.Legible)
    (composite : Text → Option Text) : tryParseRequestCondition composite s = .ok (some c) := by
  cases h with
  | range f value hne hstart hend =>
    obtain ⟨hplain, -, hrs, hre, hvalue⟩ := hlegible
    obtain ⟨hescape, hquote⟩ := escape_eq hplain
    rw [if_pos rfl] at hvalue
    rw [hrs] at hstart
    rw [hre] at hend
    rw [hescape, hrs, hre, hvalue, tryParseRequestCondition,
      tryParseTimeCondition_range hne hquote hstart hend]
    rfl
  | simple f rangeStart rangeEnd hmode hne hvalue =>
    obtain ⟨hplain, htrim, -, -, hunused⟩ := hlegible
    obtain ⟨hescape, hquote⟩ := escape_eq hplain
    rw [if_neg (by rintro rfl; exact absurd hmode (by decide))] at hunused
    rw [htrim] at hvalue
    rw [hescape, htrim, hunused.1, hunused.2, tryParseRequestCondition,
      tryParseTimeCondition_simple hmode hne hquote hvalue]
    rfl
  | presence source value hpath =>
    obtain ⟨htrim, hplain, -, hunused, -⟩ := hlegible
    obtain ⟨hescape, hquote⟩ := escape_eq hplain
    rw [htrim] at hpath ⊢
    rw [hescape, hunused rfl]
    exact tryParseRequestCondition_presence composite hpath hquote
  | headerContains value hpath =>
    obtain ⟨htrim, hplain, hvalue, -⟩ := hlegible
    obtain ⟨hescape, hquote⟩ := escape_eq hplain
    rw [htrim] at hpath ⊢
    rw [hescape, hvalue]
    exact tryParseRequestCondition_headerContains composite hpath hquote value
  | paramContains value hpath =>
    obtain ⟨htrim, hplain, hvalue, -⟩ := hlegible
    obtain ⟨hescape, hquote⟩ := escape_eq hplain
    rw [htrim] at hpath ⊢
    rw [hescape, hvalue]
    exact tryParseRequestCondition_paramContains composite hpath hquote value
  | paramCompare hmode hpath hvalue =>
    obtain ⟨htrim, hplain, hv, -⟩ := hlegible
    obtain ⟨hescape, hquote⟩ := escape_eq hplain
    rw [htrim] at hpath ⊢
    rw [hv] at hvalue ⊢
    rw [hescape]
    exact tryParseRequestCondition_paramCompare composite hmode hpath hquote hvalue
  | equality source value hpath =>
    obtain ⟨htrim, hplain, hvalue, -, hline⟩ := hlegible
    obtain ⟨hescape, hquote⟩ := escape_eq hplain
    rw [htrim] at hpath ⊢
    rw [hescape, tryParseRequestCondition_equality composite hpath hquote
      (buildExprLiteral_ne_nil value) (all_buildExprLiteral hvalue (hline rfl)),
      parseExprLiteral_buildExprLiteral composite hvalue]
    rfl

/-! ### Groups -/

section Groups

variable {α β : Type} {sep : Text} {ps : List Text} {g : RuleGroup} {s : Text}

theorem wrapped_parse {c : Condition} (h : Printed c s) (hlegible : c.Legible)
    (hrange : c.isRange = true) (composite : Text → Option Text) :
    tryParseRequestCondition composite ("(".toList ++ s ++ ")".toList) = .ok (some c) := by
  cases h with
  | range f value hne hstart hend =>
    obtain ⟨hplain, -, hrs, hre, hvalue⟩ := hlegible
    obtain ⟨hescape, hquote⟩ := escape_eq hplain
    rw [if_pos rfl] at hvalue
    rw [hrs] at hstart
    rw [hre] at hend
    rw [hescape, hrs, hre, hvalue]
    simp only [List.append_assoc, argText_append]
    rw [tryParseRequestCondition, tryParseTimeCondition_wrapped hne hquote hstart hend]
    rfl
  | simple f rangeStart rangeEnd hmode hne hvalue =>
    simp only [List.mem_cons, List.not_mem_nil, or_false] at hmode
    rcases hmode with rfl | rfl | rfl <;> exact absurd hrange Bool.false_ne_true
  | presence | headerContains | paramContains | paramCompare | equality =>
    exact absurd hrange Bool.false_ne_true

theorem wrap_pos (h : " || ".toList <:+: s) :
    wrap s = "(".toList ++ s ++ ")".toList := if_pos h

theorem wrap_neg (h : ¬" || ".toList <:+: s) : wrap s = s := if_neg h

theorem firm_wrap (h : Firm s) : Firm (wrap s) := by
  by_cases halternatives : " || ".toList <:+: s
  · rw [wrap_pos halternatives]
    exact ⟨⟨'(', _, rfl, by decide⟩, ⟨_, ')', rfl, by decide⟩⟩
  · rw [wrap_neg halternatives]
    exact h

/-- What a condition is in its factor is read back as it. -/
theorem piece_parse (hcomplete : g.Complete) (hlegible : g.Legible) {c : Condition}
    (hc : c ∈ g.conditions) (composite : Text → Option Text) :
    Firm (g.piece c) ∧ tryParseRequestCondition composite (g.piece c) = .ok (some c) := by
  have hread := hlegible.conditions c hc
  have hprinted := printed_build (hcomplete.2 c hc) (not_blank (hcomplete.2 c hc) hread)
  by_cases hlength : g.conditions.length = 1
  · rw [RuleGroup.piece, if_pos hlength]
    exact ⟨hprinted.firm, hprinted.parse hread composite⟩
  rw [RuleGroup.piece, if_neg hlength]
  refine ⟨firm_wrap hprinted.firm, ?_⟩
  by_cases halternatives : " || ".toList <:+: buildRequestConditionExpr c
  · rw [wrap_pos halternatives]
    rcases hlegible.bare hlength c hc with hrange | hbare
    · exact wrapped_parse hprinted hread hrange composite
    · exact absurd halternatives hbare
  · rw [wrap_neg halternatives]
    exact hprinted.parse hread composite

theorem parseAll_map (f : Text → Parsed β) (text : α → Text) (value : α → β) {xs : List α}
    (h : ∀ x ∈ xs, f (text x) = .ok (some (value x))) :
    parseAll f (xs.map text) = .ok (some (xs.map value)) := by
  induction xs with
  | nil => rfl
  | cons x xs ih =>
    rw [List.map_cons, parseAll, h x List.mem_cons_self,
      ih fun y hy => h y (List.mem_cons_of_mem x hy)]
    rfl

/-- **Firm pieces that are put together come back.** -/
theorem splitTopLevel_intercalate (hparen : ∀ c ∈ sep, c ≠ '(' ∧ c ≠ ')') (hsep : sep ≠ [])
    (hsolid : ∀ c ∈ sep, isSolid c = false) (hps : ps ≠ []) (hfirm : ∀ p ∈ ps, Firm p)
    (h : TopLevel.Splits sep ps) : splitTopLevel sep (sep.intercalate ps) = ps := by
  have hlast : ∀ p ∈ ps, ∀ c ∈ p.getLast?, c ∉ sep := by
    intro p hp c hc hmem
    have := (hfirm p hp).isSolid_getLast c hc
    rw [hsolid c hmem] at this
    exact Bool.false_ne_true this
  have htrim : ps.map trim = ps := by
    conv_rhs => rw [← List.map_id ps]
    exact List.map_congr_left fun p hp => (hfirm p hp).trim_eq
  rw [splitTopLevel, TopLevel.split_intercalate hparen hsep hps hlast h, htrim,
    List.filter_eq_self]
  intro p hp
  simpa using (hfirm p hp).ne_nil

theorem combine_eq (g : RuleGroup) :
    combine (g.conditions.map buildRequestConditionExpr) =
      " && ".toList.intercalate (g.conditions.map g.piece) := by
  obtain ⟨conditions, multiplier⟩ := g
  match conditions with
  | [] => rfl
  | [c] =>
    rw [List.map_singleton, List.map_singleton, List.intercalate_singleton]
    rfl
  | c :: c' :: cs =>
    have hpiece : (RuleGroup.mk (c :: c' :: cs) multiplier).piece =
        fun c => wrap (buildRequestConditionExpr c) := by
      funext d
      rw [RuleGroup.piece, if_neg (by simp)]
    rw [hpiece]
    simp only [combine, List.map_cons, List.map_map]
    rfl

theorem groupFactor_append {body m : Text} (hbody : body ≠ [])
    (hm : isNumericLiteral m = true) :
    groupFactor ("(".toList ++ body ++ " ? ".toList ++ m ++ " : 1)".toList) =
      some (body, m) := by
  have hreverse : (body ++ (" ? ".toList ++ (m ++ " : 1)".toList))).reverse =
      ")1 : ".toList ++ (m.reverse ++ (" ? ".toList ++ body.reverse)) := by simp
  have hrun : run isNumberChar (m.reverse ++ (" ? ".toList ++ body.reverse)) =
      some (m.reverse, " ? ".toList ++ body.reverse) := by
    refine run_append (by simpa using ne_nil_of_isNumericLiteral hm) (fun c hc => ?_)
      (by simp [isNumberChar])
    exact isNumberChar_of_isNumericLiteral hm c (List.mem_reverse.mp hc)
  simp only [List.append_assoc]
  rw [groupFactor, lit_append]
  simp only [Option.bind_eq_bind, Option.bind_some]
  rw [hreverse, lit_append, Option.bind_some, hrun]
  simp only [Option.bind_some, lit_append]
  rw [if_neg (by simpa using hbody), List.reverse_reverse, List.reverse_reverse]

theorem firm_intercalate (hps : ps ≠ []) (hfirm : ∀ p ∈ ps, Firm p) :
    Firm (sep.intercalate ps) := by
  induction ps with
  | nil => exact absurd rfl hps
  | cons p ps ih =>
    have hp := hfirm p List.mem_cons_self
    cases ps with
    | nil =>
      rw [List.intercalate_singleton]
      exact hp
    | cons q ps =>
      have hrest := ih (List.cons_ne_nil q ps) fun r hr => hfirm r (List.mem_cons_of_mem p hr)
      rw [List.intercalate_cons_cons, List.append_assoc]
      exact ⟨hp.starts.append _, (hrest.ends.append _).append _⟩

theorem buildRuleGroupFactor_eq (hcomplete : g.Complete) (hlegible : g.Legible) :
    buildRuleGroupFactor g = "(".toList ++ " && ".toList.intercalate (g.conditions.map g.piece) ++
      " ? ".toList ++ g.multiplier ++ " : 1)".toList := by
  have hfilter : (g.conditions.map buildRequestConditionExpr).filter (!·.isEmpty) =
      g.conditions.map buildRequestConditionExpr := by
    rw [List.filter_eq_self, List.forall_mem_map]
    intro c hc
    have hblank := not_blank (hcomplete.2 c hc) (hlegible.conditions c hc)
    simpa using (printed_build (hcomplete.2 c hc) hblank).firm.ne_nil
  have hnumeric := hcomplete.1
  rw [hlegible.multiplier] at hnumeric
  have hne : g.conditions.map buildRequestConditionExpr ≠ [] := by
    simpa using hlegible.nonempty
  simp only [buildRuleGroupFactor, hlegible.multiplier, hnumeric, Bool.not_true,
    Bool.false_eq_true, if_false, hfilter, if_neg hne, combine_eq]

/-- **A factor is read back**: what is written for a complete rule group with legible conditions is
parsed as this group. -/
theorem factor_parse (hcomplete : g.Complete) (hlegible : g.Legible)
    (composite : Text → Option Text) :
    Firm (buildRuleGroupFactor g) ∧
      tryParseRuleGroupFactor composite (buildRuleGroupFactor g) = .ok (some g.normalize) := by
  have hfirm : ∀ p ∈ g.conditions.map g.piece, Firm p :=
    List.forall_mem_map.mpr fun c hc => (piece_parse hcomplete hlegible hc composite).1
  have hpieces : g.conditions.map g.piece ≠ [] := by simpa using hlegible.nonempty
  have hbody : " && ".toList.intercalate (g.conditions.map g.piece) ≠ [] :=
    (firm_intercalate hpieces hfirm).ne_nil
  have hnumeric : isNumericLiteral g.multiplier = true := by
    rw [← hlegible.multiplier]
    exact hcomplete.1
  rw [buildRuleGroupFactor_eq hcomplete hlegible]
  refine ⟨⟨⟨'(', _, rfl, by decide⟩, Ends.append ⟨" : 1".toList, ')', rfl, by decide⟩ _⟩, ?_⟩
  have hsplit : splitTopLevelAnd (" && ".toList.intercalate (g.conditions.map g.piece)) =
      g.conditions.map g.piece :=
    splitTopLevel_intercalate (by simp) (by decide) (by simp [isSolid, isWhiteSpace]) hpieces
      hfirm hlegible.splits
  have hparse : parseAll (fun ap => tryParseRequestCondition composite (trim ap))
      (g.conditions.map g.piece) = .ok (some (g.conditions.map id)) := by
    refine parseAll_map _ _ _ fun c hc => ?_
    obtain ⟨hpiece, hread⟩ := piece_parse hcomplete hlegible hc composite
    rw [hpiece.trim_eq, hread]
    rfl
  rw [tryParseRuleGroupFactor, groupFactor_append hbody hnumeric]
  dsimp only
  rw [hsplit, hparse, List.map_id]
  obtain ⟨c, cs, hconditions⟩ := List.exists_cons_of_ne_nil hlegible.nonempty
  simp only [hconditions, RuleGroup.normalize]

end Groups

/-- **Legible groups come back as they are.** -/
theorem tryParseRequestRuleExpr_buildRequestRuleExpr (composite : Text → Option Text)
    (groups : List RuleGroup) (hcomplete : ∀ g ∈ groups, g.Complete)
    (hlegible : Legible groups) :
    tryParseRequestRuleExpr composite (buildRequestRuleExpr groups) =
      .ok (some (groups.map RuleGroup.normalize)) := by
  have hfirm : ∀ p ∈ groups.map buildRuleGroupFactor, Firm p :=
    List.forall_mem_map.mpr fun g hg =>
      (factor_parse (hcomplete g hg) (hlegible.each g hg) composite).1
  have hfilter : (groups.map buildRuleGroupFactor).filter (!·.isEmpty) =
      groups.map buildRuleGroupFactor := by
    rw [List.filter_eq_self]
    intro p hp
    simpa using (hfirm p hp).ne_nil
  rw [buildRequestRuleExpr, hfilter]
  by_cases hgroups : groups = []
  · subst hgroups
    rfl
  have hpieces : groups.map buildRuleGroupFactor ≠ [] := by simpa using hgroups
  have hwhole : Firm (" * ".toList.intercalate (groups.map buildRuleGroupFactor)) :=
    firm_intercalate hpieces hfirm
  have hsplit : splitTopLevelMultiply (" * ".toList.intercalate (groups.map buildRuleGroupFactor)) =
      groups.map buildRuleGroupFactor :=
    splitTopLevel_intercalate (by simp) (by decide) (by simp [isSolid, isWhiteSpace]) hpieces
      hfirm hlegible.splits
  rw [tryParseRequestRuleExpr, hwhole.trim_eq, if_neg hwhole.ne_nil, hsplit]
  exact parseAll_map _ _ _ fun g hg =>
    (factor_parse (hcomplete g hg) (hlegible.each g hg) composite).2

/-- A multiplier for the fast tier at night. -/
def nightRule : RuleGroup :=
  ⟨[.request .param "service_tier".toList .eq "fast".toList,
    .time .hour "UTC".toList .range [] "21".toList "6".toList], "1.5".toList⟩

theorem nightRule_complete : ∀ g ∈ [nightRule], g.Complete := by
  simp only [forall_eq, RuleGroup.Complete, nightRule, List.mem_cons, List.not_mem_nil, or_false,
    forall_eq_or_imp, Condition.Complete]
  decide

theorem nightRule_legible : Legible [nightRule] where
  each := by
    simp only [List.mem_singleton, forall_eq]
    refine ⟨by decide, by decide, ?_, ?_, by decide +kernel⟩
    · simp only [nightRule, List.mem_cons, List.not_mem_nil, or_false, forall_eq_or_imp, forall_eq,
        Condition.Legible]
      exact ⟨⟨rfl, List.all_eq_true.1 rfl, rfl, by simp, by simp⟩,
        List.all_eq_true.1 rfl, rfl, rfl, rfl, by simp⟩
    · simp only [nightRule, List.mem_cons, List.not_mem_nil, or_false, forall_eq_or_imp, forall_eq]
      decide +kernel
  splits := by decide +kernel

theorem nightRule_comesBack :
    tryParseRequestRuleExpr (fun _ => none) (buildRequestRuleExpr [nightRule]) =
      .ok (some ([nightRule].map RuleGroup.normalize)) :=
  tryParseRequestRuleExpr_buildRequestRuleExpr (fun _ => none) [nightRule] nightRule_complete
    nightRule_legible

/-- A multiplier for what has a high temperature. -/
def hotRule : RuleGroup := ⟨[.request .param "temperature".toList .gt "1".toList], "2".toList⟩

/-- A comparison with a number is written as two conditions, which are read one by one. -/
theorem not_comesBack : ¬∀ (composite : Text → Option Text) (groups : List RuleGroup),
    (∀ g ∈ groups, g.Complete) → tryParseRequestRuleExpr composite (buildRequestRuleExpr groups) =
      .ok (some (groups.map RuleGroup.normalize)) := by
  intro h
  have hrule := h (fun _ => none) [hotRule] (by
    simp only [List.mem_singleton, forall_eq, RuleGroup.Complete, hotRule, Condition.Complete]
    decide)
  exact absurd hrule (by decide +kernel)

end NewApiPool.RequestRules
