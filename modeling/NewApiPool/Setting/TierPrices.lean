import NewApiPool.Billing.Tiered
import NewApiPool.Setting.TierRoundTrip

/-!
# Prices of the price editor's expressions

The language of the expressions is a parameter (`Language`): white space between tokens does not
matter to it, and one tier whose numbers are numerals is compiled to the sum that it shows. A label
that ends in an odd number of backslashes is no string of the language, and a number such as `1+2`
is no numeral, though the editor takes both.

The price of a usage also depends on the variables that an expression uses, since their tokens are
not counted as prompt tokens: an expression with `cr * 0` does not charge for cached tokens, and
one without it does.
-/

namespace NewApiPool.TierEditor

open JsText Backtrack Billing.Text

variable {ν : Type} [DecidableEq ν]

/-! ### Programs -/

/-- A compiled expression. -/
structure Program where
  run : TokenParams → ℚ
  usedVars : String → Bool

/-- The price of a usage, before any ratio. -/
def Program.price (prog : Program) (usage : Usage) (isClaudeUsageSemantic : Bool) : ℚ :=
  prog.run (buildTieredTokenParams usage isClaudeUsageSemantic prog.usedVars)

def CacheVar.count (params : TokenParams) : CacheVar → ℚ
  | .cr => params.cr
  | .cc => params.cc
  | .cc1h => params.cc1h
  | .img => params.img
  | .img_o => params.imgO
  | .ai => params.ai
  | .ao => params.ao

def CacheVar.name (cv : CacheVar) : String := String.ofList cv.text

/-- The texts of the numbers. -/
def Body.numbers (body : Body) : List Text :=
  body.input :: body.output :: body.cache.map Prod.snd

/-- The value of a numeral. -/
def numeral (js : Numbers ν) (x : Text) : ℚ := ((js.number x).map js.value).getD 0

/-- The sum that a body shows. -/
def Body.sum (js : Numbers ν) (body : Body) (params : TokenParams) : ℚ :=
  params.p * numeral js body.input + params.c * numeral js body.output +
    (body.cache.map fun z => z.1.count params * numeral js z.2).sum

/-- The variables that a body has besides `p` and `c`. -/
def Body.uses (body : Body) (cv : CacheVar) : Bool := (body.cache.map Prod.fst).contains cv

/-! ### The language -/

/-- The quote after the label is not escaped. -/
def Closed (label : Text) : Prop := Even (label.reverse.takeWhile (· == '\\')).length

instance (label : Text) : Decidable (Closed label) := inferInstanceAs (Decidable (Even _))

/-- The language of the expressions. -/
structure Language (js : Numbers ν) where
  compile : Text → Option Program
  /-- the strings that it accepts -/
  takesLabel : Text → Prop
  /-- the numerals that it accepts -/
  takes : Text → Prop
  takesLabel_default : takesLabel "default".toList
  /-- White space between tokens does not matter. -/
  compile_spacing : ∀ {parts : List Part} {tail : List Text} {s t : Text} {prog : Program},
    (∀ part ∈ parts, part.Valid ∧ Closed part.label) → tail = [] ∨ tail = zeroTokens →
    Spaced isWhiteSpace (exprTokens parts tail) s → Spaced isSpace (exprTokens parts tail) t →
    compile s = some prog → compile t = some prog
  compile_tier : ∀ {label : Text} {body : Body} {s : Text}, body.Valid → '"' ∉ label →
    Closed label → (∀ x ∈ body.numbers, (js.number x).isSome = true) →
    Spaced isSpace (tierTokens label body) s →
    ((compile s).isSome = true ↔ takesLabel label ∧ ∀ x ∈ body.numbers, takes x)
  run_tier : ∀ {label : Text} {body : Body} {s : Text} {prog : Program}, body.Valid → '"' ∉ label →
    Closed label → (∀ x ∈ body.numbers, (js.number x).isSome = true) →
    Spaced isSpace (tierTokens label body) s → compile s = some prog →
    prog.run = body.sum js ∧ ∀ cv : CacheVar, prog.usedVars cv.name = body.uses cv

/-! ### One tier -/

section OneTier

variable {js : Numbers ν} {label s : Text} {body : Body} {usage : Usage} {claude : Bool}

theorem sum_lookup {α β : Type} [DecidableEq α] {xs : List (α × β)} {l : List α}
    (hsub : (xs.map Prod.fst).Sublist l) (hl : l.Nodup) (g : α → β → ℚ) :
    (l.map fun a => ((xs.lookup a).map (g a)).getD 0).sum =
      (xs.map fun z => g z.1 z.2).sum := by
  induction l generalizing xs with
  | nil =>
    rw [List.map_eq_nil_iff.1 (List.sublist_nil.1 hsub)]
    rfl
  | cons a l ih =>
    obtain ⟨ha, hnodup⟩ := List.nodup_cons.1 hl
    cases xs with
    | nil => simp
    | cons z xs =>
      rw [List.map_cons] at hsub
      cases hsub with
      | cons _ hsub =>
        have hnone : (z :: xs).lookup a = none :=
          List.lookup_eq_none_iff.2 fun y hy => by
            have hmem : y.1 ∈ l := hsub.subset (List.mem_map_of_mem hy)
            simpa using fun h : a = y.1 => ha (h ▸ hmem)
        have hrest : ((z :: xs).map Prod.fst).Sublist l := hsub
        rw [List.map_cons, List.sum_cons, hnone, ih hrest hnodup]
        exact zero_add _
      | cons_cons _ hsub =>
        have hrest : ∀ b ∈ l, (z :: xs).lookup b = xs.lookup b := fun b hb => by
          have hne : (b == z.1) = false := beq_eq_false_iff_ne.2 fun h => ha (h ▸ hb)
          rw [List.lookup_cons, hne]
        rw [List.map_cons, List.sum_cons, List.map_cons, List.sum_cons,
          ← ih hsub hnodup, List.map_congr_left fun b hb => by rw [hrest b hb],
          List.lookup_cons_self]
        rfl

omit [DecidableEq ν] in
theorem value_amount (x : Text) : js.value ((numberOf js x).amount js) = numeral js x := by
  rw [numberOf, numeral]
  cases js.number x with
  | none => exact js.value_zero
  | some n => rfl

omit [DecidableEq ν] in
theorem numeral_print (n : ν) : numeral js (js.print n) = js.value n := by
  rw [numeral, js.number_print]
  rfl

omit [DecidableEq ν] in
theorem value_cost (body : Body) (cv : CacheVar) :
    js.value (((readTier js [] label body).cost cv).amount js) =
      ((body.cache.lookup cv).map (numeral js)).getD 0 := by
  have hcost : (readTier js [] label body).cost cv =
      ((body.cache.lookup cv).map (numberOf js)).getD .missing := rfl
  rw [hcost]
  cases body.cache.lookup cv with
  | none => exact js.value_zero
  | some x => exact value_amount x

/-- **The sum that is written** is the one that was read, with `0` for what is no numeral. -/
theorem sum_readTier (hbody : body.Valid) (params : TokenParams) :
    ((readTier js [] label body).body js).sum js params = body.sum js params := by
  have hcache : (((readTier js [] label body).body js).cache.map fun z =>
      z.1.count params * numeral js z.2).sum =
        (body.cache.map fun z => z.1.count params * numeral js z.2).sum := by
    rw [← sum_lookup hbody.vars (by decide) fun cv x => cv.count params * numeral js x, Tier.body,
      List.map_map]
    have hterm : ∀ cv : CacheVar,
        ((body.cache.lookup cv).map fun x => cv.count params * numeral js x).getD 0 =
          cv.count params * js.value (((readTier js [] label body).cost cv).amount js) := by
      intro cv
      rw [value_cost]
      cases body.cache.lookup cv with
      | none => exact (mul_zero _).symm
      | some x => rfl
    simp only [Function.comp_def, numeral_print, hterm]
    -- what is left out is multiplied by zero
    induction cacheVarMap with
    | nil => rfl
    | cons cv cvs ih =>
      by_cases hzero : ((readTier js [] label body).cost cv).amount js = js.zero
      · rw [List.filter_cons_of_neg (by simp [hzero]), ih, List.map_cons, List.sum_cons, hzero,
          js.value_zero, mul_zero, zero_add]
      · rw [List.filter_cons_of_pos (by simp [hzero]), List.map_cons, List.map_cons,
          List.sum_cons, List.sum_cons, ih]
  rw [Body.sum, Body.sum, hcache, Tier.body]
  simp only [numeral_print, readTier, value_amount]

/-! #### The variables that are used -/

theorem uses_iff {cv : CacheVar} : body.uses cv = true ↔ ∃ x, body.cache.lookup cv = some x := by
  rw [Body.uses, List.contains_iff_mem, ← Option.isSome_iff_exists, ← not_iff_not,
    Bool.not_eq_true, Option.isSome_eq_false_iff, Option.isNone_iff_eq_none,
    List.lookup_eq_none_iff]
  constructor
  · intro h z hz
    simpa using fun heq : cv = z.1 => h (heq ▸ List.mem_map_of_mem hz)
  · intro h hmem
    obtain ⟨z, hz, rfl⟩ := List.mem_map.1 hmem
    simpa using h z hz

theorem uses_readTier_iff {cv : CacheVar} :
    ((readTier js [] label body).body js).uses cv = true ↔
      ∃ x, body.cache.lookup cv = some x ∧ numeral js x ≠ 0 := by
  have hamount : ∀ n : ν, n ≠ js.zero ↔ js.value n ≠ 0 := fun n =>
    not_congr ⟨fun h => h ▸ js.value_zero, fun h => js.value_inj _ _ (h.trans js.value_zero.symm)⟩
  have hmem : cv ∈ cacheVarMap := by cases cv <;> decide
  have huses : ((readTier js [] label body).body js).uses cv = true ↔
      ((readTier js [] label body).cost cv).amount js ≠ js.zero := by
    rw [Body.uses, List.contains_iff_mem, Tier.body, List.map_map]
    simp [hmem, Function.comp_def]
  rw [huses, hamount, value_cost]
  cases body.cache.lookup cv with
  | none => simp
  | some x => simp

/-- The variables whose tokens are counted among those of the completion otherwise. -/
def CacheVar.isOutput : CacheVar → Bool
  | .img_o | .ao => true
  | .cr | .cc | .cc1h | .img | .ai => false

/-- The number of `p` or `c`. -/
def Body.base (body : Body) (output : Bool) : Text := if output then body.output else body.input

/-- **No tokens get a price** for which the expression says that they have none. -/
def Body.KeepsCounts (js : Numbers ν) (body : Body) : Prop :=
  ∀ cv x, body.cache.lookup cv = some x → numeral js x = 0 →
    numeral js (body.base cv.isOutput) = 0

section Counts

variable {vars vars' : String → Bool}

theorem p_congr (h : ∀ cv : CacheVar, cv.isOutput = false → vars cv.name = vars' cv.name) :
    (buildTieredTokenParams usage claude vars).p =
      (buildTieredTokenParams usage claude vars').p := by
  have hcr : vars "cr" = vars' "cr" := h .cr rfl
  have hcc : vars "cc" = vars' "cc" := h .cc rfl
  have hcc1h : vars "cc1h" = vars' "cc1h" := h .cc1h rfl
  have himg : vars "img" = vars' "img" := h .img rfl
  have hai : vars "ai" = vars' "ai" := h .ai rfl
  simp only [buildTieredTokenParams, used, hcr, hcc, hcc1h, himg, hai]

theorem c_congr (h : ∀ cv : CacheVar, cv.isOutput = true → vars cv.name = vars' cv.name) :
    (buildTieredTokenParams usage claude vars).c =
      (buildTieredTokenParams usage claude vars').c := by
  have himg : vars "img_o" = vars' "img_o" := h .img_o rfl
  have hao : vars "ao" = vars' "ao" := h .ao rfl
  simp only [buildTieredTokenParams, used, himg, hao]

omit [DecidableEq ν] in
/-- Only `p` and `c` depend on the variables. -/
theorem sum_params (js : Numbers ν) (body : Body) (usage : Usage) (claude : Bool)
    (vars vars' : String → Bool) :
    body.sum js (buildTieredTokenParams usage claude vars') -
        body.sum js (buildTieredTokenParams usage claude vars) =
      ((buildTieredTokenParams usage claude vars').p -
          (buildTieredTokenParams usage claude vars).p) * numeral js body.input +
        ((buildTieredTokenParams usage claude vars').c -
          (buildTieredTokenParams usage claude vars).c) * numeral js body.output := by
  have hcount : ∀ cv : CacheVar, cv.count (buildTieredTokenParams usage claude vars') =
      cv.count (buildTieredTokenParams usage claude vars) := by
    intro cv
    cases cv <;> rfl
  simp only [Body.sum, hcount]
  ring

/-- One token of a variable, which is a token of the prompt or of the completion as well. -/
def probe : CacheVar → Usage
  | .cr => { promptTokens := 1, completionTokens := 1, cachedTokens := 1 }
  | .cc => { promptTokens := 1, completionTokens := 1, cachedCreationTokens := 1 }
  | .cc1h =>
    { promptTokens := 1, completionTokens := 1, claudeCacheCreation1hTokens := 1,
      usageSemantic := "anthropic" }
  | .img => { promptTokens := 1, completionTokens := 1, imageTokens := 1 }
  | .img_o => { promptTokens := 1, completionTokens := 1, outputImageTokens := 1 }
  | .ai => { promptTokens := 1, completionTokens := 1, audioTokens := 1 }
  | .ao => { promptTokens := 1, completionTokens := 1, outputAudioTokens := 1 }

theorem probe_p (cv : CacheVar) : (buildTieredTokenParams (probe cv) false vars).p =
    if cv.isOutput = false ∧ vars cv.name = true then 0 else 1 := by
  cases cv <;> simp [buildTieredTokenParams, probe, used, tieredCacheCreation, CacheVar.isOutput,
    CacheVar.name, CacheVar.text] <;> split_ifs <;> simp

theorem probe_c (cv : CacheVar) : (buildTieredTokenParams (probe cv) false vars).c =
    if cv.isOutput = true ∧ vars cv.name = true then 0 else 1 := by
  cases cv <;> simp [buildTieredTokenParams, probe, used, tieredCacheCreation, CacheVar.isOutput,
    CacheVar.name, CacheVar.text] <;> split_ifs <;> simp

/-- **Leaving out a variable** with the price zero changes no price, if its tokens are not charged
for as prompt or completion tokens then. -/
theorem sum_agrees_iff (hvars : ∀ cv : CacheVar, vars cv.name = body.uses cv)
    (hvars' : ∀ cv : CacheVar,
      vars' cv.name = ((readTier js [] label body).body js).uses cv) :
    (∀ usage claude, body.sum js (buildTieredTokenParams usage claude vars') =
      body.sum js (buildTieredTokenParams usage claude vars)) ↔ body.KeepsCounts js := by
  constructor
  · intro h cv x hx hzero
    have hsum := sum_params js body (probe cv) false vars vars'
    have hused : vars cv.name = true := (hvars cv).trans (uses_iff.2 ⟨x, hx⟩)
    have hunused : vars' cv.name = false := by
      rw [hvars', ← Bool.not_eq_true, uses_readTier_iff]
      rintro ⟨y, hy, hne⟩
      obtain rfl := Option.some.inj (hy.symm.trans hx)
      exact hne hzero
    rw [h, sub_self, probe_p, probe_p, probe_c, probe_c, hused, hunused] at hsum
    rw [Body.base]
    cases hside : cv.isOutput with
    | false => simpa [hside] using hsum.symm
    | true => simpa [hside] using hsum.symm
  · intro hkeeps usage claude
    have hsame : ∀ cv : CacheVar, numeral js (body.base cv.isOutput) ≠ 0 →
        vars' cv.name = vars cv.name := by
      intro cv hne
      rw [hvars, hvars', Bool.eq_iff_iff, uses_readTier_iff, uses_iff]
      constructor
      · rintro ⟨x, hx, -⟩
        exact ⟨x, hx⟩
      · rintro ⟨x, hx⟩
        exact ⟨x, hx, fun hzero => hne (hkeeps cv x hx hzero)⟩
    have hp : ((buildTieredTokenParams usage claude vars').p -
        (buildTieredTokenParams usage claude vars).p) * numeral js body.input = 0 := by
      by_cases hinput : numeral js body.input = 0
      · rw [hinput, mul_zero]
      · rw [p_congr fun cv hcv => hsame cv (by rwa [hcv]), sub_self, zero_mul]
    have hc : ((buildTieredTokenParams usage claude vars').c -
        (buildTieredTokenParams usage claude vars).c) * numeral js body.output = 0 := by
      by_cases houtput : numeral js body.output = 0
      · rw [houtput, mul_zero]
      · rw [c_congr fun cv hcv => hsame cv (by rwa [hcv]), sub_self, zero_mul]
    have hsum := sum_params js body usage claude vars vars'
    rw [hp, hc, add_zero] at hsum
    exact sub_eq_zero.1 hsum

end Counts

end OneTier

/-! ### Prices are kept -/

section Kept

variable {js : Numbers ν} {language : Language js} {label s : Text} {body : Body} {prog : Program}
  {cfg : Config ν}

omit [DecidableEq ν] in
theorem exprTokens_only : exprTokens [⟨[], label, body⟩] [] = tierTokens label body := by
  rw [exprTokens_cons, followed, List.flatMap_nil, List.append_nil, List.append_nil]
  rfl

omit [DecidableEq ν] in
theorem compile_onlyTier (hcompile : language.compile s = some prog) (hbody : body.Valid)
    (hlabel : '"' ∉ label) (hclosed : Closed label)
    (hnumbers : ∀ x ∈ body.numbers, (js.number x).isSome = true)
    (hs : Spaced isWhiteSpace (tierTokens label body) s) :
    language.takesLabel label ∧ prog.run = body.sum js ∧
      ∀ cv : CacheVar, prog.usedVars cv.name = body.uses cv := by
  obtain ⟨t, ht⟩ := exists_spaced (tierTokens label body)
  have hvalid : ∀ part ∈ [(⟨[], label, body⟩ : Part)], part.Valid ∧ Closed part.label :=
    List.forall_mem_singleton.2
      ⟨⟨fun _ hc => absurd hc List.not_mem_nil, hlabel, hbody⟩, hclosed⟩
  have hplain := language.compile_spacing hvalid (.inl rfl) (exprTokens_only ▸ hs)
    (exprTokens_only ▸ ht) hcompile
  have htakes := (language.compile_tier hbody hlabel hclosed hnumbers ht).1
    (Option.isSome_iff_exists.2 ⟨prog, hplain⟩)
  exact ⟨htakes.1, language.run_tier hbody hlabel hclosed hnumbers ht hplain⟩

/-- What the editor writes for one tier without conditions. -/
theorem spaced_readTier (js : Numbers ν) (label : Text) (body : Body) :
    Spaced isSpace (tierTokens (if label.isEmpty then "default".toList else label)
        ((readTier js [] label body).body js))
      (generateExprFromVisualConfig js
        ⟨[normalizeVisualTier js (normalizeVisualTier js (readTier js [] label body))]⟩) := by
  have hwritten : ∀ t : Tier ν, t.cuts js = [] →
      Spaced isSpace (tierTokens (onlyPart js t).label (t.body js))
        (generateExprFromVisualConfig js ⟨[t]⟩) := by
    intro t hcuts
    have h := spaced_generate js (List.cons_ne_nil t [])
    rwa [partsOf, tailOf, if_pos hcuts, onlyPart, hcuts, exprTokens_only] at h
  exact hwritten (normalizeVisualTier js (normalizeVisualTier js (readTier js [] label body))) rfl

theorem isSome_numbers (t : Tier ν) :
    ∀ x ∈ (t.body js).numbers, (js.number x).isSome = true := by
  have hprint : ∀ n : ν, (js.number (js.print n)).isSome = true := fun n => by
    rw [js.number_print]
    rfl
  refine List.forall_mem_cons.2 ⟨hprint _, List.forall_mem_cons.2 ⟨hprint _, fun x hx => ?_⟩⟩
  obtain ⟨z, hz, rfl⟩ := List.mem_map.1 hx
  obtain ⟨cv, -, rfl⟩ := List.mem_map.1 hz
  exact hprint _

/-- An expression and what is written for it have the same price for all token counts. -/
def Language.KeepsPrice (language : Language js) (prog : Program) (cfg : Config ν) : Prop :=
  ∃ prog', language.compile (generateExprFromVisualConfig js cfg) = some prog' ∧
    ∀ usage claude, prog'.price usage claude = prog.price usage claude

/-- The numbers of the tier are accepted as they are written, and no variable is left out whose
tokens are charged for otherwise. -/
def Language.Rewritable (language : Language js) (label : Text) (body : Body) : Prop :=
  (∀ x ∈ ((readTier js [] label body).body js).numbers, language.takes x) ∧ body.KeepsCounts js

/-- **One tier of numerals**: its price is kept just if the numbers are taken as they are printed,
and no variable is dropped whose tokens would be charged for otherwise. -/
theorem keepsPrice_onlyTier (hcompile : language.compile s = some prog) (hbody : body.Valid)
    (hlabel : '"' ∉ label) (hclosed : Closed label)
    (hnumbers : ∀ x ∈ body.numbers, (js.number x).isSome = true)
    (hs : Spaced isWhiteSpace (tierTokens label body) s) :
    language.KeepsPrice prog
        ⟨[normalizeVisualTier js (normalizeVisualTier js (readTier js [] label body))]⟩ ↔
      language.Rewritable label body := by
  obtain ⟨htakes, hrun, hvars⟩ := compile_onlyTier hcompile hbody hlabel hclosed hnumbers hs
  have hwritten := spaced_readTier js label body
  have hlabel' : '"' ∉ if label.isEmpty then "default".toList else label := by
    split_ifs
    · decide
    · exact hlabel
  have hclosed' : Closed (if label.isEmpty then "default".toList else label) := by
    split_ifs
    · decide
    · exact hclosed
  have htakes' : language.takesLabel (if label.isEmpty then "default".toList else label) := by
    split_ifs
    · exact language.takesLabel_default
    · exact htakes
  have haccept := language.compile_tier (body_valid js _) hlabel' hclosed' (isSome_numbers _)
    hwritten
  have hprice : ∀ prog', language.compile (generateExprFromVisualConfig js
        ⟨[normalizeVisualTier js (normalizeVisualTier js (readTier js [] label body))]⟩) =
          some prog' →
      ((∀ usage claude, prog'.price usage claude = prog.price usage claude) ↔
        body.KeepsCounts js) := by
    intro prog' hprog'
    obtain ⟨hrun', hvars'⟩ := language.run_tier (body_valid js _) hlabel' hclosed'
      (isSome_numbers _) hwritten hprog'
    rw [← sum_agrees_iff hvars hvars']
    simp only [Program.price, hrun, hrun', sum_readTier hbody]
  constructor
  · rintro ⟨prog', hprog', hsame⟩
    have htaken := (haccept.1 (Option.isSome_iff_exists.2 ⟨prog', hprog'⟩)).2
    exact ⟨htaken, (hprice prog' hprog').1 hsame⟩
  · rintro ⟨htaken, hkeeps⟩
    obtain ⟨prog', hprog'⟩ := Option.isSome_iff_exists.1 (haccept.2 ⟨htakes', htaken⟩)
    exact ⟨prog', hprog', (hprice prog' hprog').2 hkeeps⟩

/-- The labels are strings of the language. -/
def ClosedLabels (expr : Text) : Prop :=
  ∀ parts tail, (∀ part ∈ parts, part.Valid) → Spaced isWhiteSpace (exprTokens parts tail) expr →
    ∀ part ∈ parts, Closed part.label

/-- The numbers of an expression of one tier are numerals. -/
def Numerals (js : Numbers ν) (expr : Text) : Prop :=
  ∀ label body, matchWhole tierPat expr = some (label, body) →
    ∀ x ∈ body.numbers, (js.number x).isSome = true

/-- **Which prices are kept**: all those of expressions that are read tier by tier, and those of a
single tier that can be written again. -/
theorem keepsPrice_iff (hcompile : language.compile s = some prog)
    (hparse : parseTiers js s = some cfg) (hclosed : ClosedLabels s) (hnumerals : Numerals js s) :
    language.KeepsPrice prog cfg ↔
      ∀ label body, matchWhole tierPat s = some (label, body) →
        language.Rewritable label body := by
  obtain ⟨tiers⟩ := cfg
  cases hsimple : matchWhole tierPat s with
  | some simple =>
    obtain ⟨label, body⟩ := simple
    obtain ⟨simple', hsome, htiers⟩ | ⟨hnone, -⟩ := parseTiers_eq_some js hparse
    · obtain rfl := Option.some.inj (hsome.symm.trans hsimple)
      obtain ⟨u, hu, hspaced, hlabel, hbody⟩ := mem_tierPat (mem_of_matchWhole hsimple)
      rw [List.append_nil] at hu
      subst hu
      have hvalid : ∀ part ∈ [(⟨[], label, body⟩ : Part)], part.Valid :=
        List.forall_mem_singleton.2 ⟨fun _ hc => absurd hc List.not_mem_nil, hlabel, hbody⟩
      have hlabels := hclosed _ [] hvalid (exprTokens_only ▸ hspaced) _ List.mem_cons_self
      obtain rfl : tiers = _ := htiers
      rw [keepsPrice_onlyTier hcompile hbody hlabel hlabels (hnumerals label body hsimple) hspaced]
      constructor
      · intro h label' body' heq
        obtain ⟨rfl, rfl⟩ := Prod.mk.inj (Option.some.inj heq)
        exact h
      · exact fun h => h label body rfl
    · exact absurd (hnone.symm.trans hsimple) (by simp)
  | none =>
    obtain ⟨hne, hvalid, hspaced⟩ := spaced_of_parseTiers js hparse hsimple
    have hlabels := hclosed _ _ hvalid hspaced
    have htail : tailOf js tiers = [] ∨ tailOf js tiers = zeroTokens := tailOf_eq js tiers
    have hsame := language.compile_spacing
      (fun part hpart => ⟨hvalid part hpart, hlabels part hpart⟩) htail hspaced
      (spaced_generate js hne) hcompile
    exact iff_of_true ⟨prog, hsame, fun _ _ => rfl⟩ fun _ _ h => absurd h (by simp)

end Kept

/-! ### The editor -/

/-- **What the editor keeps.** The price of an expression whose labels are strings and whose numbers
are numerals, if the numbers are accepted as they are written and no variable is left out whose
tokens are charged for otherwise; and a configuration, as far as it is written. -/
theorem tierEditor_keeps (js : Numbers ν) (language : Language js) :
    (∀ expr prog cfg, versionMatch expr = none → language.compile expr = some prog →
      tryParseVisualConfig js expr = some cfg → ClosedLabels expr → Numerals js expr →
        (language.KeepsPrice prog cfg ↔
          ∀ label body, matchWhole tierPat expr = some (label, body) →
            language.Rewritable label body)) ∧
      ∀ cfg, Editable js cfg →
        tryParseVisualConfig js (generateExprFromVisualConfig js cfg) =
          some (normalConfig js cfg) := by
  refine ⟨fun expr prog cfg hversion hcompile hparse hclosed hnumerals => ?_,
    fun cfg h => tryParse_generate js h⟩
  rw [tryParseVisualConfig] at hparse
  split_ifs at hparse
  rw [hversion, Option.getD_none] at hparse
  exact keepsPrice_iff hcompile hparse hclosed hnumerals

/-! ### A language -/

section Example

variable {s t label : Text} {body body' : Body} {prog prog' : Program} {parts : List Part}
  {tail : List Text}

/-- The natural numbers in decimals. -/
def naturals : Numbers ℕ where
  zero := 0
  value := Nat.cast
  value_inj := fun _ _ h => Nat.cast_injective h
  value_zero := Nat.cast_zero
  number := fun x =>
    if x ≠ [] ∧ x.all Char.isDigit then some (Nat.ofDigitChars 10 x 0) else none
  print := Nat.toDigits 10
  number_print := fun n => by
    have hall : (Nat.toDigits 10 n).all Char.isDigit = true :=
      List.all_eq_true.2 fun c hc => Nat.isDigit_of_mem_toDigits (by decide) (by decide) hc
    rw [if_pos ⟨Nat.toDigits_ne_nil, hall⟩, Nat.ofDigitChars_ten_toDigits]
  print_ne_nil := fun _ => Nat.toDigits_ne_nil
  print_chars := fun _ _ hc => .inl (Nat.isDigit_of_mem_toDigits (by decide) (by decide) hc)
  print_natural := fun _ _ _ h =>
    absurd (Nat.isDigit_of_mem_toDigits (by decide) (by decide) h) (by decide)

/-- `1+2` and `3` as the numbers of a tier. -/
def sumBody : Body := ⟨"1+2".toList, "3".toList, []⟩

/-- Expressions of one tier, whose numbers are numerals or `1+2` and `3`. -/
inductive Means (s : Text) : Program → Prop
  | tier {label : Text} {body : Body} (hbody : body.Valid) (hlabel : '"' ∉ label)
    (hclosed : Closed label) (hnumbers : ∀ x ∈ body.numbers, (naturals.number x).isSome = true)
    (hs : Spaced isWhiteSpace (tierTokens label body) s) :
    Means s ⟨body.sum naturals, fun name =>
      cacheVarMap.any fun cv => cv.name == name && body.uses cv⟩
  | sum {label : Text} (hlabel : '"' ∉ label) (hclosed : Closed label)
    (hs : Spaced isWhiteSpace (tierTokens label sumBody) s) :
    Means s ⟨fun params => params.p * 1 + 2 + params.c * 3, fun _ => false⟩

theorem sumBody_valid : sumBody.Valid where
  input := by decide
  output := by decide
  cache := fun _ h => absurd h List.not_mem_nil
  vars := List.nil_sublist _

theorem parts_of_tierTokens (hparts : ∀ part ∈ parts, part.Valid)
    (htail : tail = [] ∨ tail = zeroTokens) (hbody : body.Valid) (hlabel : '"' ∉ label)
    (h : compact (exprTokens parts tail) = compact (tierTokens label body)) :
    ∃ part, parts = [part] ∧ tail = [] ∧ part.conditions = [] ∧ part.body = body := by
  have htailQuote : '"' ∉ compact tail := by obtain rfl | rfl := htail <;> decide
  have hcount := congrArg (List.count '"') h
  have hone : (compact (tierTokens label body)).count '"' = 2 := by
    have hpart : (compact (guardTokens [] ++ tierTokens label body)).count '"' = 2 :=
      count_part (fun _ hc => absurd hc List.not_mem_nil) hlabel hbody
    rwa [guardTokens, if_pos rfl, List.nil_append] at hpart
  rw [hone] at hcount
  cases parts with
  | nil =>
    rw [exprTokens, List.map_nil, joined, List.nil_append,
      List.count_eq_zero.2 htailQuote] at hcount
    exact absurd hcount (by decide)
  | cons part parts =>
    obtain ⟨hpart, hparts⟩ := List.forall_mem_cons.1 hparts
    rw [exprTokens_cons, compact_append, List.count_append, Part.tokens,
      count_part hpart.conditions hpart.label hpart.body,
      count_followed hparts htailQuote] at hcount
    obtain rfl : parts = [] := List.eq_nil_of_length_eq_zero (by omega)
    have hfollowed : followed [] tail = tail := rfl
    rw [exprTokens_cons, hfollowed, Part.tokens, compact_append, compact_append,
      List.append_assoc, ← List.append_nil (compact (tierTokens label body)),
      ← List.nil_append (_ ++ [])] at h
    obtain ⟨hnone, -, hbodies, htailNil⟩ := tier_cancel (quote_not_mem_guard hpart.conditions)
      List.not_mem_nil hpart.label hlabel hpart.body hbody h
    refine ⟨part, rfl, ?_, ?_, hbodies⟩
    · obtain rfl | rfl := htail
      · rfl
      · exact absurd htailNil (by decide)
    · have hcountP := countP_guardTokens hpart.conditions
      rw [hnone] at hcountP
      exact List.eq_nil_of_length_eq_zero hcountP.symm

theorem body_unique (hbody : body.Valid) (hlabel : '"' ∉ label) (hbody' : body'.Valid)
    {label' : Text} (hlabel' : '"' ∉ label') (h : Spaced isWhiteSpace (tierTokens label body) s)
    (h' : Spaced isWhiteSpace (tierTokens label' body') s) : body = body' := by
  have hvalid : ∀ part ∈ [(⟨[], label, body⟩ : Part)], part.Valid :=
    List.forall_mem_singleton.2 ⟨fun _ hc => absurd hc List.not_mem_nil, hlabel, hbody⟩
  have htail : ([] : List Text) = [] ∨ ([] : List Text) = zeroTokens := .inl rfl
  obtain ⟨part, hpart, -, -, hbodies⟩ := parts_of_tierTokens hvalid htail hbody' hlabel'
    (by rw [exprTokens_only, ← h.squash, h'.squash])
  obtain rfl := (List.cons.inj hpart).1
  exact hbodies

theorem not_numeral_sum : ¬∀ x ∈ sumBody.numbers, (naturals.number x).isSome = true := by
  decide

theorem means_unique (h : Means s prog) (h' : Means s prog') : prog = prog' := by
  cases h with
  | tier hbody hlabel hclosed hnumbers hs =>
    cases h' with
    | tier hbody' hlabel' hclosed' hnumbers' hs' =>
      rw [body_unique hbody hlabel hbody' hlabel' hs hs']
    | sum hlabel' hclosed' hs' =>
      obtain rfl := body_unique hbody hlabel sumBody_valid hlabel' hs hs'
      exact absurd hnumbers not_numeral_sum
  | sum hlabel hclosed hs =>
    cases h' with
    | tier hbody' hlabel' hclosed' hnumbers' hs' =>
      obtain rfl := body_unique hbody' hlabel' sumBody_valid hlabel hs' hs
      exact absurd hnumbers' not_numeral_sum
    | sum hlabel' hclosed' hs' => rfl

open Classical in
/-- The program of a text, if it means one. -/
noncomputable def compileTier (s : Text) : Option Program :=
  if h : ∃ prog, Means s prog then some h.choose else none

theorem compileTier_eq_some : compileTier s = some prog ↔ Means s prog := by
  rw [compileTier]
  constructor
  · intro h
    split_ifs at h with hmeans
    exact Option.some.inj h ▸ hmeans.choose_spec
  · intro h
    rw [dif_pos ⟨prog, h⟩]
    exact congrArg some (means_unique (Exists.choose_spec ⟨prog, h⟩) h)

theorem means_spacing (hparts : ∀ part ∈ parts, part.Valid ∧ Closed part.label)
    (htail : tail = [] ∨ tail = zeroTokens) (hs : Spaced isWhiteSpace (exprTokens parts tail) s)
    (ht : Spaced isSpace (exprTokens parts tail) t) (h : Means s prog) : Means t prog := by
  have htokens : ∀ {label : Text} {body : Body}, body.Valid → '"' ∉ label →
      Spaced isWhiteSpace (tierTokens label body) s →
      ∃ label', '"' ∉ label' ∧ Closed label' ∧
        Spaced isWhiteSpace (tierTokens label' body) t := by
    intro label body hbody hlabel hone
    obtain ⟨part, rfl, rfl, hconditions, rfl⟩ := parts_of_tierTokens (fun p hp => (hparts p hp).1)
      htail hbody hlabel (by rw [← hs.squash, hone.squash])
    obtain ⟨hvalid, hclosed⟩ := hparts part List.mem_cons_self
    refine ⟨part.label, hvalid.label, hclosed, ?_⟩
    obtain ⟨conditions, label', body⟩ := part
    obtain rfl : conditions = [] := hconditions
    exact exprTokens_only ▸ ht.mono
  cases h with
  | tier hbody hlabel hclosed hnumbers hone =>
    obtain ⟨label', hlabel', hclosed', ht'⟩ := htokens hbody hlabel hone
    exact .tier hbody hlabel' hclosed' hnumbers ht'
  | sum hlabel hclosed hone =>
    obtain ⟨label', hlabel', hclosed', ht'⟩ := htokens sumBody_valid hlabel hone
    exact .sum hlabel' hclosed' ht'

theorem name_injective {cv cv' : CacheVar} (h : cv.name = cv'.name) : cv = cv' := by
  revert h
  cases cv <;> cases cv' <;> decide

/-- A language that has only expressions of one tier. -/
noncomputable def oneTier : Language naturals where
  compile := compileTier
  takesLabel := fun _ => True
  takes := fun _ => True
  takesLabel_default := trivial
  compile_spacing := fun hparts htail hs ht h =>
    compileTier_eq_some.2 (means_spacing hparts htail hs ht (compileTier_eq_some.1 h))
  compile_tier := fun hbody hlabel hclosed hnumbers hs =>
    iff_of_true (Option.isSome_iff_exists.2
      ⟨_, compileTier_eq_some.2 (.tier hbody hlabel hclosed hnumbers hs.mono)⟩)
      ⟨trivial, fun _ _ => trivial⟩
  run_tier := by
    intro label body s prog hbody hlabel hclosed hnumbers hs h
    obtain rfl := means_unique (compileTier_eq_some.1 h)
      (.tier hbody hlabel hclosed hnumbers hs.mono)
    refine ⟨rfl, fun cv => ?_⟩
    have hmem : cv ∈ cacheVarMap := by cases cv <;> decide
    rw [Bool.eq_iff_iff, List.any_eq_true]
    constructor
    · rintro ⟨cv', -, hcv'⟩
      rw [Bool.and_eq_true, beq_iff_eq] at hcv'
      exact name_injective hcv'.1 ▸ hcv'.2
    · exact fun huses => ⟨cv, hmem, by rw [beq_self_eq_true, huses]; rfl⟩

theorem Spaced.subset {blank : Char → Bool} {ts : List Text} (h : Spaced blank ts s)
    {x : Text} (hx : x ∈ ts) {c : Char} (hc : c ∈ x) : c ∈ s := by
  induction h with
  | nil hb => exact absurd hx List.not_mem_nil
  | cons hb _ ih =>
    rw [List.mem_append, List.mem_append]
    obtain rfl | hx := List.mem_cons.1 hx
    · exact .inr (.inl hc)
    · exact .inr (.inr (ih hx))

theorem closedLabels_of_not_mem (h : '\\' ∉ s) : ClosedLabels s := by
  intro parts tail _ hs part hpart
  have hlabel : ∀ c ∈ part.label, c ≠ '\\' := by
    rintro c hc rfl
    have htoken : '"' :: (part.label ++ ['"']) ∈ part.tokens := by
      simp [Part.tokens, tierTokens]
    have hmem : '"' :: (part.label ++ ['"']) ∈ exprTokens parts tail := by
      refine List.mem_append_left _ ?_
      cases parts with
      | nil => exact absurd hpart List.not_mem_nil
      | cons first parts =>
        rw [List.map_cons, joined_cons, List.mem_append]
        obtain rfl | hpart := List.mem_cons.1 hpart
        · exact .inl htoken
        · exact .inr (List.mem_flatMap.2
            ⟨part.tokens, List.mem_map_of_mem hpart, List.mem_cons_of_mem _ htoken⟩)
    exact h (hs.subset hmem (List.mem_cons_of_mem _ (List.mem_append_left _ hc)))
  have hnone : part.label.reverse.takeWhile (· == '\\') = [] := by
    cases hrev : part.label.reverse with
    | nil => rfl
    | cons c l =>
      refine List.takeWhile_cons_of_neg ?_
      have hc : c ∈ part.label := List.mem_reverse.1 (hrev ▸ List.mem_cons_self)
      simpa using hlabel c hc
  rw [Closed, hnone]
  exact Even.zero

theorem tryParse_of_match (js : Numbers ν) (hs : s.head? = some 't')
    (h : matchWhole tierPat s = some (label, body)) :
    tryParseVisualConfig js s = some
      ⟨[normalizeVisualTier js (normalizeVisualTier js (readTier js [] label body))]⟩ := by
  rw [tryParse_of_head js hs (by decide), parseTiers, h]
  rfl

/-- A configuration of two tiers. -/
def twoTiers : Config ℕ where
  tiers := [
    { conditions := [⟨some .len, some .le, .num 200000⟩], input_unit_cost := .num 2,
      output_unit_cost := .num 4, cost := fun _ => .missing, label := [], cache_mode := none },
    { conditions := [], input_unit_cost := .num 3, output_unit_cost := .num 6,
      cost := fun _ => .missing, label := "long".toList, cache_mode := none }]

theorem twoTiers_editable : Editable naturals twoTiers where
  tiers := List.cons_ne_nil _ _
  conditions := List.forall_mem_singleton.2 ⟨_, List.mem_cons_self, rfl⟩
  values := List.forall_mem_cons.2
    ⟨List.forall_mem_singleton.2 fun _ => ⟨200000, rfl, .inl ⟨200000, rfl⟩⟩,
      List.forall_mem_singleton.2 fun _ hc => absurd hc List.not_mem_nil⟩
  last := by
    intro t ht
    obtain rfl := Option.some.inj ht
    exact fun _ hc => absurd hc List.not_mem_nil
  labels := List.forall_mem_cons.2 ⟨by decide, List.forall_mem_singleton.2 (by decide)⟩

def baseExpr : Text := "tier(\"base\", p * 2 + c * 4)".toList

def baseBody : Body := ⟨"2".toList, "4".toList, []⟩

theorem match_baseExpr : matchWhole tierPat baseExpr = some ("base".toList, baseBody) := by
  decide +kernel

theorem keepsPrice_baseExpr :
    oneTier.KeepsPrice
        ⟨baseBody.sum naturals, fun name =>
          cacheVarMap.any fun cv => cv.name == name && baseBody.uses cv⟩
        ⟨[normalizeVisualTier naturals
          (normalizeVisualTier naturals (readTier naturals [] "base".toList baseBody))]⟩ ∧
      tryParseVisualConfig naturals (generateExprFromVisualConfig naturals twoTiers) =
        some (normalConfig naturals twoTiers) := by
  have hnumbers : ∀ x ∈ baseBody.numbers, (naturals.number x).isSome = true := by decide
  obtain ⟨u, hu, hspaced, hlabel, hbody⟩ := mem_tierPat (mem_of_matchWhole match_baseExpr)
  have hcompile : oneTier.compile baseExpr = some _ :=
    compileTier_eq_some.2 (.tier hbody hlabel (by decide) hnumbers
      (by rwa [hu, List.append_nil]))
  have hparse := tryParse_of_match naturals (s := baseExpr) (by decide) match_baseExpr
  have hnumerals : Numerals naturals baseExpr := by
    intro label body hmatch
    obtain ⟨-, rfl⟩ := Prod.mk.inj (Option.some.inj (match_baseExpr.symm.trans hmatch))
    exact hnumbers
  refine ⟨((tierEditor_keeps naturals oneTier).1 baseExpr _ _ (by decide +kernel) hcompile hparse
    (closedLabels_of_not_mem (by decide)) hnumerals).2 ?_,
    (tierEditor_keeps naturals oneTier).2 twoTiers twoTiers_editable⟩
  intro label body hmatch
  obtain ⟨-, rfl⟩ := Prod.mk.inj (Option.some.inj (match_baseExpr.symm.trans hmatch))
  exact ⟨fun _ _ => trivial, fun _ _ h => absurd h (by simp [baseBody])⟩

def sumExpr : Text := "tier(\"x\", p * 1+2 + c * 3)".toList

theorem match_sumExpr : matchWhole tierPat sumExpr = some ("x".toList, sumBody) := by
  decide +kernel

/-- **A number that is none**: `1+2` is read as `NaN` and written as `0`. -/
theorem not_keepsPrice_sumExpr : ∃ prog cfg, versionMatch sumExpr = none ∧
    oneTier.compile sumExpr = some prog ∧ tryParseVisualConfig naturals sumExpr = some cfg ∧
    generateExprFromVisualConfig naturals cfg = "tier(\"x\", p * 0 + c * 3)".toList ∧
    ¬oneTier.KeepsPrice prog cfg := by
  obtain ⟨u, hu, hspaced, hlabel, hbody⟩ := mem_tierPat (mem_of_matchWhole match_sumExpr)
  have hcompile : oneTier.compile sumExpr = some _ :=
    compileTier_eq_some.2 (.sum hlabel (by decide) (by rwa [hu, List.append_nil]))
  refine ⟨_, _, by decide +kernel, hcompile,
    tryParse_of_match naturals (by decide) match_sumExpr, by decide +kernel, ?_⟩
  rintro ⟨prog', hprog', hprice⟩
  have hwritten := spaced_readTier naturals "x".toList sumBody
  obtain ⟨hrun, -⟩ := oneTier.run_tier (body_valid naturals _) (by decide) (by decide)
    (isSome_numbers _) hwritten hprog'
  have hzero := hprice { promptTokens := 0, completionTokens := 0 } false
  have hcounts : ∀ vars : String → Bool,
      (buildTieredTokenParams { promptTokens := 0, completionTokens := 0 } false vars).p = 0 ∧
        (buildTieredTokenParams { promptTokens := 0, completionTokens := 0 } false vars).c = 0 := by
    intro vars
    simp [buildTieredTokenParams, used, tieredCacheCreation]
  rw [Program.price, Program.price, hrun, sum_readTier sumBody_valid, Body.sum, (hcounts _).1,
    (hcounts _).2] at hzero
  simp [sumBody, hcounts] at hzero

end Example

end NewApiPool.TierEditor
