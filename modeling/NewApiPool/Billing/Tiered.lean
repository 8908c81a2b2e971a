import NewApiPool.Billing.Encodings

/-!
# Tiered billing

A model may be priced by an expression over the counts of its tokens. `buildTieredTokenParams`
takes the counts from a usage: where the prompt tokens have the tokens of a variable among
them, these are subtracted if the expression uses the variable.

In Claude's form nothing is subtracted, and nothing is added either: a class that the expression
does not mention is not priced at all (`conserved_iff`). And of the cache writes of a usage
that is marked as Claude's, only those with a lifetime are counted, so that a flat expression
and the ratios it was made from price the same usage differently (`sameAmounts_iff`).
-/

namespace NewApiPool.Billing.Text

/-! ### The parameters of an expression -/

/-- `billingexpr.TokenParams`. -/
structure TokenParams where
  p : ℚ
  c : ℚ
  len : ℚ
  cr : ℚ
  cc : ℚ
  cc1h : ℚ
  img : ℚ
  imgO : ℚ
  ai : ℚ
  ao : ℚ

/-- The cache writes with 5 minutes (or any) and with 1 hour to live. -/
def tieredCacheCreation (usage : Usage) : ℤ × ℤ :=
  if usage.usageSemantic = "anthropic" then
    (usage.claudeCacheCreation5mTokens, usage.claudeCacheCreation1hTokens)
  else (usage.cachedCreationTokens, 0)

/-- The tokens of a variable, if the expression uses it. -/
def used (usedVars : String → Bool) (name : String) (tokens : ℤ) : ℤ :=
  if usedVars name then tokens else 0

def buildTieredTokenParams (usage : Usage) (isClaudeUsageSemantic : Bool)
    (usedVars : String → Bool) : TokenParams :=
  let cr := usage.cachedTokens
  let (cc5m, cc1h) := tieredCacheCreation usage
  let img := usage.imageTokens
  let ai := usage.audioTokens
  let imgO := usage.outputImageTokens
  let ao := usage.outputAudioTokens
  let inputLen :=
    if isClaudeUsageSemantic then usage.promptTokens + cr + cc5m + cc1h else usage.promptTokens
  let p :=
    if isClaudeUsageSemantic then usage.promptTokens
    else usage.promptTokens - used usedVars "cr" cr - used usedVars "cc" cc5m -
      used usedVars "cc1h" cc1h - used usedVars "img" img - used usedVars "ai" ai
  let c :=
    if isClaudeUsageSemantic then usage.completionTokens
    else usage.completionTokens - used usedVars "img_o" imgO - used usedVars "ao" ao
  { p := max p 0, c := max c 0, len := inputLen, cr, cc := cc5m, cc1h, img, imgO, ai, ao }

/-! ### Conservation -/

def cacheWriteTokensTotal (usage : Usage) : ℤ :=
  let split := usage.claudeCacheCreation5mTokens + usage.claudeCacheCreation1hTokens
  if 0 < usage.claudeCacheCreation5mTokens ∨ 0 < usage.claudeCacheCreation1hTokens then
    if split < usage.cachedCreationTokens then usage.cachedCreationTokens else split
  else usage.cachedCreationTokens

/-- All tokens of the input. -/
def totalInputTokens (usage : Usage) (isClaudeUsageSemantic : Bool) : ℤ :=
  if isClaudeUsageSemantic then
    usage.promptTokens + usage.cachedTokens + cacheWriteTokensTotal usage
  else usage.promptTokens

/-- The tokens in `p` and in the used variables of the input. -/
def TokenParams.countedInput (params : TokenParams) (usedVars : String → Bool) : ℚ :=
  params.p + (if usedVars "cr" then params.cr else 0) + (if usedVars "cc" then params.cc else 0) +
    (if usedVars "cc1h" then params.cc1h else 0) + (if usedVars "img" then params.img else 0) +
    (if usedVars "ai" then params.ai else 0)

def TokenParams.countedOutput (params : TokenParams) (usedVars : String → Bool) : ℚ :=
  params.c + (if usedVars "img_o" then params.imgO else 0) +
    (if usedVars "ao" then params.ao else 0)

/-- **Every token is counted once**: in `p` or `c`, or in a variable that is used. -/
structure Conserved (usage : Usage) (isClaudeUsageSemantic : Bool) (usedVars : String → Bool) :
    Prop where
  input : (buildTieredTokenParams usage isClaudeUsageSemantic usedVars).countedInput usedVars =
    totalInputTokens usage isClaudeUsageSemantic
  output : (buildTieredTokenParams usage isClaudeUsageSemantic usedVars).countedOutput usedVars =
    usage.completionTokens

variable {usage : Usage} {usedVars : String → Bool}

/-- The cached tokens and cache writes that no used variable has. -/
def unpricedTokens (usage : Usage) (usedVars : String → Bool) : ℤ :=
  usage.cachedTokens - used usedVars "cr" usage.cachedTokens +
    (cacheWriteTokensTotal usage - used usedVars "cc" (tieredCacheCreation usage).1 -
      used usedVars "cc1h" (tieredCacheCreation usage).2)

theorem cast_used (name : String) (tokens : ℤ) :
    (if usedVars name then (tokens : ℚ) else 0) = (used usedVars name tokens : ℤ) := by
  rw [used]
  split_ifs
  · rfl
  · exact Int.cast_zero.symm

/-- What is taken out of a count is counted once if there is as much of it. -/
theorem max_sub_add_eq_iff {total part : ℤ} :
    max (total - part) 0 + part = total ↔ part ≤ total := by
  omega

/-- The parameters of OpenAI's form: what is used is taken out of `p` and `c`. -/
theorem conserved_openAI_iff (hsemantic : usage.usageSemantic ≠ "anthropic") :
    Conserved usage false usedVars ↔
      used usedVars "cr" usage.cachedTokens + used usedVars "cc" usage.cachedCreationTokens +
          used usedVars "img" usage.imageTokens + used usedVars "ai" usage.audioTokens ≤
            usage.promptTokens ∧
        used usedVars "img_o" usage.outputImageTokens +
          used usedVars "ao" usage.outputAudioTokens ≤ usage.completionTokens := by
  have hcreation : tieredCacheCreation usage = (usage.cachedCreationTokens, 0) :=
    if_neg hsemantic
  have hzero : used usedVars "cc1h" 0 = 0 := ite_self 0
  have hin : (buildTieredTokenParams usage false usedVars).countedInput usedVars =
      totalInputTokens usage false ↔
      used usedVars "cr" usage.cachedTokens + used usedVars "cc" usage.cachedCreationTokens +
        used usedVars "img" usage.imageTokens + used usedVars "ai" usage.audioTokens ≤
          usage.promptTokens := by
    rw [TokenParams.countedInput, buildTieredTokenParams, hcreation]
    simp only [Bool.false_eq_true, if_false, totalInputTokens, cast_used, hzero]
    rw [← max_sub_add_eq_iff]
    norm_cast
    constructor <;> intro h <;> omega
  have hout : (buildTieredTokenParams usage false usedVars).countedOutput usedVars =
      usage.completionTokens ↔
      used usedVars "img_o" usage.outputImageTokens +
        used usedVars "ao" usage.outputAudioTokens ≤ usage.completionTokens := by
    rw [TokenParams.countedOutput, buildTieredTokenParams, hcreation]
    simp only [Bool.false_eq_true, if_false, cast_used]
    rw [← max_sub_add_eq_iff]
    norm_cast
    constructor <;> intro h <;> omega
  rw [← hin, ← hout]
  exact ⟨fun h => ⟨h.input, h.output⟩, fun h => ⟨h.1, h.2⟩⟩

/-- The parameters of Claude's form: nothing is taken out. -/
theorem countedInput_claude (usedVars : String → Bool) (hp : 0 ≤ usage.promptTokens) :
    (buildTieredTokenParams usage true usedVars).countedInput usedVars =
      (usage.promptTokens + used usedVars "cr" usage.cachedTokens +
        used usedVars "cc" (tieredCacheCreation usage).1 +
        used usedVars "cc1h" (tieredCacheCreation usage).2 +
        used usedVars "img" usage.imageTokens + used usedVars "ai" usage.audioTokens : ℤ) := by
  rw [TokenParams.countedInput, buildTieredTokenParams]
  simp only [if_true, cast_used]
  rw [max_eq_left (by exact_mod_cast hp)]
  push_cast
  ring

theorem countedOutput_claude (usedVars : String → Bool) (hc : 0 ≤ usage.completionTokens) :
    (buildTieredTokenParams usage true usedVars).countedOutput usedVars =
      (usage.completionTokens + (used usedVars "img_o" usage.outputImageTokens +
        used usedVars "ao" usage.outputAudioTokens) : ℤ) := by
  rw [TokenParams.countedOutput, buildTieredTokenParams]
  simp only [if_true, cast_used]
  rw [max_eq_left (by exact_mod_cast hc)]
  push_cast
  ring

theorem conserved_claude_iff (hp : 0 ≤ usage.promptTokens) (hc : 0 ≤ usage.completionTokens) :
    Conserved usage true usedVars ↔
      unpricedTokens usage usedVars =
          used usedVars "img" usage.imageTokens + used usedVars "ai" usage.audioTokens ∧
        used usedVars "img_o" usage.outputImageTokens +
          used usedVars "ao" usage.outputAudioTokens = 0 := by
  have hinput := countedInput_claude usedVars hp
  have houtput := countedOutput_claude usedVars hc
  constructor
  · rintro ⟨hin, hout⟩
    rw [hinput, totalInputTokens, if_pos rfl, Int.cast_inj] at hin
    rw [houtput, Int.cast_inj] at hout
    rw [unpricedTokens]
    constructor <;> linarith
  · rintro ⟨hin, hout⟩
    rw [unpricedTokens] at hin
    refine ⟨?_, ?_⟩
    · rw [hinput, totalInputTokens, if_pos rfl, Int.cast_inj]
      linarith
    · rw [houtput, hout, add_zero]

/-- **When tokens are conserved**: in OpenAI's form, if the parts that are used are not more than
the whole; in Claude's, if as many tokens are left out as are counted twice, and no output
is counted twice. -/
theorem conserved_iff (info : RelayInfo) {usage : Usage} (usedVars : String → Bool)
    (hp : 0 ≤ usage.promptTokens) (hc : 0 ≤ usage.completionTokens) :
    Conserved usage (isClaudeUsageSemantic info usage) usedVars ↔
      if isClaudeUsageSemantic info usage then
        unpricedTokens usage usedVars =
            used usedVars "img" usage.imageTokens + used usedVars "ai" usage.audioTokens ∧
          used usedVars "img_o" usage.outputImageTokens +
            used usedVars "ao" usage.outputAudioTokens = 0
      else
        used usedVars "cr" usage.cachedTokens + used usedVars "cc" usage.cachedCreationTokens +
            used usedVars "img" usage.imageTokens + used usedVars "ai" usage.audioTokens ≤
              usage.promptTokens ∧
          used usedVars "img_o" usage.outputImageTokens +
            used usedVars "ao" usage.outputAudioTokens ≤ usage.completionTokens := by
  -- only a usage in Claude's form is marked as Claude's
  cases hclaude : isClaudeUsageSemantic info usage with
  | false =>
    refine (conserved_openAI_iff fun hsemantic => ?_).trans (if_neg Bool.false_ne_true).symm.to_iff
    rw [isClaudeUsageSemantic, usageSemanticFromUsage, hsemantic,
      if_pos (by decide : "anthropic" ≠ "")] at hclaude
    exact absurd hclaude (by decide)
  | true => exact (conserved_claude_iff hp hc).trans (if_pos rfl).symm.to_iff

/-- A response of Claude with cached tokens. -/
def cachedResponse : Usage where
  promptTokens := 100
  completionTokens := 50
  cachedTokens := 900
  usageSemantic := "anthropic"

/-- An expression with a price for the cached tokens. -/
theorem conserved_cachedResponse :
    Conserved cachedResponse (isClaudeUsageSemantic (cachingModel 0) cachedResponse)
      (· ∈ ["p", "c", "cr"]) :=
  (conserved_iff _ _ (by decide) (by decide)).mpr (by decide)

/-- **An expression without one**: the cached tokens are free. -/
theorem not_conserved_cachedResponse :
    ¬Conserved cachedResponse (isClaudeUsageSemantic (cachingModel 0) cachedResponse)
      (· ∈ ["p", "c"]) :=
  fun h => absurd h.input (by decide +kernel)

/-! ### Settling with an expression -/

/-- `BillingSnapshot`. The expression is run with the input of the request that is kept with it,
and may fail. -/
structure BillingSnapshot where
  expr : TokenParams → Option ℚ
  usedVars : String → Bool
  groupRatio : ℚ
  quotaPerUnit : ℚ
  estimatedQuotaAfterGroup : ℤ

structure TieredResult where
  actualQuotaBeforeGroup : ℚ
  actualQuotaAfterGroup : ℤ

/-- `quotaConversion`: the coefficients are prices of a million tokens. -/
def quotaConversion (exprOutput : ℚ) (snap : BillingSnapshot) : ℚ :=
  exprOutput / 1000000 * snap.quotaPerUnit

/-- `ComputeTieredQuotaWithRequest`. `QuotaRound` rounds a half away from `0`. -/
def computeTieredQuota (snap : BillingSnapshot) (params : TokenParams) : Option TieredResult :=
  (snap.expr params).map fun cost =>
    { actualQuotaBeforeGroup := quotaConversion cost snap
      actualQuotaAfterGroup := decimalRound (quotaConversion cost snap * snap.groupRatio) }

/-- `TryTieredSettle`, of a request with a snapshot: the quota, and the result of the expression. -/
def tryTieredSettle (snap : BillingSnapshot) (finalPreConsumedQuota : ℤ) (params : TokenParams) :
    ℤ × Option TieredResult :=
  match computeTieredQuota snap params with
  | some result => (result.actualQuotaAfterGroup, some result)
  | none =>
    (if finalPreConsumedQuota ≤ 0 then snap.estimatedQuotaAfterGroup else finalPreConsumedQuota,
      none)

/-! ### A flat expression and the ratios -/

/-- The ratios of a model as the price helper sets them: the 5 minute ratio is that of the cache
writes. -/
structure Ratios where
  modelRatio : ℚ
  completionRatio : ℚ
  cacheRatio : ℚ
  cacheCreationRatio : ℚ
  cacheCreation1hRatio : ℚ

def Ratios.priceData (r : Ratios) : PriceData where
  modelRatio := r.modelRatio
  completionRatio := r.completionRatio
  cacheRatio := r.cacheRatio
  cacheCreationRatio := r.cacheCreationRatio
  cacheCreation5mRatio := r.cacheCreationRatio
  cacheCreation1hRatio := r.cacheCreation1hRatio

/-- The price of a million tokens at a ratio. -/
def Ratios.price (r : Ratios) (quotaPerUnit ratio : ℚ) : ℚ :=
  r.modelRatio * ratio * 1000000 / quotaPerUnit

/-- The flat expression with the prices of the ratios. -/
def Ratios.snapshot (r : Ratios) (quotaPerUnit groupRatio : ℚ) : BillingSnapshot where
  expr params := some (params.p * r.price quotaPerUnit 1 +
    params.c * r.price quotaPerUnit r.completionRatio +
    params.cr * r.price quotaPerUnit r.cacheRatio +
    params.cc * r.price quotaPerUnit r.cacheCreationRatio +
    params.cc1h * r.price quotaPerUnit r.cacheCreation1hRatio)
  usedVars := (· ∈ ["p", "c", "cr", "cc", "cc1h"])
  groupRatio
  quotaPerUnit
  estimatedQuotaAfterGroup := 0

/-- A usage of text with cached tokens and cache writes. -/
structure CacheUsage where
  prompt : ℕ
  completion : ℕ
  cached : ℕ
  creation : ℕ
  creation5m : ℕ
  creation1h : ℕ

def CacheUsage.toUsage (u : CacheUsage) : Usage where
  promptTokens := u.prompt
  completionTokens := u.completion
  cachedTokens := u.cached
  cachedCreationTokens := u.creation
  claudeCacheCreation5mTokens := u.creation5m
  claudeCacheCreation1hTokens := u.creation1h

/-- What `calculateTextQuotaSummary` charges for the tokens, before it rounds. -/
def ratioAmount (st : Setting) (info : RelayInfo) (usage : Usage) : ℚ :=
  if usage.promptTokens + usage.completionTokens = 0 then 0
  else (promptQuota st info usage + usage.completionTokens * info.priceData.completionRatio) *
    (info.priceData.modelRatio * info.groupRatio)

/-- What the expression charges for them. -/
def tieredAmount (snap : BillingSnapshot) (info : RelayInfo) (usage : Usage) : ℚ :=
  ((snap.expr (buildTieredTokenParams usage (isClaudeUsageSemantic info usage) snap.usedVars)).map
    fun cost => quotaConversion cost snap * snap.groupRatio).getD 0

/-- `tryTieredSettle` rounds the amount of the expression. -/
theorem tryTieredSettle_snapshot (r : Ratios) (quotaPerUnit g : ℚ) (info : RelayInfo)
    (usage : Usage) (finalPreConsumedQuota : ℤ) :
    (tryTieredSettle (r.snapshot quotaPerUnit g) finalPreConsumedQuota
      (buildTieredTokenParams usage (isClaudeUsageSemantic info usage)
        (r.snapshot quotaPerUnit g).usedVars)).1 =
      decimalRound (tieredAmount (r.snapshot quotaPerUnit g) info usage) :=
  rfl

/-- `calculateTextQuotaSummary` rounds the amount of the ratios. -/
theorem textQuota_ratios (st : Setting) (info : RelayInfo) (f : Flags) (u : CacheUsage)
    (r : Ratios) (g : ℚ) (htools : toolCallPrice st info = 0)
    (htotal : u.prompt + u.completion ≠ 0) :
    textQuota st ({ info with priceData := r.priceData }.flagged g f) (u.toUsage.flagged f) =
      roundQuota r.priceData g
        (ratioAmount st ({ info with priceData := r.priceData }.flagged g f)
          (u.toUsage.flagged f)) := by
  have htotal' :
      (u.toUsage.flagged f).promptTokens + (u.toUsage.flagged f).completionTokens ≠ 0 := by
    show (u.prompt + u.completion : ℤ) ≠ 0
    omega
  have htools' : toolCallPrice st { info with priceData := r.priceData } = 0 := htools
  rw [textQuota, if_neg htotal', quotaDecimal_flagged rfl, htools', ratioAmount, if_neg htotal']
  congr 1
  simp only [Ratios.priceData, RelayInfo.flagged, Usage.flagged, List.prod_nil, mul_one, add_zero,
    Bool.false_eq_true, if_false]
  ring

/-- **The expression and the ratios charge the same**, whatever the ratios are. -/
def SameAmounts (st : Setting) (info : RelayInfo) (f : Flags) (u : CacheUsage) : Prop :=
  ∀ (r : Ratios) (g : ℚ),
    tieredAmount (r.snapshot st.quotaPerUnit g) ({ info with priceData := r.priceData }.flagged g f)
        (u.toUsage.flagged f) =
      ratioAmount st ({ info with priceData := r.priceData }.flagged g f) (u.toUsage.flagged f)

/-- **Both put every token in the same class.** Where no prompt and no completion tokens are
reported, the ratios charge nothing. -/
def SameClasses (f : Flags) (u : CacheUsage) : Prop :=
  if u.prompt + u.completion = 0 then
    u.cached = 0 ∧ if f.usageSemantic = "anthropic" then u.creation5m = 0 ∧ u.creation1h = 0
      else u.creation = 0
  else if f.usageSemantic = "anthropic" then u.creation ≤ u.creation5m + u.creation1h
  else if f.semantic = "anthropic" then u.creation1h = 0 ∧ u.creation5m ≤ u.creation
  else if f.IsLegacy ∧ 0 < u.creation5m + u.creation1h then
    u.prompt = 0 ∧ u.creation1h = 0 ∧ u.creation5m ≤ u.creation
  else u.cached + u.creation ≤ u.prompt

/-! ### The classes of the tokens -/

/-- How many tokens are priced in each class. -/
@[ext]
structure Classes where
  uncached : ℤ
  cached : ℤ
  write : ℤ
  write1h : ℤ
  output : ℤ

/-- What the tokens are worth, at a model ratio of `1`. -/
def Classes.value (k : Classes) (r : Ratios) : ℚ :=
  k.uncached + k.cached * r.cacheRatio + k.write * r.cacheCreationRatio +
    k.write1h * r.cacheCreation1hRatio + k.output * r.completionRatio

theorem Classes.eq_iff {k l : Classes} :
    k = l ↔ ∀ (r : Ratios) (g : ℚ), k.value r * (r.modelRatio * g) =
      l.value r * (r.modelRatio * g) := by
  constructor
  · rintro rfl r g
    rfl
  · intro h
    have hbase := h ⟨1, 0, 0, 0, 0⟩ 1
    have houtput := h ⟨1, 1, 0, 0, 0⟩ 1
    have hcached := h ⟨1, 0, 1, 0, 0⟩ 1
    have hwrite := h ⟨1, 0, 0, 1, 0⟩ 1
    have hwrite1h := h ⟨1, 0, 0, 0, 1⟩ 1
    simp only [Classes.value, mul_zero, mul_one, add_zero] at hbase houtput hcached hwrite hwrite1h
    norm_cast at hbase houtput hcached hwrite hwrite1h
    ext <;> omega

/-- The classes of `calculateTextQuotaSummary`. -/
def ratioClasses (f : Flags) (u : CacheUsage) : Classes :=
  if u.prompt + u.completion = 0 then ⟨0, 0, 0, 0, 0⟩
  else if f.semantic = "anthropic" ∨ (f.IsLegacy ∧ 0 < u.creation5m + u.creation1h) then
    ⟨u.prompt, u.cached, max ((u.creation : ℤ) - u.creation5m - u.creation1h) 0 + u.creation5m,
      u.creation1h, u.completion⟩
  else ⟨(u.prompt : ℤ) - u.cached - u.creation, u.cached, u.creation, 0, u.completion⟩

/-- The classes of `BuildTieredTokenParams`. -/
def tieredClasses (f : Flags) (u : CacheUsage) : Classes where
  uncached :=
    if f.semantic = "anthropic" then u.prompt else max ((u.prompt : ℤ) - u.cached - u.creation) 0
  cached := u.cached
  write := if f.usageSemantic = "anthropic" then u.creation5m else u.creation
  write1h := if f.usageSemantic = "anthropic" then u.creation1h else 0
  output := u.completion

variable {st : Setting} {info : RelayInfo} {f : Flags} {u : CacheUsage}

theorem Flags.semantic_of_usageSemantic (h : f.usageSemantic = "anthropic") :
    f.semantic = "anthropic" := by
  rw [Flags.semantic, h]
  exact if_pos (by decide)

theorem isInclusive_cacheUsage (g : ℚ) :
    isInclusive (info.flagged g f) (u.toUsage.flagged f) = false ↔
      f.semantic = "anthropic" ∨ (f.IsLegacy ∧ 0 < u.creation5m + u.creation1h) := by
  have hlegacy : isLegacyClaudeDerivedOpenAIUsage (info.flagged g f) (u.toUsage.flagged f) = true ↔
      f.IsLegacy ∧ 0 < u.creation5m + u.creation1h := by
    rw [isLegacyClaudeDerivedOpenAIUsage, decide_eq_true_eq, Flags.IsLegacy]
    show (f.finalRequestRelayFormat ≠ relayFormatClaude ∧ f.usageSource = "" ∧
      f.usageSemantic = "" ∧ (0 < (u.creation5m : ℤ) ∨ 0 < (u.creation1h : ℤ))) ↔ _
    have hsplit : (0 < (u.creation5m : ℤ) ∨ 0 < (u.creation1h : ℤ)) ↔
      0 < u.creation5m + u.creation1h := by omega
    rw [hsplit]
    tauto
  rw [← hlegacy, isInclusive, isClaudeUsageSemantic_flagged]
  cases isLegacyClaudeDerivedOpenAIUsage (info.flagged g f) (u.toUsage.flagged f) <;> simp

theorem ratioAmount_eq (hrouter : ¬f.IsOpenRouter) (r : Ratios) (g : ℚ) :
    ratioAmount st ({ info with priceData := r.priceData }.flagged g f) (u.toUsage.flagged f) =
      (ratioClasses f u).value r * (r.modelRatio * g) := by
  have hnot : isOpenRouterClaudeBilling ({ info with priceData := r.priceData }.flagged g f)
      (u.toUsage.flagged f) = false := by
    rw [Bool.eq_false_iff, Ne, isOpenRouterClaudeBilling_flagged]
    exact hrouter
  rw [ratioAmount, ratioClasses]
  have htotal : (u.toUsage.flagged f).promptTokens + (u.toUsage.flagged f).completionTokens = 0 ↔
      u.prompt + u.completion = 0 := by
    show (u.prompt + u.completion : ℤ) = 0 ↔ _
    omega
  by_cases hzero : u.prompt + u.completion = 0
  · rw [if_pos (htotal.mpr hzero), if_pos hzero]
    simp [Classes.value]
  · rw [if_neg (htotal.not.mpr hzero), if_neg hzero]
    have hgroup : ({ info with priceData := r.priceData }.flagged g f).priceData.modelRatio *
      ({ info with priceData := r.priceData }.flagged g f).groupRatio = r.modelRatio * g := rfl
    rw [hgroup]
    congr 1
    by_cases hform : f.semantic = "anthropic" ∨ (f.IsLegacy ∧ 0 < u.creation5m + u.creation1h)
    · rw [if_pos hform, promptQuota_of_exclusive ((isInclusive_cacheUsage g).mpr hform) rfl rfl
        (Int.natCast_nonneg _) (Int.natCast_nonneg _), promptAndCacheCreation_of_not hnot]
      simp only [CacheUsage.toUsage, Usage.flagged, RelayInfo.flagged, Ratios.priceData,
        Classes.value]
      push_cast
      ring
    · have hinclusive : isInclusive ({ info with priceData := r.priceData }.flagged g f)
          (u.toUsage.flagged f) = true :=
        Bool.not_eq_false _ ▸ (isInclusive_cacheUsage g).not.mpr hform
      rw [if_neg hform, promptQuota_of_inclusive hinclusive rfl rfl,
        promptAndCacheCreation_of_not hnot]
      simp only [CacheUsage.toUsage, Usage.flagged, RelayInfo.flagged, Ratios.priceData,
        Classes.value]
      push_cast
      ring

/-- A flat expression, with the prices of the ratios: a million and the quota of a unit cancel. -/
theorem quotaConversion_snapshot (hunit : st.quotaPerUnit ≠ 0) (r : Ratios) (g : ℚ)
    (params : TokenParams) :
    ((r.snapshot st.quotaPerUnit g).expr params).map
        (fun cost => quotaConversion cost (r.snapshot st.quotaPerUnit g) *
          (r.snapshot st.quotaPerUnit g).groupRatio) =
      some ((params.p + params.cr * r.cacheRatio + params.cc * r.cacheCreationRatio +
        params.cc1h * r.cacheCreation1hRatio + params.c * r.completionRatio) *
          (r.modelRatio * g)) := by
  simp only [Ratios.snapshot, Ratios.price, quotaConversion, Option.map_some, Option.some.injEq]
  field_simp
  ring

theorem tieredAmount_eq (hunit : st.quotaPerUnit ≠ 0) (r : Ratios) (g : ℚ) :
    tieredAmount (r.snapshot st.quotaPerUnit g)
        ({ info with priceData := r.priceData }.flagged g f) (u.toUsage.flagged f) =
      (tieredClasses f u).value r * (r.modelRatio * g) := by
  have hused (name : String) (tokens : ℤ) (hmem : name ∈ ["p", "c", "cr", "cc", "cc1h"]) :
      used (r.snapshot st.quotaPerUnit g).usedVars name tokens = tokens :=
    if_pos (decide_eq_true hmem)
  have hunused (name : String) (tokens : ℤ) (hmem : name ∉ ["p", "c", "cr", "cc", "cc1h"]) :
      used (r.snapshot st.quotaPerUnit g).usedVars name tokens = 0 :=
    if_neg (by rw [Bool.not_eq_true]; exact decide_eq_false hmem)
  have hcreation : tieredCacheCreation (u.toUsage.flagged f) =
      ((tieredClasses f u).write, (tieredClasses f u).write1h) := by
    by_cases husage : f.usageSemantic = "anthropic"
    · have hflagged : (u.toUsage.flagged f).usageSemantic = "anthropic" := husage
      simp only [tieredCacheCreation, tieredClasses, if_pos hflagged, if_pos husage]
      rfl
    · have hflagged : (u.toUsage.flagged f).usageSemantic ≠ "anthropic" := husage
      simp only [tieredCacheCreation, tieredClasses, if_neg hflagged, if_neg husage]
      rfl
  have hprompt : (u.toUsage.flagged f).promptTokens = u.prompt := rfl
  have hcompletion : (u.toUsage.flagged f).completionTokens = u.completion := rfl
  have hcached : (u.toUsage.flagged f).cachedTokens = u.cached := rfl
  have hzero : (u.toUsage.flagged f).imageTokens = 0 ∧ (u.toUsage.flagged f).audioTokens = 0 ∧
    (u.toUsage.flagged f).outputImageTokens = 0 ∧ (u.toUsage.flagged f).outputAudioTokens = 0 :=
    ⟨rfl, rfl, rfl, rfl⟩
  rw [tieredAmount, isClaudeUsageSemantic_flagged, quotaConversion_snapshot hunit,
    Option.getD_some]
  simp only [buildTieredTokenParams, hcreation, hprompt, hcompletion, hcached, hzero,
    hused "cr" _ (by decide), hused "cc" _ (by decide), hused "cc1h" _ (by decide),
    hunused "img" _ (by decide), hunused "ai" _ (by decide), hunused "img_o" _ (by decide),
    hunused "ao" _ (by decide), sub_zero]
  congr 1
  by_cases hsemantic : f.semantic = "anthropic"
  · simp only [hsemantic, decide_true, if_true, tieredClasses, Classes.value]
    push_cast
    simp
  · have husage : f.usageSemantic ≠ "anthropic" := fun h =>
      hsemantic (Flags.semantic_of_usageSemantic h)
    simp [hsemantic, husage, tieredClasses, Classes.value]

/-- **The expression and the ratios charge the same for a usage**, exactly if both put its tokens in
the same classes. -/
theorem sameAmounts_iff (info : RelayInfo) (hunit : st.quotaPerUnit ≠ 0) (hrouter : ¬f.IsOpenRouter)
    (u : CacheUsage) : SameAmounts st info f u ↔ SameClasses f u := by
  have hclasses : SameAmounts st info f u ↔ tieredClasses f u = ratioClasses f u := by
    rw [Classes.eq_iff]
    refine forall_congr' fun r => forall_congr' fun g => ?_
    rw [tieredAmount_eq hunit, ratioAmount_eq hrouter]
  have hmarked : f.usageSemantic = "anthropic" → f.semantic = "anthropic" :=
    Flags.semantic_of_usageSemantic
  have hlegacy : f.IsLegacy → f.semantic ≠ "anthropic" := by
    rintro ⟨hformat, hsemantic, -⟩
    rw [Flags.semantic, hsemantic, if_neg (not_not.mpr rfl), if_neg hformat]
    decide
  rw [hclasses, tieredClasses, ratioClasses, SameClasses]
  by_cases husage : f.usageSemantic = "anthropic"
  · simp only [husage, hmarked husage, true_or, if_true]
    split_ifs
    · rw [Classes.mk.injEq]
      omega
    · rw [Classes.mk.injEq]
      omega
  · by_cases hsemantic : f.semantic = "anthropic"
    · simp only [husage, hsemantic, true_or, if_true, if_false]
      split_ifs
      · rw [Classes.mk.injEq]
        omega
      · rw [Classes.mk.injEq]
        omega
    · simp only [husage, hsemantic, false_or, if_false]
      split_ifs
      · rw [Classes.mk.injEq]
        omega
      · rw [Classes.mk.injEq]
        omega
      · rw [Classes.mk.injEq]
        omega

/-- A usage of Claude that is marked, with cache writes that have no lifetime. -/
def markedWrites : CacheUsage := ⟨100, 50, 900, 100, 0, 0⟩

def openAIFlags : Flags := ⟨"openai", none, "", ""⟩

def markedFlags : Flags := ⟨"claude", none, "anthropic", ""⟩

/-- In OpenAI's form, with as many prompt tokens as that takes. -/
theorem sameAmounts_inclusive :
    SameAmounts plainSetting (cachingModel 0) openAIFlags ⟨1100, 50, 900, 100, 0, 0⟩ :=
  (sameAmounts_iff _ (by decide +kernel) (fun h => absurd h.1 (by decide)) _).mpr
    (by rw [SameClasses]; decide)

/-- **Cache writes of a marked usage, without a lifetime**: the expression does not charge them. -/
theorem not_sameAmounts_marked :
    ¬SameAmounts plainSetting (cachingModel 0) markedFlags markedWrites :=
  fun h => absurd (h ⟨1, 5, 1 / 10, 5 / 4, 2⟩ 1) (by decide +kernel)

end NewApiPool.Billing.Text
