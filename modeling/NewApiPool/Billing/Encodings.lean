import NewApiPool.Billing.TextQuota

/-!
# One usage in several encodings

The tokens of a request, by the class they are priced in, and the usages that say them: in the
form of OpenAI, of Claude, of OpenRouter for Claude, and that of a Claude response that was
turned into OpenAI's form without a mark. `encodingsAgree_iff` says when all of them have the
same quota.
-/

namespace NewApiPool.Billing.Text

/-! ### The encodings -/

/-- The tokens of a request, each in one class. -/
structure TrueUsage where
  uncached : ℕ
  cached : ℕ
  write5m : ℕ
  write1h : ℕ
  writeRest : ℕ
  output : ℕ

def TrueUsage.write (t : TrueUsage) : ℕ := t.write5m + t.write1h + t.writeRest

/-- Prompt tokens with the cached ones and the cache writes, the cache writes in one field. -/
def TrueUsage.inclusive (t : TrueUsage) (cost : Cost) : Usage where
  promptTokens := t.uncached + t.cached + t.write
  completionTokens := t.output
  cachedTokens := t.cached
  cachedCreationTokens := t.write
  cost := cost

/-- Prompt tokens without them, the cache writes in one field. -/
def TrueUsage.exclusive (t : TrueUsage) (cost : Cost) : Usage where
  promptTokens := t.uncached
  completionTokens := t.output
  cachedTokens := t.cached
  cachedCreationTokens := t.write
  cost := cost

/-- Prompt tokens without them, the cache writes split. -/
def TrueUsage.split (t : TrueUsage) (cost : Cost) : Usage :=
  { t.exclusive cost with
    claudeCacheCreation5mTokens := t.write5m
    claudeCacheCreation1hTokens := t.write1h }

/-- The flags that come with a usage. -/
structure Flags where
  finalRequestRelayFormat : String
  channelType : Option ℕ
  usageSemantic : String
  usageSource : String

namespace Flags

variable (f : Flags)

def semantic : String :=
  if f.usageSemantic ≠ "" then f.usageSemantic
  else if f.finalRequestRelayFormat = relayFormatClaude then "anthropic"
  else "openai"

/-- Claude's form, of a channel that is not OpenRouter. -/
def IsClaude : Prop := f.semantic = "anthropic" ∧ f.channelType ≠ some channelTypeOpenRouter

def IsOpenRouter : Prop := f.semantic = "anthropic" ∧ f.channelType = some channelTypeOpenRouter

def IsOpenAI : Prop := f.semantic ≠ "anthropic"

/-- Neither the format nor the usage says that it comes from Claude. -/
def IsLegacy : Prop :=
  f.finalRequestRelayFormat ≠ relayFormatClaude ∧ f.usageSemantic = "" ∧ f.usageSource = ""

instance decidableIsLegacy : Decidable f.IsLegacy :=
  inferInstanceAs (Decidable (_ ∧ _ ∧ _))

end Flags

/-- A request with the ratio of a group and the flags. -/
def RelayInfo.flagged (info : RelayInfo) (groupRatio : ℚ) (f : Flags) : RelayInfo :=
  { info with
    groupRatio
    finalRequestRelayFormat := f.finalRequestRelayFormat
    channelType := f.channelType }

def Usage.flagged (usage : Usage) (f : Flags) : Usage :=
  { usage with usageSemantic := f.usageSemantic, usageSource := f.usageSource }

/-- The quota of a usage with its flags. -/
def flaggedQuota (st : Setting) (info : RelayInfo) (groupRatio : ℚ) (f : Flags) (usage : Usage) :
    ℤ :=
  textQuota st (info.flagged groupRatio f) (usage.flagged f)

/-- **The quota does not depend on the encoding**, whatever the group. -/
structure EncodingsAgree (st : Setting) (info : RelayInfo) (t : TrueUsage) (cost : Cost) :
    Prop where
  openAI : ∀ (g : ℚ) (a c : Flags), a.IsOpenAI → c.IsClaude →
    flaggedQuota st info g a (t.inclusive cost) = flaggedQuota st info g c (t.exclusive cost)
  openRouter : ∀ (g : ℚ) (a c : Flags), a.IsOpenRouter → c.IsClaude →
    flaggedQuota st info g a (t.inclusive cost) = flaggedQuota st info g c (t.exclusive cost)
  split : 0 < t.write5m + t.write1h → ∀ (g : ℚ) (a c : Flags), a.IsLegacy → c.IsClaude →
    flaggedQuota st info g a (t.split cost) = flaggedQuota st info g c (t.split cost)

/-- How many of the uncached tokens would have to be cache writes for all of the request to cost
`0`: the cache writes that a cost of `0` stands for. -/
def TrueUsage.estimate (t : TrueUsage) (price : PriceData) : ℚ :=
  (t.uncached + t.cached * price.cacheRatio + t.output * price.completionRatio) /
    (1 - price.cacheCreationRatio)

/-- **The cost of `0` changes nothing**: it is not looked at, or what it stands for is not among
the uncached tokens or has no price. -/
def CostIgnored (st : Setting) (info : RelayInfo) (t : TrueUsage) (cost : Cost) : Prop :=
  cost = .int 0 ∨ t.write ≠ 0 ∨ info.priceData.cacheCreationRatio = 1 ∨
    info.priceData.usePrice = true ∨ hasCustomModelRatio st info = true ∨
    info.priceData.modelRatio / st.quotaPerUnit = 0 ∨ info.priceData.otherRatios.prod = 0 ∨
    t.estimate info.priceData < 1 / 2 ∨ t.uncached + 1 / 2 ≤ t.estimate info.priceData

variable {st : Setting} {info : RelayInfo} {t : TrueUsage} {cost : Cost}

/-! ### The price of the input -/

theorem isClaudeUsageSemantic_flagged (g : ℚ) (f : Flags) (usage : Usage) :
    isClaudeUsageSemantic (info.flagged g f) (usage.flagged f) =
      decide (f.semantic = "anthropic") :=
  rfl

variable {usage : Usage}

theorem pricedAudioTokens_of_audioTokens (h : usage.audioTokens = 0) :
    pricedAudioTokens st info usage = 0 := by
  rw [pricedAudioTokens, h, ite_self]

variable {f : Flags}

/-- The quota before it is rounded, by the value of the input. -/
theorem quotaDecimal_flagged {g : ℚ} (haudio : usage.audioTokens = 0) :
    quotaDecimal st (info.flagged g f) (usage.flagged f) =
      g * ((if info.priceData.usePrice then info.priceData.modelPrice * st.quotaPerUnit
        else (promptQuota st (info.flagged g f) (usage.flagged f) +
          usage.completionTokens * info.priceData.completionRatio) * info.priceData.modelRatio) +
        toolCallPrice st info) * info.priceData.otherRatios.prod := by
  have hinput : audioInputPrice st (info.flagged g f) (usage.flagged f) = 0 := by
    have haudio' : (usage.flagged f).audioTokens = 0 := haudio
    rw [audioInputPrice, pricedAudioTokens_of_audioTokens haudio', Int.cast_zero, mul_zero,
      zero_mul]
  have htools : toolCallSurchargeQuota st (info.flagged g f) = toolCallPrice st info * g := rfl
  rw [quotaDecimal, hinput, htools]
  generalize promptQuota st (info.flagged g f) (usage.flagged f) = value
  show ((if info.priceData.usePrice then info.priceData.modelPrice * st.quotaPerUnit * g
    else (value + usage.completionTokens * info.priceData.completionRatio) *
      (info.priceData.modelRatio * g) + 0 * g) + toolCallPrice st info * g) *
    info.priceData.otherRatios.prod = _
  split_ifs <;> ring

/-! ### The price of the input in each form -/

section Input

variable {usage : Usage}

theorem promptAndCacheCreation_of_not (h : isOpenRouterClaudeBilling info usage = false) :
    promptAndCacheCreation st info usage = (usage.promptTokens, usage.cachedCreationTokens) := by
  rw [promptAndCacheCreation, h]
  rfl

theorem promptQuota_of_inclusive (h : isInclusive info usage = true)
    (himage : usage.imageTokens = 0)
    (haudio : usage.audioTokens = 0) :
    promptQuota st info usage =
      ((promptAndCacheCreation st info usage).1 - usage.cachedTokens -
        (promptAndCacheCreation st info usage).2) +
        usage.cachedTokens * info.priceData.cacheRatio +
        (promptAndCacheCreation st info usage).2 * info.priceData.cacheCreationRatio := by
  rw [promptQuota, pricedAudioTokens_of_audioTokens haudio, himage]
  generalize promptAndCacheCreation st info usage = p
  simp only [h, if_true]
  split_ifs with hzero
  · rw [hzero.1]
    push_cast
    ring
  · push_cast
    ring

theorem promptQuota_of_exclusive (h : isInclusive info usage = false)
    (himage : usage.imageTokens = 0) (haudio : usage.audioTokens = 0)
    (h5m : 0 ≤ usage.claudeCacheCreation5mTokens) (h1h : 0 ≤ usage.claudeCacheCreation1hTokens) :
    promptQuota st info usage =
      (promptAndCacheCreation st info usage).1 + usage.cachedTokens * info.priceData.cacheRatio +
        ((max ((promptAndCacheCreation st info usage).2 - usage.claudeCacheCreation5mTokens -
          usage.claudeCacheCreation1hTokens) 0 : ℤ) * info.priceData.cacheCreationRatio +
          usage.claudeCacheCreation5mTokens * info.priceData.cacheCreation5mRatio +
          usage.claudeCacheCreation1hTokens * info.priceData.cacheCreation1hRatio) := by
  rw [promptQuota, pricedAudioTokens_of_audioTokens haudio, himage]
  generalize promptAndCacheCreation st info usage = p
  simp only [h, if_false, Bool.false_eq_true]
  split_ifs with hzero
  · -- without cache writes there is nothing to price
    obtain ⟨hwrite, hsplit⟩ := hzero
    have h5 : usage.claudeCacheCreation5mTokens = 0 := by omega
    have h1 : usage.claudeCacheCreation1hTokens = 0 := by omega
    rw [hwrite, h5, h1]
    push_cast
    simp only [sub_zero, max_self, zero_mul, add_zero]
  · push_cast
    ring

end Input

/-- What the input of a usage is worth, at a model ratio of `1`. -/
def TrueUsage.inputValue (t : TrueUsage) (price : PriceData) : ℚ :=
  t.uncached + t.cached * price.cacheRatio + t.write * price.cacheCreationRatio

section Forms

variable {f : Flags} {g : ℚ}

theorem isInclusive_of_claude {usage : Usage} (h : f.semantic = "anthropic") :
    isInclusive (info.flagged g f) (usage.flagged f) = false := by
  rw [isInclusive, isClaudeUsageSemantic_flagged, decide_eq_true h, Bool.not_true, Bool.false_and]

theorem isOpenRouterClaudeBilling_flagged (usage : Usage) :
    isOpenRouterClaudeBilling (info.flagged g f) (usage.flagged f) = true ↔ f.IsOpenRouter := by
  rw [isOpenRouterClaudeBilling, isClaudeUsageSemantic_flagged, decide_eq_true_eq,
    decide_eq_true_eq, and_comm]
  rfl

theorem promptQuota_openAI (h : f.IsOpenAI) :
    promptQuota st (info.flagged g f) ((t.inclusive cost).flagged f) =
      t.inputValue info.priceData := by
  have hclaude : isClaudeUsageSemantic (info.flagged g f) ((t.inclusive cost).flagged f) = false :=
    decide_eq_false h
  have hrouter : isOpenRouterClaudeBilling (info.flagged g f) ((t.inclusive cost).flagged f) =
      false := by
    rw [Bool.eq_false_iff, Ne, isOpenRouterClaudeBilling_flagged]
    exact fun hrouter => h hrouter.1
  have hinclusive : isInclusive (info.flagged g f) ((t.inclusive cost).flagged f) = true := by
    rw [isInclusive, hclaude, isLegacyClaudeDerivedOpenAIUsage]
    simp [TrueUsage.inclusive, Usage.flagged]
  rw [promptQuota_of_inclusive hinclusive rfl rfl, promptAndCacheCreation_of_not hrouter]
  simp only [TrueUsage.inclusive, Usage.flagged, RelayInfo.flagged, TrueUsage.inputValue]
  push_cast
  ring

theorem promptQuota_claude (h : f.IsClaude) :
    promptQuota st (info.flagged g f) ((t.exclusive cost).flagged f) =
      t.inputValue info.priceData := by
  have hrouter : isOpenRouterClaudeBilling (info.flagged g f) ((t.exclusive cost).flagged f) =
      false := by
    rw [Bool.eq_false_iff, Ne, isOpenRouterClaudeBilling_flagged]
    exact fun hrouter => h.2 hrouter.2
  rw [promptQuota_of_exclusive (isInclusive_of_claude h.1) rfl rfl le_rfl le_rfl,
    promptAndCacheCreation_of_not hrouter]
  simp only [TrueUsage.exclusive, Usage.flagged, RelayInfo.flagged, TrueUsage.inputValue, sub_zero,
    Int.cast_zero, zero_mul, add_zero, max_eq_left (Int.natCast_nonneg t.write)]
  push_cast
  ring

/-- A split usage has one price, whichever form leaves the tokens out of the prompt tokens. -/
theorem promptQuota_split (hrouter : ¬f.IsOpenRouter)
    (hinclusive : isInclusive (info.flagged g f) ((t.split cost).flagged f) = false) :
    promptQuota st (info.flagged g f) ((t.split cost).flagged f) =
      t.uncached + t.cached * info.priceData.cacheRatio +
        (t.writeRest * info.priceData.cacheCreationRatio +
          t.write5m * info.priceData.cacheCreation5mRatio +
          t.write1h * info.priceData.cacheCreation1hRatio) := by
  have hnot : isOpenRouterClaudeBilling (info.flagged g f) ((t.split cost).flagged f) = false := by
    rw [Bool.eq_false_iff, Ne, isOpenRouterClaudeBilling_flagged]
    exact hrouter
  have hrest : max ((t.write : ℤ) - t.write5m - t.write1h) 0 = t.writeRest := by
    rw [TrueUsage.write]
    omega
  rw [promptQuota_of_exclusive hinclusive rfl rfl (Int.natCast_nonneg _) (Int.natCast_nonneg _),
    promptAndCacheCreation_of_not hnot]
  simp only [TrueUsage.split, TrueUsage.exclusive, Usage.flagged, RelayInfo.flagged, hrest]
  push_cast
  ring

end Forms

/-! ### The estimate of the cache writes -/

theorem le_decimalRound_iff {n : ℤ} (hn : 1 ≤ n) {d : ℚ} : n ≤ decimalRound d ↔ n - 1 / 2 ≤ d := by
  have hn' : (1 : ℚ) ≤ n := by exact_mod_cast hn
  rw [decimalRound]
  split_ifs with hd
  · rw [Int.le_floor]
    constructor <;> intro h <;> linarith
  · have hpos : 0 ≤ ⌊-d + 1 / 2⌋ := Int.floor_nonneg.mpr (by linarith)
    constructor
    · intro h
      omega
    · intro h
      linarith

theorem abs_decimalRound_sub_le (d : ℚ) : |(decimalRound d : ℚ) - d| ≤ 1 / 2 := by
  rw [decimalRound, abs_le]
  split_ifs with hd
  · have hle := Int.floor_le (d + 1 / 2)
    have hlt := Int.lt_floor_add_one (d + 1 / 2)
    constructor <;> linarith
  · have hle := Int.floor_le (-d + 1 / 2)
    have hlt := Int.lt_floor_add_one (-d + 1 / 2)
    push_cast
    constructor <;> linarith

/-- The cache writes that are taken out of the uncached tokens for a cost of `0`. -/
def estimated (st : Setting) (info : RelayInfo) (t : TrueUsage) (cost : Cost) : ℤ :=
  if t.write = 0 ∧ info.priceData.cacheCreationRatio ≠ 1 ∧ cost ≠ .int 0 ∧
      ¬info.priceData.usePrice ∧ ¬hasCustomModelRatio st info ∧
      info.priceData.modelRatio / st.quotaPerUnit ≠ 0 ∧
      0 ≤ decimalRound (t.estimate info.priceData) ∧
      decimalRound (t.estimate info.priceData) ≤ t.uncached then
    decimalRound (t.estimate info.priceData)
  else 0

/-- What is not uncached input, in uncached tokens. -/
def Usage.restValue (usage : Usage) (price : PriceData) : ℚ :=
  usage.cachedTokens * price.cacheRatio + usage.completionTokens * price.completionRatio

/-- The cost of `0` is divided by the price of a token. -/
theorem calcOpenRouterCacheCreateTokens_of_cost_zero
    (hratio : info.priceData.cacheCreationRatio ≠ 1) (hcost : usage.cost.value = 0)
    (hprice : info.priceData.modelRatio / st.quotaPerUnit ≠ 0) :
    calcOpenRouterCacheCreateTokens st usage info.priceData =
      decimalRound (((usage.promptTokens - usage.cachedTokens : ℤ) +
        usage.restValue info.priceData) / (1 - info.priceData.cacheCreationRatio)) := by
  rw [calcOpenRouterCacheCreateTokens, if_neg hratio]
  simp only [hcost, Usage.restValue]
  generalize info.priceData.modelRatio / st.quotaPerUnit = price at hprice ⊢
  have hne : 1 - info.priceData.cacheCreationRatio ≠ 0 := sub_ne_zero.mpr (Ne.symm hratio)
  have hne' : price * info.priceData.cacheCreationRatio - price ≠ 0 := by
    intro hzero
    have hfactor : price * (1 - info.priceData.cacheCreationRatio) = 0 := by linarith
    exact (mul_ne_zero hprice hne) hfactor
  congr 1
  rw [div_eq_div_iff hne' hne]
  push_cast
  ring

theorem calcOpenRouterCacheCreateTokens_inclusive (hwrite : t.write = 0)
    (hratio : info.priceData.cacheCreationRatio ≠ 1) (hcost : cost.value = 0)
    (hprice : info.priceData.modelRatio / st.quotaPerUnit ≠ 0) :
    calcOpenRouterCacheCreateTokens st ((t.inclusive cost).flagged f) info.priceData =
      decimalRound (t.estimate info.priceData) := by
  rw [calcOpenRouterCacheCreateTokens_of_cost_zero hratio hcost hprice, TrueUsage.estimate]
  simp only [TrueUsage.inclusive, Usage.flagged, Usage.restValue, hwrite]
  push_cast
  ring_nf

theorem calcOpenRouterCacheCreateTokens_of_free (hcost : usage.cost.value = 0)
    (hprice : info.priceData.modelRatio / st.quotaPerUnit = 0) :
    calcOpenRouterCacheCreateTokens st usage info.priceData = 0 := by
  rw [calcOpenRouterCacheCreateTokens]
  split_ifs
  · rfl
  · simp only [hprice, zero_mul, sub_self, hcost, mul_zero, add_zero, zero_div]
    norm_num [decimalRound]

theorem promptAndCacheCreation_openRouter {g : ℚ} (h : f.IsOpenRouter) (hcost : cost.value = 0) :
    promptAndCacheCreation st (info.flagged g f) ((t.inclusive cost).flagged f) =
      (t.uncached - estimated st info t cost, t.write + estimated st info t cost) := by
  have hrouter : isOpenRouterClaudeBilling (info.flagged g f) ((t.inclusive cost).flagged f) =
      true := (isOpenRouterClaudeBilling_flagged _).mpr h
  rw [promptAndCacheCreation, if_pos hrouter, estimated]
  have hcustom : hasCustomModelRatio st (info.flagged g f) = hasCustomModelRatio st info := rfl
  have hprompt : ((t.inclusive cost).flagged f).promptTokens -
      ((t.inclusive cost).flagged f).cachedTokens = t.uncached + t.write := by
    show (t.uncached + t.cached + t.write : ℤ) - t.cached = _
    ring
  have hflagged : ((t.inclusive cost).flagged f).cachedCreationTokens = t.write := rfl
  have hcost' : ((t.inclusive cost).flagged f).cost = cost := rfl
  have hdata : (info.flagged g f).priceData = info.priceData := rfl
  simp only [hprompt, hflagged, hcost', hdata, hcustom]
  by_cases hwrite : t.write = 0
  · by_cases hratio : info.priceData.cacheCreationRatio = 1
    · simp [hratio, hwrite]
    · by_cases hprice : info.priceData.modelRatio / st.quotaPerUnit = 0
      · rw [calcOpenRouterCacheCreateTokens_of_free hcost hprice]
        simp [hprice, hwrite]
      · rw [calcOpenRouterCacheCreateTokens_inclusive hwrite hratio hcost hprice, hwrite]
        simp only [Bool.not_eq_true', Bool.or_eq_false_iff, Nat.cast_zero, add_zero, zero_add,
          true_and, Bool.not_eq_true, Ne, hratio, hprice, not_false_eq_true, and_assoc]
  · simp [hwrite]

theorem estimated_nonneg : 0 ≤ estimated st info t cost := by
  rw [estimated]
  split_ifs with h
  · exact h.2.2.2.2.2.2.1
  · exact le_rfl

theorem promptQuota_openRouter {g : ℚ} (h : f.IsOpenRouter) (hcost : cost.value = 0) :
    promptQuota st (info.flagged g f) ((t.inclusive cost).flagged f) =
      t.inputValue info.priceData -
        estimated st info t cost * (1 - info.priceData.cacheCreationRatio) := by
  have hwrite : 0 ≤ t.write + estimated st info t cost :=
    add_nonneg (Int.natCast_nonneg _) estimated_nonneg
  rw [promptQuota_of_exclusive (isInclusive_of_claude h.1) rfl rfl le_rfl le_rfl,
    promptAndCacheCreation_openRouter h hcost]
  simp only [TrueUsage.inclusive, Usage.flagged, RelayInfo.flagged, TrueUsage.inputValue, sub_zero,
    Int.cast_zero, zero_mul, add_zero, max_eq_left hwrite]
  push_cast
  ring

/-- The estimate is made, and the tokens have a price. -/
theorem not_costIgnored_iff : ¬CostIgnored st info t cost ↔
    0 < estimated st info t cost ∧ info.priceData.cacheCreationRatio ≠ 1 ∧
      info.priceData.usePrice = false ∧ info.priceData.modelRatio ≠ 0 ∧
      info.priceData.otherRatios.prod ≠ 0 := by
  have hlow := le_decimalRound_iff (le_refl (1 : ℤ)) (d := t.estimate info.priceData)
  have hhigh := le_decimalRound_iff (n := t.uncached + 1) (by omega)
    (d := t.estimate info.priceData)
  push_cast at hlow hhigh
  rw [CostIgnored, estimated]
  push Not
  constructor
  · rintro ⟨hcost, hwrite, hratio, hprice, hcustom, hfree, hprod, hest, hest'⟩
    have hone : 1 ≤ decimalRound (t.estimate info.priceData) := hlow.mpr (by linarith)
    have hle : ¬t.uncached + 1 ≤ decimalRound (t.estimate info.priceData) := by
      rw [hhigh]
      linarith
    rw [if_pos ⟨hwrite, hratio, hcost, hprice, hcustom, hfree, by omega, by omega⟩]
    exact ⟨hone, hratio, Bool.eq_false_iff.mpr hprice, fun hzero => hfree (by rw [hzero, zero_div]),
      hprod⟩
  · rintro ⟨hpos, hratio, hprice, hmodel, hprod⟩
    split_ifs at hpos with hmade
    · obtain ⟨hwrite, -, hcost, hprice', hcustom, hfree, -, hle⟩ := hmade
      have hest := hlow.mp hpos
      refine ⟨hcost, hwrite, hratio, hprice', hcustom, hfree, hprod, by linarith, ?_⟩
      by_contra hcon
      have hmore := hhigh.mpr (by linarith)
      omega
    · exact absurd hpos (lt_irrefl 0)

/-! ### The rounding tells prices apart -/

theorem roundQuota_lt {price : PriceData} {g a b : ℚ} (hratio : price.modelRatio * g ≠ 0)
    (ha : 2 ≤ a) (hab : b + 2 ≤ a) : roundQuota price g b < roundQuota price g a := by
  have hround (d : ℚ) := abs_le.mp (abs_decimalRound_sub_le d)
  have htwo : (1 : ℤ) < decimalRound a := by
    have h : ((1 : ℤ) : ℚ) < decimalRound a := by
      push_cast
      linarith [(hround a).1]
    exact_mod_cast h
  have hbelow : decimalRound b < decimalRound a := by
    have h : ((decimalRound b : ℤ) : ℚ) < decimalRound a := by
      linarith [(hround a).1, (hround b).2]
    exact_mod_cast h
  have hone : decimalRound 1 = 1 := by norm_num [decimalRound]
  have hleft : roundQuota price g b ≤ max 1 (decimalRound b) := by
    simp only [roundQuota, hratio]
    split_ifs
    · exact le_max_left _ _
    · rw [hone]
      exact le_max_left _ _
    · exact le_max_left _ _
    · exact le_max_right _ _
  have hright : roundQuota price g a = decimalRound a := by
    have hpos : ¬a ≤ 0 := by linarith
    simp only [roundQuota, hratio, hpos, and_false, if_false]
    rw [if_neg]
    rintro ⟨-, hzero⟩
    omega
  rw [hright]
  exact hleft.trans_lt (max_lt htwo hbelow)

/-- Some group ratio is large enough to tell two prices apart. -/
theorem exists_roundQuota_ne {price : PriceData} (hmodel : price.modelRatio ≠ 0) {p q : ℚ}
    (hne : p ≠ q) : ∃ g, roundQuota price g (g * p) ≠ roundQuota price g (g * q) := by
  -- a scale for a positive price above another one
  have hscale {p q : ℚ} (hp : 0 < p) (hqp : q < p) :
      ∃ k : ℚ, 0 < k ∧ 2 ≤ k * p ∧ k * q + 2 ≤ k * p := by
    have hsub : 0 < p - q := sub_pos.mpr hqp
    refine ⟨2 / p + 2 / (p - q), by positivity, ?_, ?_⟩
    · have h : 2 / p * p = 2 := div_mul_cancel₀ _ hp.ne'
      have h' : 0 < 2 / (p - q) * p := by positivity
      linarith [add_mul (2 / p) (2 / (p - q)) p]
    · have h : 2 / (p - q) * (p - q) = 2 := div_mul_cancel₀ _ hsub.ne'
      have h' : 0 < 2 / p * (p - q) := by positivity
      linarith [add_mul (2 / p) (2 / (p - q)) (p - q),
        mul_sub (2 / p + 2 / (p - q)) p q]
  have htell {p q : ℚ} (hqp : q < p) :
      ∃ g, roundQuota price g (g * p) ≠ roundQuota price g (g * q) := by
    rcases lt_or_ge 0 p with hp | hp
    · obtain ⟨k, hk, htwo, hgap⟩ := hscale hp hqp
      exact ⟨k, (roundQuota_lt (mul_ne_zero hmodel hk.ne') htwo hgap).ne'⟩
    · obtain ⟨k, hk, htwo, hgap⟩ := hscale (p := -q) (q := -p) (by linarith) (by linarith)
      refine ⟨-k, (roundQuota_lt (mul_ne_zero hmodel (neg_ne_zero.mpr hk.ne')) ?_ ?_).ne⟩
      · linarith
      · linarith
  rcases lt_or_gt_of_ne hne with h | h
  · obtain ⟨g, hg⟩ := htell h
    exact ⟨g, hg.symm⟩
  · exact htell h

/-! ### The encodings agree -/

/-- The price of a usage for a group ratio of `1`, by the value of the input. -/
def priceOf (st : Setting) (info : RelayInfo) (output : ℤ) (inputValue : ℚ) : ℚ :=
  ((if info.priceData.usePrice then info.priceData.modelPrice * st.quotaPerUnit
    else (inputValue + output * info.priceData.completionRatio) * info.priceData.modelRatio) +
    toolCallPrice st info) * info.priceData.otherRatios.prod

theorem flaggedQuota_eq {value : ℚ} (g : ℚ)
    (haudio : usage.audioTokens = 0) (htotal : usage.promptTokens + usage.completionTokens ≠ 0)
    (hprompt : promptQuota st (info.flagged g f) (usage.flagged f) = value) :
    flaggedQuota st info g f usage =
      roundQuota info.priceData g (g * priceOf st info usage.completionTokens value) := by
  have htotal' : (usage.flagged f).promptTokens + (usage.flagged f).completionTokens ≠ 0 := htotal
  rw [flaggedQuota, textQuota, if_neg htotal', quotaDecimal_flagged haudio, hprompt, mul_assoc]
  rfl

theorem modelRatio_ne_zero (h : estimated st info t cost ≠ 0) : info.priceData.modelRatio ≠ 0 := by
  rw [estimated] at h
  split_ifs at h with hmade
  · intro hzero
    exact hmade.2.2.2.2.2.1 (by rw [hzero, zero_div])
  · exact absurd rfl h

/-- **One usage has one quota in all encodings**, exactly if OpenRouter's cost of `0` is ignored. -/
theorem encodingsAgree_iff (st : Setting) (info : RelayInfo) {t : TrueUsage} {cost : Cost}
    (hpos : t.uncached + t.output ≠ 0)
    (hcost : cost = .nil ∨ cost = .int 0 ∨ cost = .float 0) :
    EncodingsAgree st info t cost ↔ CostIgnored st info t cost := by
  have hvalue : cost.value = 0 := by rcases hcost with rfl | rfl | rfl <;> rfl
  have hexclusive : (t.exclusive cost).promptTokens + (t.exclusive cost).completionTokens ≠ 0 := by
    show (t.uncached : ℤ) + t.output ≠ 0
    omega
  have hinclusive : (t.inclusive cost).promptTokens + (t.inclusive cost).completionTokens ≠ 0 := by
    show (t.uncached + t.cached + t.write : ℤ) + t.output ≠ 0
    omega
  constructor
  · intro h
    by_contra hcon
    obtain ⟨hest, hratio, hprice, hmodel, hprod⟩ := not_costIgnored_iff.mp hcon
    let router : Flags := ⟨"claude", some channelTypeOpenRouter, "anthropic", ""⟩
    let claude : Flags := ⟨"claude", none, "anthropic", ""⟩
    have hrouter : router.IsOpenRouter := ⟨rfl, rfl⟩
    have hclaude : claude.IsClaude := ⟨rfl, nofun⟩
    let value : ℚ := t.inputValue info.priceData
    let missed : ℚ := estimated st info t cost * (1 - info.priceData.cacheCreationRatio)
    have hmissed : missed ≠ 0 := by
      refine mul_ne_zero ?_ (sub_ne_zero.mpr (Ne.symm hratio))
      exact_mod_cast hest.ne'
    have hne : priceOf st info t.output (value - missed) ≠ priceOf st info t.output value := by
      intro heq
      rw [priceOf, priceOf, hprice] at heq
      have hsame := mul_right_cancel₀ hmodel (add_right_cancel (mul_right_cancel₀ hprod heq))
      exact hmissed (by linarith)
    obtain ⟨g, hg⟩ := exists_roundQuota_ne hmodel hne
    refine hg ?_
    have hagree := h.openRouter g router claude hrouter hclaude
    rw [flaggedQuota_eq g rfl hinclusive (promptQuota_openRouter hrouter hvalue),
      flaggedQuota_eq g rfl hexclusive (promptQuota_claude hclaude)] at hagree
    exact hagree
  · intro h
    refine ⟨fun g a c ha hc => ?_, fun g a c ha hc => ?_, fun hsplit g a c ha hc => ?_⟩
    · rw [flaggedQuota_eq g rfl hinclusive (promptQuota_openAI ha),
        flaggedQuota_eq g rfl hexclusive (promptQuota_claude hc)]
      rfl
    · rw [flaggedQuota_eq g rfl hinclusive (promptQuota_openRouter ha hvalue),
        flaggedQuota_eq g rfl hexclusive (promptQuota_claude hc)]
      by_cases hmissed : (estimated st info t cost : ℚ) *
        (1 - info.priceData.cacheCreationRatio) = 0
      · rw [hmissed, sub_zero]
        rfl
      · -- the price of the input does not count
        have hest : estimated st info t cost ≠ 0 := fun hzero => hmissed (by rw [hzero]; simp)
        have hratio : info.priceData.cacheCreationRatio ≠ 1 := fun hone =>
          hmissed (by rw [hone, sub_self, mul_zero])
        by_cases hprice : info.priceData.usePrice = true
        · rw [priceOf, priceOf, if_pos hprice, if_pos hprice]
        · have hprod : info.priceData.otherRatios.prod = 0 := by
            by_contra hprod
            exact not_costIgnored_iff.mpr ⟨lt_of_le_of_ne estimated_nonneg hest.symm, hratio,
              Bool.eq_false_iff.mpr hprice, modelRatio_ne_zero hest, hprod⟩ h
          simp only [priceOf, hprod, mul_zero]
    · have hlegacy : isInclusive (info.flagged g a) ((t.split cost).flagged a) = false := by
        have hmark : isLegacyClaudeDerivedOpenAIUsage (info.flagged g a)
            ((t.split cost).flagged a) = true := by
          refine decide_eq_true ⟨ha.1, ha.2.2, ha.2.1, ?_⟩
          show 0 < (t.write5m : ℤ) ∨ 0 < (t.write1h : ℤ)
          omega
        rw [isInclusive, hmark, Bool.not_true, Bool.and_false]
      have hrouter : ¬a.IsOpenRouter := by
        rintro ⟨hsemantic, -⟩
        rw [Flags.semantic, ha.2.1, if_neg (not_not.mpr rfl), if_neg ha.1] at hsemantic
        exact absurd hsemantic (by decide)
      have hrouter' : ¬c.IsOpenRouter := fun hrouter => hc.2 hrouter.2
      have htotal : (t.split cost).promptTokens + (t.split cost).completionTokens ≠ 0 := hexclusive
      have hleft : promptQuota st (info.flagged g a) ((t.split cost).flagged a) = _ :=
        promptQuota_split hrouter hlegacy
      have hright : promptQuota st (info.flagged g c) ((t.split cost).flagged c) = _ :=
        promptQuota_split hrouter' (isInclusive_of_claude hc.1)
      rw [flaggedQuota_eq g rfl htotal hleft, flaggedQuota_eq g rfl htotal hright]

/-! ### Two models -/

/-- No tools are charged, and the ratio of the model is the default one. -/
def plainSetting : Setting where
  quotaPerUnit := 500000
  getToolPriceForModel _ _ := 0
  getToolPrice _ := 0
  getGPTImage1PriceOnceCall _ _ := 0
  getGeminiInputAudioPricePerMillionTokens _ := 0
  getDefaultModelRatio _ := some 1

def cachingModel (cacheCreationRatio : ℚ) : RelayInfo where
  originModelName := "claude-sonnet-4"
  priceData :=
    { modelRatio := 1
      completionRatio := 5
      cacheRatio := 1 / 10
      cacheCreationRatio
      cacheCreation5mRatio := cacheCreationRatio
      cacheCreation1hRatio := cacheCreationRatio * (8 / 5) }
  groupRatio := 1
  finalRequestRelayFormat := ""
  channelType := none

/-- Cache writes that are dearer than the input are never estimated. -/
theorem encodingsAgree_dearer :
    EncodingsAgree plainSetting (cachingModel (5 / 4)) ⟨1000, 200, 0, 0, 0, 100⟩ (.float 0) := by
  refine (encodingsAgree_iff _ _ (by decide) (.inr (.inr rfl))).mpr ?_
  refine .inr (.inr (.inr (.inr (.inr (.inr (.inr (.inl ?_)))))))
  norm_num [TrueUsage.estimate, cachingModel]

/-- **A prompt without output, of a model that writes its cache for free**: OpenRouter's cost of
`0` makes cache writes of all its tokens. -/
theorem not_encodingsAgree :
    ¬EncodingsAgree plainSetting (cachingModel 0) ⟨1000, 0, 0, 0, 0, 0⟩ (.float 0) := by
  intro h
  have hquota := h.openRouter 1 ⟨"claude", some channelTypeOpenRouter, "anthropic", ""⟩
    ⟨"claude", none, "anthropic", ""⟩ ⟨rfl, rfl⟩ ⟨rfl, nofun⟩
  exact absurd hquota (by decide +kernel)

end NewApiPool.Billing.Text
