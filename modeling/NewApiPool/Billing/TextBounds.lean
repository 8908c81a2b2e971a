import Mathlib.Algebra.Order.BigOperators.GroupWithZero.List
import NewApiPool.Billing.Encodings

/-!
# The bounds of a text quota

With counts and prices that are not negative the quota of a text request is not negative, is at
least `1` where the ratio is not `0`, and does not fall when more is used
(`quotaBounds_of_fits`). The tokens are subtracted from each other class by class, but a
difference that is negative is never charged: the quota is `1` then.

Two things stand in the way. The rounded quota is an `int`, so all of this is about amounts
that fit. And OpenRouter's cache writes, if none are reported, are what the output leaves of the
cost: more output is fewer of them, and as they are rounded to whole tokens the quota can fall
(`quota_falls`).
-/

namespace NewApiPool.Billing.Text

/-! ### Prices, counts and the summary -/

/-- No price and no ratio is negative. -/
structure Nonneg (st : Setting) (info : RelayInfo) : Prop where
  quotaPerUnit : 0 ≤ st.quotaPerUnit
  toolPriceForModel : ∀ tool model, 0 ≤ st.getToolPriceForModel tool model
  toolPrice : ∀ tool, 0 ≤ st.getToolPrice tool
  imagePrice : ∀ quality size, 0 ≤ st.getGPTImage1PriceOnceCall quality size
  audioPrice : ∀ model, 0 ≤ st.getGeminiInputAudioPricePerMillionTokens model
  groupRatio : 0 ≤ info.groupRatio
  modelPrice : 0 ≤ info.priceData.modelPrice
  modelRatio : 0 ≤ info.priceData.modelRatio
  completionRatio : 0 ≤ info.priceData.completionRatio
  cacheRatio : 0 ≤ info.priceData.cacheRatio
  cacheCreationRatio : 0 ≤ info.priceData.cacheCreationRatio
  cacheCreation5mRatio : 0 ≤ info.priceData.cacheCreation5mRatio
  cacheCreation1hRatio : 0 ≤ info.priceData.cacheCreation1hRatio
  imageRatio : 0 ≤ info.priceData.imageRatio
  otherRatios : ∀ ratio ∈ info.priceData.otherRatios, 0 ≤ ratio

/-- No count is negative. -/
structure Usage.Counted (usage : Usage) : Prop where
  promptTokens : 0 ≤ usage.promptTokens
  completionTokens : 0 ≤ usage.completionTokens
  cachedTokens : 0 ≤ usage.cachedTokens
  cachedCreationTokens : 0 ≤ usage.cachedCreationTokens
  imageTokens : 0 ≤ usage.imageTokens
  audioTokens : 0 ≤ usage.audioTokens
  claudeCacheCreation5mTokens : 0 ≤ usage.claudeCacheCreation5mTokens
  claudeCacheCreation1hTokens : 0 ≤ usage.claudeCacheCreation1hTokens

/-- The classes of the input are among the prompt tokens. -/
def Usage.WithinPrompt (usage : Usage) : Prop :=
  usage.cachedTokens + usage.cachedCreationTokens + usage.imageTokens + usage.audioTokens ≤
    usage.promptTokens

instance decidableWithinPrompt (usage : Usage) : Decidable usage.WithinPrompt :=
  inferInstanceAs (Decidable (_ ≤ _))

/-- `Decimal.IntPart`: the low 64 bits. -/
def intPart (n : ℤ) : ℤ := n.bmod (2 ^ 64)

/-- The quota before it is rounded: one that is not positive counts as `1`, unless the ratio
is `0`. -/
def charged (price : PriceData) (groupRatio decimal : ℚ) : ℚ :=
  if !price.usePrice ∧ ¬price.modelRatio * groupRatio = 0 ∧ decimal ≤ 0 then 1 else decimal

/-- `calculateTextQuotaSummary`: the `Quota`, an `int`. -/
def summaryQuota (st : Setting) (info : RelayInfo) (usage : Usage) : ℤ :=
  let ratio := info.priceData.modelRatio * info.groupRatio
  let quota := intPart
    (decimalRound (charged info.priceData info.groupRatio (quotaDecimal st info usage)))
  if usage.promptTokens + usage.completionTokens = 0 then 0
  else if ¬ratio = 0 ∧ quota = 0 then 1
  else quota

/-- The rounded quota fits in an `int`. -/
def Fits (st : Setting) (info : RelayInfo) (usage : Usage) : Prop :=
  decimalRound (quotaDecimal st info usage) < 2 ^ 63

instance decidableFits (st : Setting) (info : RelayInfo) (usage : Usage) :
    Decidable (Fits st info usage) :=
  inferInstanceAs (Decidable (_ < _))

/-- The cost is read for the cache writes. A usage without a cost passes the comparison with `0`
as well, since it is one of an interface with an `int`. -/
def ReadsCost (st : Setting) (info : RelayInfo) (usage : Usage) : Prop :=
  isOpenRouterClaudeBilling info usage = true ∧ usage.cachedCreationTokens = 0 ∧
    info.priceData.cacheCreationRatio ≠ 1 ∧ usage.cost ≠ .int 0 ∧
    (info.priceData.usePrice || hasCustomModelRatio st info) = false

/-- The cache writes are estimated from a cost. -/
def IsEstimated (st : Setting) (info : RelayInfo) (usage : Usage) : Prop :=
  ReadsCost st info usage ∧ usage.cost.value ≠ 0

/-- The prompt tokens without the cached ones, which some encodings count among them. -/
def uncachedTokens (info : RelayInfo) (usage : Usage) : ℤ :=
  if isInclusive info usage || isOpenRouterClaudeBilling info usage then
    usage.promptTokens - usage.cachedTokens
  else usage.promptTokens

/-- No tool is called less often. -/
structure ToolContext.Le (tools tools' : ToolContext) : Prop where
  isSome : tools.responsesUsageInfo.isSome = tools'.responsesUsageInfo.isSome
  builtIn : ∀ t ∈ tools.responsesUsageInfo, ∀ t' ∈ tools'.responsesUsageInfo,
    t.webSearchPreview ≤ t'.webSearchPreview ∧ t.fileSearch ≤ t'.fileSearch
  claudeWebSearch : tools.claudeWebSearchRequests ≤ tools'.claudeWebSearchRequests
  imageGeneration :
    tools.imageGenerationCall = none ∨ tools.imageGenerationCall = tools'.imageGenerationCall

def RelayInfo.withTools (info : RelayInfo) (tools : ToolContext) : RelayInfo := { info with tools }

/-- A usage with other tokens. -/
def Usage.withTokens (usage : Usage) (promptTokens cachedTokens completionTokens : ℤ) : Usage :=
  { usage with promptTokens, cachedTokens, completionTokens }

/-- **The bounds of the quota**, for amounts that fit. -/
structure QuotaBounds (st : Setting) (info : RelayInfo) (usage : Usage) : Prop where
  nonneg : 0 ≤ summaryQuota st info usage
  one_le : info.priceData.modelRatio * info.groupRatio ≠ 0 →
    usage.promptTokens + usage.completionTokens ≠ 0 → 1 ≤ summaryQuota st info usage
  zero : usage.promptTokens + usage.completionTokens = 0 → summaryQuota st info usage = 0
  completion : ¬IsEstimated st info usage → ∀ n, usage.completionTokens ≤ n →
    Fits st info { usage with completionTokens := n } →
    summaryQuota st info usage ≤ summaryQuota st info { usage with completionTokens := n }
  cached : ¬IsEstimated st info usage → ∀ usage',
    usage' = usage.withTokens usage'.promptTokens usage'.cachedTokens usage.completionTokens →
    usage'.Counted → usage.cachedTokens ≤ usage'.cachedTokens →
    uncachedTokens info usage ≤ uncachedTokens info usage' → Fits st info usage' →
    summaryQuota st info usage ≤ summaryQuota st info usage'
  tools : ∀ tools, info.tools.Le tools → Fits st (info.withTools tools) usage →
    summaryQuota st info usage ≤ summaryQuota st (info.withTools tools) usage

/-! ### Rounding -/

theorem decimalRound_mono {a b : ℚ} (h : a ≤ b) : decimalRound a ≤ decimalRound b := by
  rw [decimalRound, decimalRound]
  split_ifs with ha hb hb
  · exact Int.floor_mono (by linarith)
  · exact absurd (ha.trans h) hb
  · have hneg : 0 ≤ ⌊-a + 1 / 2⌋ := Int.floor_nonneg.2 (by linarith)
    have hpos : 0 ≤ ⌊b + 1 / 2⌋ := Int.floor_nonneg.2 (by linarith)
    omega
  · exact neg_le_neg (Int.floor_mono (by linarith))

theorem decimalRound_one : decimalRound 1 = 1 := by norm_num [decimalRound]

section Round

variable {price : PriceData} {g a b : ℚ}

theorem roundQuota_eq : roundQuota price g a =
    if ¬price.modelRatio * g = 0 ∧ decimalRound (charged price g a) = 0 then 1
    else decimalRound (charged price g a) :=
  rfl

/-- A quota that is not free is at least `1` once it is not negative. -/
theorem ite_free_mono {free : Prop} [Decidable free] {m n : ℤ} (h : m ≤ n) :
    (if ¬free ∧ m = 0 then 1 else m) ≤ if ¬free ∧ n = 0 then 1 else n := by
  by_cases hfree : free
  · simpa [hfree] using h
  · simp only [hfree, not_false_eq_true, true_and]
    split_ifs <;> omega

theorem roundQuota_mono (h : a ≤ b) : roundQuota price g a ≤ roundQuota price g b := by
  have hround := decimalRound_mono h
  rw [roundQuota_eq, roundQuota_eq, charged, charged]
  by_cases hadjusted : (!price.usePrice) = true ∧ ¬price.modelRatio * g = 0
  · obtain ⟨huse, hfree⟩ := hadjusted
    simp only [huse, hfree, not_false_eq_true, true_and]
    by_cases ha : a ≤ 0
    · have hb : 0 ≤ decimalRound (if b ≤ 0 then 1 else b) := by
        split_ifs with hb
        · exact decimalRound_one.symm ▸ zero_le_one
        · exact decimalRound_nonneg (not_le.1 hb).le
      rw [if_pos ha, decimalRound_one, if_neg one_ne_zero]
      generalize decimalRound (if b ≤ 0 then 1 else b) = n at hb
      split_ifs <;> omega
    · have hb : ¬b ≤ 0 := fun hb => ha (h.trans hb)
      rw [if_neg ha, if_neg hb]
      split_ifs <;> omega
  · have ha : ¬((!price.usePrice) = true ∧ ¬price.modelRatio * g = 0 ∧ a ≤ 0) :=
      fun h => hadjusted ⟨h.1, h.2.1⟩
    have hb : ¬((!price.usePrice) = true ∧ ¬price.modelRatio * g = 0 ∧ b ≤ 0) :=
      fun h => hadjusted ⟨h.1, h.2.1⟩
    rw [if_neg ha, if_neg hb]
    exact ite_free_mono hround

end Round

theorem intPart_of_lt {n : ℤ} (hn : 0 ≤ n) (hlt : n < 2 ^ 63) : intPart n = n := by
  rw [intPart, Int.bmod_eq_of_le_mul_two] <;> omega

/-! ### The amounts -/

section Amounts

variable {st : Setting} {info : RelayInfo} {usage : Usage}

theorem toolCallSurchargeQuota_nonneg (h : Nonneg st info) :
    0 ≤ toolCallSurchargeQuota st info := by
  have hpreview := h.toolPriceForModel "web_search_preview" info.originModelName
  have hweb := h.toolPrice "web_search"
  have hfile := h.toolPrice "file_search"
  have hunit := h.quotaPerUnit
  have hgroup := h.groupRatio
  rw [toolCallSurchargeQuota, toolCallPrice]
  refine mul_nonneg (mul_nonneg (add_nonneg (add_nonneg (add_nonneg ?_ ?_) ?_) ?_) hunit) hgroup
  · split
    · positivity
    · split_ifs
      · positivity
      · exact le_rfl
  · positivity
  · split
    · positivity
    · exact le_rfl
  · split
    · exact h.imagePrice _ _
    · exact le_rfl

theorem audioInputPrice_nonneg (h : Nonneg st info) (hcounts : usage.Counted) :
    0 ≤ audioInputPrice st info usage := by
  have hprice := h.audioPrice info.originModelName
  have haudio : (0 : ℚ) ≤ pricedAudioTokens st info usage := by
    rw [pricedAudioTokens]
    split_ifs
    · exact_mod_cast hcounts.audioTokens
    · exact le_rfl
  have hunit := h.quotaPerUnit
  rw [audioInputPrice]
  positivity

/-- **An amount is negative only where it counts as `1`.** -/
theorem charged_nonneg (h : Nonneg st info) (hcounts : usage.Counted) :
    0 ≤ charged info.priceData info.groupRatio (quotaDecimal st info usage) := by
  have hsurcharge := toolCallSurchargeQuota_nonneg h
  have haudio := audioInputPrice_nonneg h hcounts
  have hothers : 0 ≤ info.priceData.otherRatios.prod := List.prod_nonneg h.otherRatios
  have hunit := h.quotaPerUnit
  have hgroup := h.groupRatio
  have hprice := h.modelPrice
  rw [charged]
  split_ifs with hlow
  · exact zero_le_one
  · by_cases huse : info.priceData.usePrice = true
    · simp only [quotaDecimal, huse, if_true]
      positivity
    · by_cases hfree : info.priceData.modelRatio * info.groupRatio = 0
      · simp only [quotaDecimal, huse, if_false, Bool.false_eq_true, hfree, mul_zero, zero_add]
        positivity
      · exact (not_le.1 fun hle => hlow ⟨by simp [huse], hfree, hle⟩).le

theorem summaryQuota_eq (h : Nonneg st info) (hcounts : usage.Counted)
    (hfits : Fits st info usage) : summaryQuota st info usage = textQuota st info usage := by
  have hround := decimalRound_nonneg (charged_nonneg h hcounts)
  have hlt : decimalRound (charged info.priceData info.groupRatio (quotaDecimal st info usage)) <
      2 ^ 63 := by
    rw [charged]
    split_ifs
    · exact decimalRound_one.symm ▸ by norm_num
    · exact hfits
  rw [summaryQuota, intPart_of_lt hround hlt, textQuota, roundQuota_eq]

theorem textQuota_nonneg (h : Nonneg st info) (hcounts : usage.Counted) :
    0 ≤ textQuota st info usage := by
  have hround := decimalRound_nonneg (charged_nonneg h hcounts)
  rw [textQuota, roundQuota_eq]
  split_ifs <;> omega

theorem one_le_textQuota (h : Nonneg st info) (hcounts : usage.Counted)
    (hratio : info.priceData.modelRatio * info.groupRatio ≠ 0)
    (htotal : usage.promptTokens + usage.completionTokens ≠ 0) : 1 ≤ textQuota st info usage := by
  have hround := decimalRound_nonneg (charged_nonneg h hcounts)
  rw [textQuota, if_neg htotal, roundQuota_eq]
  simp only [hratio, not_false_eq_true, true_and]
  split_ifs <;> omega

/-! ### More use -/

theorem promptAndCacheCreation_of_not_readsCost (h : ¬ReadsCost st info usage) :
    promptAndCacheCreation st info usage =
      (if isOpenRouterClaudeBilling info usage then
        usage.promptTokens - usage.cachedTokens - usage.cachedCreationTokens
      else usage.promptTokens, usage.cachedCreationTokens) := by
  rw [promptAndCacheCreation]
  by_cases hrouter : isOpenRouterClaudeBilling info usage = true
  · have hnot (p : Prop) (hp : p) : ¬(usage.cachedCreationTokens = 0 ∧
        info.priceData.cacheCreationRatio ≠ 1 ∧ usage.cost ≠ .int 0 ∧
        (!(info.priceData.usePrice || hasCustomModelRatio st info)) = true ∧ p) :=
      fun hall => h ⟨hrouter, hall.1, hall.2.1, hall.2.2.1, by simpa using hall.2.2.2.1⟩
    rw [if_pos hrouter, if_pos hrouter]
    simp only
    split_ifs with hall
    · exact absurd hall (hnot _ hall.2.2.2.2)
    · rfl
  · rw [if_neg hrouter, if_neg hrouter]

/-- The input, by what is uncached, what is cached, and the rest of the usage. -/
theorem exists_promptQuota_eq (h : ¬ReadsCost st info usage) :
    ∃ rest : ℚ, ∀ promptTokens cachedTokens completionTokens,
      promptQuota st info (usage.withTokens promptTokens cachedTokens completionTokens) =
        uncachedTokens info (usage.withTokens promptTokens cachedTokens completionTokens) +
          cachedTokens * info.priceData.cacheRatio + rest := by
  refine ⟨promptQuota st info usage - uncachedTokens info usage -
    usage.cachedTokens * info.priceData.cacheRatio, fun promptTokens cachedTokens n => ?_⟩
  have hnot : ¬ReadsCost st info (usage.withTokens promptTokens cachedTokens n) := h
  have hinclusive : isInclusive info (usage.withTokens promptTokens cachedTokens n) =
    isInclusive info usage := rfl
  have hrouter : isOpenRouterClaudeBilling info (usage.withTokens promptTokens cachedTokens n) =
    isOpenRouterClaudeBilling info usage := rfl
  -- the two kinds of billing exclude each other, so that three cases are left
  have hclaude : isInclusive info usage = true → isOpenRouterClaudeBilling info usage = false := by
    intro hinclusive
    rw [isInclusive, Bool.and_eq_true, Bool.not_eq_true'] at hinclusive
    rw [isOpenRouterClaudeBilling, hinclusive.1]
    simp
  have haudio : pricedAudioTokens st info (usage.withTokens promptTokens cachedTokens n) =
    pricedAudioTokens st info usage := rfl
  rw [promptQuota, promptQuota, promptAndCacheCreation_of_not_readsCost h,
    promptAndCacheCreation_of_not_readsCost hnot]
  simp only [uncachedTokens, hinclusive, hrouter, haudio]
  simp only [Usage.withTokens]
  generalize isInclusive info usage = inclusive at hclaude
  generalize isOpenRouterClaudeBilling info usage = router at hclaude
  cases inclusive with
  | true =>
    rw [hclaude rfl]
    simp only [Bool.true_or, if_true, Bool.false_eq_true, if_false]
    push_cast
    ring
  | false =>
    cases router with
    | true =>
      simp only [Bool.or_true, if_true, Bool.false_eq_true, if_false]
      push_cast
      ring
    | false =>
      simp only [Bool.or_false, Bool.false_eq_true, if_false]
      push_cast
      ring

variable {completionTokens : ℤ}

/-- The input is worth more with more that is cached, and no less that is uncached. -/
theorem promptQuota_withTokens_le (h : Nonneg st info) (hreads : ¬ReadsCost st info usage)
    {promptTokens cachedTokens : ℤ} (hcached : usage.cachedTokens ≤ cachedTokens)
    (huncached : uncachedTokens info usage ≤
      uncachedTokens info (usage.withTokens promptTokens cachedTokens completionTokens)) :
    promptQuota st info usage ≤
      promptQuota st info (usage.withTokens promptTokens cachedTokens completionTokens) := by
  obtain ⟨rest, hrest⟩ := exists_promptQuota_eq hreads
  have hself := hrest usage.promptTokens usage.cachedTokens usage.completionTokens
  have huncached' : (uncachedTokens info usage : ℚ) ≤
      uncachedTokens info (usage.withTokens promptTokens cachedTokens completionTokens) := by
    exact_mod_cast huncached
  have hcached' : (usage.cachedTokens : ℚ) ≤ cachedTokens := by exact_mod_cast hcached
  rw [hrest]
  refine (le_of_eq hself).trans ?_
  exact add_le_add_left (add_le_add huncached'
    (mul_le_mul_of_nonneg_right hcached' h.cacheRatio)) rest

/-! ### A cost of `0`

Where there is no cost to divide, the estimate is the number of cache writes for which all of the
request would cost `0`. It is only taken if there are that many uncached tokens, and then it is
all of them: more use is then never cheaper. -/

/-- The cache writes that are read off a cost of `0`. -/
def freeWrites (st : Setting) (info : RelayInfo) (usage : Usage) : ℤ :=
  let price := info.priceData
  let uncached := usage.promptTokens - usage.cachedTokens
  if price.modelRatio / st.quotaPerUnit ≠ 0 ∧ 0 ≤ uncached ∧
      usage.restValue price + uncached * price.cacheCreationRatio <
        (1 - price.cacheCreationRatio) / 2 then uncached
  else 0

theorem restValue_nonneg (h : Nonneg st info) (hcounts : usage.Counted) :
    0 ≤ usage.restValue info.priceData := by
  have hcached : (0 : ℚ) ≤ usage.cachedTokens := by exact_mod_cast hcounts.cachedTokens
  have hcompletion : (0 : ℚ) ≤ usage.completionTokens := by
    exact_mod_cast hcounts.completionTokens
  exact add_nonneg (mul_nonneg hcached h.cacheRatio) (mul_nonneg hcompletion h.completionRatio)

/-- **The rounded estimate is among the uncached tokens only where it is all of them.** -/
theorem ite_decimalRound_eq {n : ℤ} {rest ratio : ℚ} (hrest : 0 ≤ rest) (hratio : 0 ≤ ratio)
    (hne : ratio ≠ 1) :
    (if 0 ≤ decimalRound ((n + rest) / (1 - ratio)) ∧
        decimalRound ((n + rest) / (1 - ratio)) ≤ n then
      decimalRound ((n + rest) / (1 - ratio)) else 0) =
      if 0 ≤ n ∧ rest + n * ratio < (1 - ratio) / 2 then n else 0 := by
  by_cases hn : 0 ≤ n
  · have hn' : (0 : ℚ) ≤ n := by exact_mod_cast hn
    have hmul := mul_nonneg hn' hratio
    -- the estimate is no less than `n` for a ratio below 1, and not positive above it
    obtain hlt | hgt := lt_or_gt_of_ne hne
    · have hpos : 0 < 1 - ratio := by linarith
      have hle : (n : ℚ) ≤ (n + rest) / (1 - ratio) := by
        rw [le_div_iff₀ hpos]
        linarith
      by_cases hsmall : rest + n * ratio < (1 - ratio) / 2
      · have hround : decimalRound ((n + rest) / (1 - ratio)) = n := by
          rw [decimalRound, if_pos (hn'.trans hle), Int.floor_eq_iff]
          refine ⟨by linarith, ?_⟩
          have hhalf : (n + rest) / (1 - ratio) < n + 1 / 2 := by
            rw [div_lt_iff₀ hpos]
            linarith
          linarith
        rw [hround, if_pos ⟨hn, le_rfl⟩, if_pos ⟨hn, hsmall⟩]
      · have hmore : n + 1 ≤ decimalRound ((n + rest) / (1 - ratio)) := by
          rw [le_decimalRound_iff (by omega), le_div_iff₀ hpos]
          push_cast
          linarith
        rw [if_neg fun hmade => absurd hmade.2 (by omega), if_neg fun hmade => hsmall hmade.2]
    · have hnonpos : (n + rest) / (1 - ratio) ≤ 0 :=
        div_nonpos_of_nonneg_of_nonpos (add_nonneg hn' hrest) (by linarith)
      have hround := decimalRound_mono hnonpos
      rw [show decimalRound 0 = 0 by norm_num [decimalRound]] at hround
      rw [if_neg (fun hmade => absurd hmade.2 (by linarith) :
        ¬(0 ≤ n ∧ rest + n * ratio < (1 - ratio) / 2))]
      split_ifs <;> omega
  · rw [if_neg fun hmade => hn (hmade.1.trans hmade.2), if_neg fun hmade => hn hmade.1]

theorem promptAndCacheCreation_of_cost_zero (h : Nonneg st info) (hcounts : usage.Counted)
    (hreads : ReadsCost st info usage) (hcost : usage.cost.value = 0) :
    promptAndCacheCreation st info usage =
      (usage.promptTokens - usage.cachedTokens - freeWrites st info usage,
        freeWrites st info usage) := by
  obtain ⟨hrouter, hwrite, hratio, hint, hcustom⟩ := hreads
  have hwrites : (if usage.cachedCreationTokens = 0 ∧ info.priceData.cacheCreationRatio ≠ 1 ∧
      usage.cost ≠ .int 0 ∧ (!(info.priceData.usePrice || hasCustomModelRatio st info)) = true ∧
      0 ≤ calcOpenRouterCacheCreateTokens st usage info.priceData ∧
      calcOpenRouterCacheCreateTokens st usage info.priceData ≤
        usage.promptTokens - usage.cachedTokens then
      calcOpenRouterCacheCreateTokens st usage info.priceData
      else usage.cachedCreationTokens) = freeWrites st info usage := by
    simp only [hwrite, hratio, hint, hcustom, Bool.not_false, true_and, Ne, not_false_eq_true]
    rw [freeWrites]
    by_cases hprice : info.priceData.modelRatio / st.quotaPerUnit = 0
    · rw [calcOpenRouterCacheCreateTokens_of_free hcost hprice, if_neg (c := _ ≠ _ ∧ _)
        fun hmade => hmade.1 hprice, ite_self]
    · rw [calcOpenRouterCacheCreateTokens_of_cost_zero hratio hcost hprice,
        ite_decimalRound_eq (restValue_nonneg h hcounts) h.cacheCreationRatio hratio]
      simp only [hprice, Ne, not_false_eq_true, true_and]
  rw [promptAndCacheCreation, if_pos hrouter]
  exact congrArg (fun writes => (usage.promptTokens - usage.cachedTokens - writes, writes)) hwrites

/-- The uncached tokens, those that are cache writes at their own ratio, but for those whose
lifetime is reported. -/
def inputValue (ratio : ℚ) (split uncached writes : ℤ) : ℚ :=
  uncached - writes + (max (writes - split) 0 : ℤ) * ratio

/-- The input, by its uncached tokens, what is cached, and the rest of the usage. -/
theorem exists_promptQuota_of_cost_zero (h : Nonneg st info) (hcounts : usage.Counted)
    (hreads : ReadsCost st info usage) (hcost : usage.cost.value = 0) :
    ∃ (split : ℤ) (rest : ℚ), 0 ≤ split ∧ ∀ promptTokens cachedTokens completionTokens,
      (usage.withTokens promptTokens cachedTokens completionTokens).Counted →
      promptQuota st info (usage.withTokens promptTokens cachedTokens completionTokens) =
        inputValue info.priceData.cacheCreationRatio split (promptTokens - cachedTokens)
          (freeWrites st info (usage.withTokens promptTokens cachedTokens completionTokens)) +
        cachedTokens * info.priceData.cacheRatio + rest := by
  have hsplit := hcounts.claudeCacheCreation5mTokens
  have hsplit' := hcounts.claudeCacheCreation1hTokens
  refine ⟨usage.claudeCacheCreation5mTokens + usage.claudeCacheCreation1hTokens,
    usage.imageTokens * info.priceData.imageRatio - usage.imageTokens -
      pricedAudioTokens st info usage +
      usage.claudeCacheCreation5mTokens * info.priceData.cacheCreation5mRatio +
      usage.claudeCacheCreation1hTokens * info.priceData.cacheCreation1hRatio,
    add_nonneg hsplit hsplit', fun promptTokens cachedTokens completionTokens hcounts' => ?_⟩
  have hexclusive : isInclusive info (usage.withTokens promptTokens cachedTokens completionTokens) =
      false := by
    have hrouter := hreads.1
    rw [isOpenRouterClaudeBilling, Bool.decide_and, Bool.and_eq_true] at hrouter
    have hclaude : isClaudeUsageSemantic info usage = true := by simpa using hrouter.2
    have hclaude' : isClaudeUsageSemantic info
        (usage.withTokens promptTokens cachedTokens completionTokens) = true := hclaude
    rw [isInclusive, hclaude']
    rfl
  have haudio : pricedAudioTokens st info
      (usage.withTokens promptTokens cachedTokens completionTokens) =
      pricedAudioTokens st info usage := rfl
  rw [promptQuota, promptAndCacheCreation_of_cost_zero h hcounts' hreads hcost]
  generalize freeWrites st info (usage.withTokens promptTokens cachedTokens completionTokens) =
    writes
  simp only [hexclusive, haudio, Bool.false_eq_true, if_false, inputValue]
  -- an estimate is made where none of the writes is reported, so that there is no split either
  split_ifs with hnone
  · simp only [Usage.withTokens] at hnone ⊢
    obtain ⟨rfl, hnosplit⟩ := hnone
    have hzero : usage.claudeCacheCreation5mTokens = 0 := by omega
    have hzero' : usage.claudeCacheCreation1hTokens = 0 := by omega
    rw [hzero, hzero']
    push_cast
    simp only [add_zero, sub_zero, max_self]
    ring
  · simp only [Usage.withTokens, sub_sub]
    push_cast
    ring

/-- **More is worth more**, whatever of it becomes cache writes. -/
theorem inputValue_add_le {ratio rest rest' : ℚ} {split n n' : ℤ} (made : Prop) [Decidable made]
    (hratio : 0 ≤ ratio) (hrest : 0 ≤ rest) (hrest' : rest ≤ rest') (hn : n ≤ n')
    (hsplit : 0 ≤ split) :
    inputValue ratio split n
        (if made ∧ 0 ≤ n ∧ rest + n * ratio < (1 - ratio) / 2 then n else 0) + rest ≤
      inputValue ratio split n'
        (if made ∧ 0 ≤ n' ∧ rest' + n' * ratio < (1 - ratio) / 2 then n' else 0) + rest' := by
  have hn' : (n : ℚ) ≤ n' := by exact_mod_cast hn
  have hzero : max (0 - split) 0 = 0 := by omega
  simp only [inputValue]
  by_cases hmade' : made ∧ 0 ≤ n' ∧ rest' + n' * ratio < (1 - ratio) / 2
  · -- All of the larger input is cache writes: so is all of the smaller one, or it is negative.
    rw [if_pos hmade']
    have hpos' : (0 : ℚ) ≤ (max (n' - split) 0 : ℤ) * ratio :=
      mul_nonneg (by exact_mod_cast le_max_right _ _) hratio
    by_cases hneg : 0 ≤ n
    · have hmul := mul_le_mul_of_nonneg_right hn' hratio
      rw [if_pos ⟨hmade'.1, hneg, by linarith [hmade'.2.2]⟩]
      have hwrites : ((max (n - split) 0 : ℤ) : ℚ) * ratio ≤ (max (n' - split) 0 : ℤ) * ratio :=
        mul_le_mul_of_nonneg_right (by exact_mod_cast (by omega :
          max (n - split) 0 ≤ max (n' - split) 0)) hratio
      linarith
    · have hneg' : (n : ℚ) ≤ 0 := by exact_mod_cast (by omega : n ≤ 0)
      rw [if_neg fun hmade => hneg hmade.2.1, hzero]
      simp only [Int.cast_zero]
      linarith
  · rw [if_neg hmade', hzero]
    split_ifs with hmade
    · -- Only the smaller input is cache writes, which are worth less.
      obtain ⟨-, hpos, hsmall⟩ := hmade
      have hpos' : (0 : ℚ) ≤ n := by exact_mod_cast hpos
      have hmul := mul_nonneg hpos' hratio
      have hle : ratio ≤ 1 := by linarith
      have hwrites : ((max (n - split) 0 : ℤ) : ℚ) ≤ n := by
        exact_mod_cast (by omega : max (n - split) 0 ≤ n)
      have hprod := mul_le_mul_of_nonneg_right hwrites hratio
      have hone := mul_le_mul_of_nonneg_left hle hpos'
      simp only [Int.cast_zero]
      linarith
    · rw [hzero]
      simp only [Int.cast_zero]
      linarith

/-- The tokens are worth more with more that is cached, and no less that is uncached. -/
theorem promptQuota_withTokens_le_of_cost_zero (h : Nonneg st info) (hcounts : usage.Counted)
    (hreads : ReadsCost st info usage) (hcost : usage.cost.value = 0)
    {promptTokens cachedTokens : ℤ}
    (hcounts' : (usage.withTokens promptTokens cachedTokens completionTokens).Counted)
    (hcompletion : usage.completionTokens ≤ completionTokens)
    (hcached : usage.cachedTokens ≤ cachedTokens) (huncached : uncachedTokens info usage ≤
      uncachedTokens info (usage.withTokens promptTokens cachedTokens completionTokens)) :
    promptQuota st info usage + usage.completionTokens * info.priceData.completionRatio ≤
      promptQuota st info (usage.withTokens promptTokens cachedTokens completionTokens) +
        completionTokens * info.priceData.completionRatio := by
  obtain ⟨split, rest, hsplit, hquota⟩ := exists_promptQuota_of_cost_zero h hcounts hreads hcost
  have hself := hquota usage.promptTokens usage.cachedTokens usage.completionTokens hcounts
  have hsame : usage.withTokens usage.promptTokens usage.cachedTokens usage.completionTokens =
    usage := rfl
  rw [hsame] at hself
  have hn : usage.promptTokens - usage.cachedTokens ≤ promptTokens - cachedTokens := by
    have hrouter : isOpenRouterClaudeBilling info
      (usage.withTokens promptTokens cachedTokens completionTokens) = true := hreads.1
    rwa [uncachedTokens, uncachedTokens, hreads.1, hrouter, Bool.or_true, Bool.or_true, if_pos rfl,
      if_pos rfl] at huncached
  have hcompletion' : (usage.completionTokens : ℚ) ≤ completionTokens := by
    exact_mod_cast hcompletion
  have hcached' : (usage.cachedTokens : ℚ) ≤ cachedTokens := by exact_mod_cast hcached
  -- what the other tokens are worth grows with them
  have hrest' : usage.restValue info.priceData ≤
      (usage.withTokens promptTokens cachedTokens completionTokens).restValue info.priceData :=
    add_le_add (mul_le_mul_of_nonneg_right hcached' h.cacheRatio)
      (mul_le_mul_of_nonneg_right hcompletion' h.completionRatio)
  have hle : inputValue info.priceData.cacheCreationRatio split
      (usage.promptTokens - usage.cachedTokens) (freeWrites st info usage) +
        (usage.cachedTokens * info.priceData.cacheRatio +
          usage.completionTokens * info.priceData.completionRatio) ≤
      inputValue info.priceData.cacheCreationRatio split (promptTokens - cachedTokens)
        (freeWrites st info (usage.withTokens promptTokens cachedTokens completionTokens)) +
        (cachedTokens * info.priceData.cacheRatio +
          completionTokens * info.priceData.completionRatio) :=
    inputValue_add_le (info.priceData.modelRatio / st.quotaPerUnit ≠ 0) h.cacheCreationRatio
      (restValue_nonneg h hcounts) hrest' hn hsplit
  rw [hself, hquota promptTokens cachedTokens completionTokens hcounts']
  linarith

/-- More output, or more that is cached, is a larger amount. -/
theorem quotaDecimal_withTokens_le (h : Nonneg st info) (hest : ¬IsEstimated st info usage)
    {promptTokens cachedTokens : ℤ} (hcounts : usage.Counted)
    (hcounts' : (usage.withTokens promptTokens cachedTokens completionTokens).Counted)
    (hcompletion : usage.completionTokens ≤ completionTokens)
    (hcached : usage.cachedTokens ≤ cachedTokens) (huncached : uncachedTokens info usage ≤
      uncachedTokens info (usage.withTokens promptTokens cachedTokens completionTokens)) :
    quotaDecimal st info usage ≤
      quotaDecimal st info (usage.withTokens promptTokens cachedTokens completionTokens) := by
  have htokens : promptQuota st info usage +
      usage.completionTokens * info.priceData.completionRatio ≤
      promptQuota st info (usage.withTokens promptTokens cachedTokens completionTokens) +
        completionTokens * info.priceData.completionRatio := by
    -- the cost is read, but is 0, or it is not read at all
    by_cases hreads : ReadsCost st info usage
    · have hcost : usage.cost.value = 0 := by
        by_contra hne
        exact hest ⟨hreads, hne⟩
      exact promptQuota_withTokens_le_of_cost_zero h hcounts hreads hcost hcounts' hcompletion
        hcached huncached
    · have hcompletion' : (usage.completionTokens : ℚ) ≤ completionTokens := by
        exact_mod_cast hcompletion
      exact add_le_add (promptQuota_withTokens_le h hreads hcached huncached)
        (mul_le_mul_of_nonneg_right hcompletion' h.completionRatio)
  have hothers : 0 ≤ info.priceData.otherRatios.prod := List.prod_nonneg h.otherRatios
  have hratio : 0 ≤ info.priceData.modelRatio * info.groupRatio :=
    mul_nonneg h.modelRatio h.groupRatio
  refine mul_le_mul_of_nonneg_right (add_le_add_left ?_ _) hothers
  split_ifs
  · exact le_rfl
  · exact add_le_add_left (mul_le_mul_of_nonneg_right htokens hratio) _

variable {tools : ToolContext}

/-- The built-in tools are counted in both, or in neither. -/
theorem ToolContext.Le.builtIn_cases {tools' : ToolContext} (h : tools.Le tools') :
    (tools.responsesUsageInfo = none ∧ tools'.responsesUsageInfo = none) ∨
      ∃ t t', tools.responsesUsageInfo = some t ∧ tools'.responsesUsageInfo = some t' ∧
        (t.webSearchPreview : ℚ) ≤ t'.webSearchPreview ∧ (t.fileSearch : ℚ) ≤ t'.fileSearch := by
  cases htools : tools.responsesUsageInfo with
  | none =>
    refine .inl ⟨rfl, Option.isNone_iff_eq_none.1 ?_⟩
    rw [← Option.not_isSome, ← h.isSome, htools]
    rfl
  | some t =>
    have hsome : tools'.responsesUsageInfo.isSome = true := by rw [← h.isSome, htools]; rfl
    obtain ⟨t', htools'⟩ := Option.isSome_iff_exists.1 hsome
    obtain ⟨hweb, hfile⟩ := h.builtIn t htools t' htools'
    exact .inr ⟨t, t', rfl, htools', by exact_mod_cast hweb, by exact_mod_cast hfile⟩

theorem toolCallPrice_withTools_le (h : Nonneg st info) (hle : info.tools.Le tools) :
    toolCallPrice st info ≤ toolCallPrice st (info.withTools tools) := by
  have hpreview : 0 ≤ st.getToolPriceForModel "web_search_preview" info.originModelName / 1000 :=
    div_nonneg (h.toolPriceForModel _ _) (by norm_num)
  have hweb : 0 ≤ st.getToolPrice "web_search" / 1000 := div_nonneg (h.toolPrice _) (by norm_num)
  have hfile : 0 ≤ st.getToolPrice "file_search" / 1000 := div_nonneg (h.toolPrice _) (by norm_num)
  have hclaude : (info.tools.claudeWebSearchRequests : ℚ) ≤ tools.claudeWebSearchRequests := by
    exact_mod_cast hle.claudeWebSearch
  refine mul_le_mul_of_nonneg_right ?_ h.quotaPerUnit
  refine add_le_add (add_le_add (add_le_add ?_ ?_) ?_) ?_
  · obtain ⟨hnone, hnone'⟩ | ⟨t, t', hsome, hsome', hcalls, -⟩ := hle.builtIn_cases
    · simp only [RelayInfo.withTools, hnone, hnone']
      exact le_rfl
    · simp only [RelayInfo.withTools, hsome, hsome']
      exact mul_le_mul_of_nonneg_left hcalls hpreview
  · exact mul_le_mul_of_nonneg_left hclaude hweb
  · obtain ⟨hnone, hnone'⟩ | ⟨t, t', hsome, hsome', -, hcalls⟩ := hle.builtIn_cases
    · simp only [RelayInfo.withTools, hnone, hnone', le_refl]
    · simp only [RelayInfo.withTools, hsome, hsome']
      exact mul_le_mul_of_nonneg_left hcalls hfile
  · obtain hnone | hsame := hle.imageGeneration
    · simp only [RelayInfo.withTools, hnone]
      split
      · exact h.imagePrice _ _
      · exact le_rfl
    · simp only [RelayInfo.withTools, hsame, le_refl]

theorem quotaDecimal_withTools_le (h : Nonneg st info) (hle : info.tools.Le tools) :
    quotaDecimal st info usage ≤ quotaDecimal st (info.withTools tools) usage := by
  have hothers : 0 ≤ info.priceData.otherRatios.prod := List.prod_nonneg h.otherRatios
  refine mul_le_mul_of_nonneg_right (add_le_add_right ?_ _) hothers
  exact mul_le_mul_of_nonneg_right (toolCallPrice_withTools_le h hle) h.groupRatio

/-- **A larger amount is not a lower quota**, if there are tokens where there were some. -/
theorem textQuota_le_of_quotaDecimal_le {info' : RelayInfo} {usage' : Usage}
    (hprice : info'.priceData = info.priceData) (hgroup : info'.groupRatio = info.groupRatio)
    (h' : Nonneg st info') (hcounts' : usage'.Counted)
    (htotal : usage'.promptTokens + usage'.completionTokens = 0 →
      usage.promptTokens + usage.completionTokens = 0)
    (hle : quotaDecimal st info usage ≤ quotaDecimal st info' usage') :
    textQuota st info usage ≤ textQuota st info' usage' := by
  by_cases hzero : usage.promptTokens + usage.completionTokens = 0
  · rw [textQuota, if_pos hzero]
    exact textQuota_nonneg h' hcounts'
  · rw [textQuota, textQuota, if_neg hzero, if_neg fun hzero' => hzero (htotal hzero'), hprice,
      hgroup]
    exact roundQuota_mono hle

theorem Nonneg.withTools (h : Nonneg st info) (tools : ToolContext) :
    Nonneg st (info.withTools tools) :=
  ⟨h.quotaPerUnit, h.toolPriceForModel, h.toolPrice, h.imagePrice, h.audioPrice, h.groupRatio,
    h.modelPrice, h.modelRatio, h.completionRatio, h.cacheRatio, h.cacheCreationRatio,
    h.cacheCreation5mRatio, h.cacheCreation1hRatio, h.imageRatio, h.otherRatios⟩

theorem Usage.Counted.withCompletion (h : usage.Counted) {n : ℤ}
    (hn : usage.completionTokens ≤ n) : Usage.Counted { usage with completionTokens := n } :=
  { h with completionTokens := h.completionTokens.trans hn }

/-- More that is cached, and no less that is uncached, are more prompt tokens. -/
theorem promptTokens_le {usage' : Usage}
    (hsame : usage' =
      usage.withTokens usage'.promptTokens usage'.cachedTokens usage.completionTokens)
    (hcached : usage.cachedTokens ≤ usage'.cachedTokens)
    (huncached : uncachedTokens info usage ≤ uncachedTokens info usage') :
    usage.promptTokens ≤ usage'.promptTokens := by
  have hinclusive : isInclusive info usage' = isInclusive info usage := by rw [hsame]; rfl
  have hrouter : isOpenRouterClaudeBilling info usage' = isOpenRouterClaudeBilling info usage := by
    rw [hsame]; rfl
  rw [uncachedTokens, uncachedTokens, hinclusive, hrouter] at huncached
  split_ifs at huncached <;> omega

/-- **The quota keeps its bounds.** -/
theorem quotaBounds_of_fits (st : Setting) (info : RelayInfo) (usage : Usage)
    (hprices : Nonneg st info) (hcounts : usage.Counted) (hfits : Fits st info usage) :
    QuotaBounds st info usage where
  nonneg := summaryQuota_eq hprices hcounts hfits ▸ textQuota_nonneg hprices hcounts
  one_le hratio htotal :=
    summaryQuota_eq hprices hcounts hfits ▸ one_le_textQuota hprices hcounts hratio htotal
  zero htotal := by rw [summaryQuota, if_pos htotal]
  completion hest n hn hfits' := by
    have hcounts' := hcounts.withCompletion hn
    rw [summaryQuota_eq hprices hcounts hfits, summaryQuota_eq hprices hcounts' hfits']
    refine textQuota_le_of_quotaDecimal_le rfl rfl hprices hcounts' (fun htotal => ?_)
      (quotaDecimal_withTokens_le hprices hest hcounts hcounts' hn le_rfl le_rfl)
    have hprompt := hcounts.promptTokens
    have hcompletion := hcounts.completionTokens
    simp only at htotal
    omega
  cached hest usage' hsame hcounts' hcached huncached hfits' := by
    rw [summaryQuota_eq hprices hcounts hfits, summaryQuota_eq hprices hcounts' hfits']
    have hcompletion : usage'.completionTokens = usage.completionTokens := by rw [hsame]; rfl
    refine textQuota_le_of_quotaDecimal_le rfl rfl hprices hcounts' (fun htotal => ?_) ?_
    · have hprompt := promptTokens_le hsame hcached huncached
      have := hcounts.promptTokens
      have := hcounts.completionTokens
      omega
    · rw [hsame] at hcounts' huncached ⊢
      exact quotaDecimal_withTokens_le hprices hest hcounts hcounts' le_rfl hcached huncached
  tools tools hle hfits' := by
    have hprices' := hprices.withTools tools
    rw [summaryQuota_eq hprices hcounts hfits, summaryQuota_eq hprices' hcounts hfits']
    exact textQuota_le_of_quotaDecimal_le rfl rfl hprices' hcounts id
      (quotaDecimal_withTools_le hprices hle)

end Amounts

/-! ### A cost that is divided -/

/-- A model of Claude's whose output is cheap. -/
def cheapModel (channelType : Option ℕ) : RelayInfo where
  originModelName := "claude-sonnet-4"
  priceData :=
    { modelRatio := 1
      completionRatio := 1 / 10
      cacheRatio := 1 / 10
      cacheCreationRatio := 5 / 4 }
  groupRatio := 1
  finalRequestRelayFormat := "claude"
  channelType

/-- A hundred tokens and a cost that is a little higher than theirs. -/
def dividedCost : Usage where
  promptTokens := 100
  completionTokens := 0
  cost := .float (1004 / 10 / 500000)

theorem cheapModel_nonneg (channelType : Option ℕ) : Nonneg plainSetting (cheapModel channelType) :=
  ⟨by norm_num [plainSetting], fun _ _ => le_rfl, fun _ => le_rfl, fun _ _ => le_rfl,
    fun _ => le_rfl, zero_le_one, le_rfl, by norm_num [cheapModel], by norm_num [cheapModel],
    by norm_num [cheapModel], by norm_num [cheapModel], le_rfl, le_rfl, le_rfl, nofun⟩

theorem dividedCost_counted : dividedCost.Counted := by constructor <;> decide

theorem quotaBounds_dividedCost : QuotaBounds plainSetting (cheapModel none) dividedCost :=
  quotaBounds_of_fits plainSetting (cheapModel none) dividedCost (cheapModel_nonneg none)
    dividedCost_counted (by decide +kernel)

/-- **One token of output lowers OpenRouter's quota, and so does one more that is cached**: it
leaves less of the cost to the cache writes, by a token that is dearer than it. -/
theorem quota_falls :
    let info := cheapModel (some channelTypeOpenRouter)
    let moreCached := dividedCost.withTokens 101 1 0
    Nonneg plainSetting info ∧ dividedCost.Counted ∧ dividedCost.WithinPrompt ∧
      moreCached.WithinPrompt ∧ uncachedTokens info moreCached = uncachedTokens info dividedCost ∧
      summaryQuota plainSetting info moreCached < summaryQuota plainSetting info dividedCost ∧
      summaryQuota plainSetting info { dividedCost with completionTokens := 1 } <
        summaryQuota plainSetting info dividedCost :=
  ⟨cheapModel_nonneg _, dividedCost_counted, by decide, by decide, by decide +kernel,
    by decide +kernel, by decide +kernel⟩

end NewApiPool.Billing.Text
