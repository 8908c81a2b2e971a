import NewApiPool.Billing.Realtime

/-!
# The quota of a text request

`calculateTextQuotaSummary` prices the tokens of a usage by class: uncached input, cached
input, cache writes, output. A usage says its prompt tokens with or without the cached ones and
the cache writes, and the cache writes in one field or split by their lifetime; the format of
the response and the semantic of the usage tell which.

One usage in several encodings has one quota (`encodingsAgree_iff`), but for OpenRouter's: the
tokens of the cache writes are estimated from the cost if none are reported. The comparison of
the cost with `0` is one of an interface with an `int`, and a cost of `0` that was decoded is a
`float64`, so the estimate is also made for a cost of `0`.
-/

namespace NewApiPool.Billing.Text

/-! ### Usages and prices -/

/-- `Usage.Cost`, an interface: a number that was decoded is a `float64`. -/
inductive Cost
  | nil
  | int (z : ℤ)
  | float (q : ℚ)
  deriving DecidableEq

/-- The type assertion to `float64`, or `0`. -/
def Cost.value : Cost → ℚ
  | .float q => q
  | _ => 0

/-- `dto.Usage`. -/
structure Usage where
  promptTokens : ℤ
  completionTokens : ℤ
  cachedTokens : ℤ := 0
  cachedCreationTokens : ℤ := 0
  imageTokens : ℤ := 0
  audioTokens : ℤ := 0
  /-- the image and audio tokens of the completion -/
  outputImageTokens : ℤ := 0
  outputAudioTokens : ℤ := 0
  claudeCacheCreation5mTokens : ℤ := 0
  claudeCacheCreation1hTokens : ℤ := 0
  usageSemantic : String := ""
  usageSource : String := ""
  cost : Cost := .nil

/-- `PriceData`, but for the ratio of the group. A `float64` becomes a decimal, and decimals are
added and multiplied exactly. -/
structure PriceData where
  modelPrice : ℚ := 0
  modelRatio : ℚ := 0
  completionRatio : ℚ := 0
  cacheRatio : ℚ := 0
  cacheCreationRatio : ℚ := 0
  cacheCreation5mRatio : ℚ := 0
  cacheCreation1hRatio : ℚ := 0
  imageRatio : ℚ := 0
  usePrice : Bool := false
  /-- the values of `OtherRatios` -/
  otherRatios : List ℚ := []

/-- The built-in tools of `ResponsesUsageInfo` that are charged: how often they were called. -/
structure BuiltInTools where
  webSearchPreview : ℕ := 0
  fileSearch : ℕ := 0

/-- What the quota reads of the context: `claude_web_search_requests`, and the quality and the
size if there was an image generation call. -/
structure ToolContext where
  responsesUsageInfo : Option BuiltInTools := none
  claudeWebSearchRequests : ℕ := 0
  imageGenerationCall : Option (String × String) := none

structure RelayInfo where
  originModelName : String
  priceData : PriceData
  groupRatio : ℚ
  /-- `GetFinalRequestRelayFormat` -/
  finalRequestRelayFormat : String
  /-- `ChannelMeta.ChannelType`, if there is a channel -/
  channelType : Option ℕ
  tools : ToolContext := {}

/-- The prices of the operation and ratio settings. -/
structure Setting where
  quotaPerUnit : ℚ
  getToolPriceForModel : String → String → ℚ
  getToolPrice : String → ℚ
  getGPTImage1PriceOnceCall : String → String → ℚ
  getGeminiInputAudioPricePerMillionTokens : String → ℚ
  getDefaultModelRatio : String → Option ℚ

def relayFormatClaude : String := "claude"

def channelTypeOpenRouter : ℕ := 20

variable (st : Setting) (info : RelayInfo) (usage : Usage)

/-! ### Which encoding it is -/

def usageSemanticFromUsage : String :=
  if usage.usageSemantic ≠ "" then usage.usageSemantic
  else if info.finalRequestRelayFormat = relayFormatClaude then "anthropic"
  else "openai"

def isClaudeUsageSemantic : Bool := usageSemanticFromUsage info usage = "anthropic"

def isLegacyClaudeDerivedOpenAIUsage : Bool :=
  info.finalRequestRelayFormat ≠ relayFormatClaude ∧ usage.usageSource = "" ∧
    usage.usageSemantic = "" ∧
    (0 < usage.claudeCacheCreation5mTokens ∨ 0 < usage.claudeCacheCreation1hTokens)

def isOpenRouterClaudeBilling : Bool :=
  info.channelType = some channelTypeOpenRouter ∧ isClaudeUsageSemantic info usage

def hasCustomModelRatio : Bool :=
  (st.getDefaultModelRatio info.originModelName).all fun ratio => info.priceData.modelRatio ≠ ratio

/-! ### The quota -/

/-- `CalcOpenRouterCacheCreateTokens`: the cache writes that the cost accounts for. -/
def calcOpenRouterCacheCreateTokens (price : PriceData) : ℤ :=
  if price.cacheCreationRatio = 1 then 0
  else
    let quotaPrice := price.modelRatio / st.quotaPerUnit
    let promptCacheCreatePrice := quotaPrice * price.cacheCreationRatio
    let promptCacheReadPrice := quotaPrice * price.cacheRatio
    let completionPrice := quotaPrice * price.completionRatio
    decimalRound ((usage.cost.value - usage.promptTokens * quotaPrice +
      usage.cachedTokens * (quotaPrice - promptCacheReadPrice) -
      usage.completionTokens * completionPrice) / (promptCacheCreatePrice - quotaPrice))

/-- The prompt tokens and the cache writes of the summary. -/
def promptAndCacheCreation : ℤ × ℤ :=
  if isOpenRouterClaudeBilling info usage then
    let promptTokens := usage.promptTokens - usage.cachedTokens
    let isUsingCustomSettings := info.priceData.usePrice || hasCustomModelRatio st info
    let maybeCacheCreationTokens := calcOpenRouterCacheCreateTokens st usage info.priceData
    let cacheCreationTokens :=
      if usage.cachedCreationTokens = 0 ∧ info.priceData.cacheCreationRatio ≠ 1 ∧
          usage.cost ≠ .int 0 ∧ !isUsingCustomSettings ∧ 0 ≤ maybeCacheCreationTokens ∧
          maybeCacheCreationTokens ≤ promptTokens then
        maybeCacheCreationTokens
      else usage.cachedCreationTokens
    (promptTokens - cacheCreationTokens, cacheCreationTokens)
  else (usage.promptTokens, usage.cachedCreationTokens)

/-- `calculateTextToolCallSurcharge`, for a group ratio of `1`. -/
def toolCallPrice : ℚ :=
  let model := info.originModelName
  let previewPrice := st.getToolPriceForModel "web_search_preview" model / 1000
  let webSearch :=
    match info.tools.responsesUsageInfo with
    | some tools => previewPrice * tools.webSearchPreview
    | none => if GoText.endsWith model "search-preview" then previewPrice else 0
  let claudeWebSearch :=
    st.getToolPrice "web_search" / 1000 * info.tools.claudeWebSearchRequests
  let fileSearch :=
    match info.tools.responsesUsageInfo with
    | some tools => st.getToolPrice "file_search" / 1000 * tools.fileSearch
    | none => 0
  let imageGeneration :=
    match info.tools.imageGenerationCall with
    | some (quality, size) => st.getGPTImage1PriceOnceCall quality size
    | none => 0
  (webSearch + claudeWebSearch + fileSearch + imageGeneration) * st.quotaPerUnit

/-- `calculateTextToolCallSurcharge` -/
def toolCallSurchargeQuota : ℚ := toolCallPrice st info * info.groupRatio

/-- The audio tokens of the input that have a price of their own. -/
def pricedAudioTokens : ℤ :=
  if 0 < st.getGeminiInputAudioPricePerMillionTokens info.originModelName then usage.audioTokens
  else 0

/-- The price of the input audio, for a group ratio of `1`. -/
def audioInputPrice : ℚ :=
  st.getGeminiInputAudioPricePerMillionTokens info.originModelName / 1000000 *
    pricedAudioTokens st info usage * st.quotaPerUnit

/-- The cached tokens and the cache writes are among the prompt tokens. -/
def isInclusive : Bool :=
  !isClaudeUsageSemantic info usage && !isLegacyClaudeDerivedOpenAIUsage info usage

/-- The input tokens, each weighted with the ratio of its class. -/
def promptQuota : ℚ :=
  let price := info.priceData
  let (promptTokens, cacheCreationTokens) := promptAndCacheCreation st info usage
  let includedTokens :=
    if isInclusive info usage then usage.cachedTokens + cacheCreationTokens else 0
  let baseTokens :=
    promptTokens - includedTokens - usage.imageTokens - pricedAudioTokens st info usage
  let hasSplitCacheCreationTokens :=
    0 < usage.claudeCacheCreation5mTokens ∨ 0 < usage.claudeCacheCreation1hTokens
  let cachedCreationTokensWithRatio : ℚ :=
    if cacheCreationTokens = 0 ∧ ¬hasSplitCacheCreationTokens then 0
    else if isInclusive info usage then cacheCreationTokens * price.cacheCreationRatio
    else
      let remaining := max (cacheCreationTokens - usage.claudeCacheCreation5mTokens -
        usage.claudeCacheCreation1hTokens) 0
      remaining * price.cacheCreationRatio +
        usage.claudeCacheCreation5mTokens * price.cacheCreation5mRatio +
        usage.claudeCacheCreation1hTokens * price.cacheCreation1hRatio
  baseTokens + usage.cachedTokens * price.cacheRatio + usage.imageTokens * price.imageRatio +
    cachedCreationTokensWithRatio

/-- The quota before it is rounded. -/
def quotaDecimal : ℚ :=
  let price := info.priceData
  let decimal :=
    if price.usePrice then price.modelPrice * st.quotaPerUnit * info.groupRatio
    else (promptQuota st info usage + usage.completionTokens * price.completionRatio) *
      (price.modelRatio * info.groupRatio) + audioInputPrice st info usage * info.groupRatio
  (decimal + toolCallSurchargeQuota st info) * price.otherRatios.prod

/-- The rounding at the end: a ratio that is not `0` never makes a usage free. -/
def roundQuota (price : PriceData) (groupRatio decimal : ℚ) : ℤ :=
  let free := price.modelRatio * groupRatio = 0
  let decimal := if !price.usePrice ∧ ¬free ∧ decimal ≤ 0 then 1 else decimal
  if ¬free ∧ decimalRound decimal = 0 then 1 else decimalRound decimal

/-- `calculateTextQuotaSummary`: the quota. -/
def textQuota : ℤ :=
  if usage.promptTokens + usage.completionTokens = 0 then 0
  else roundQuota info.priceData info.groupRatio (quotaDecimal st info usage)

end NewApiPool.Billing.Text
