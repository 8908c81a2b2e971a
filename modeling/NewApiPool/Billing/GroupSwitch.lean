import NewApiPool.Billing.Tiered

/-!
# Tiered billing and a retry in another group

A retry may be served by a channel of another group. `getChannel` then takes the ratio of that
group for the price of the request, which is what the ratios of a model and the tools are
charged with. An expression is charged with the ratio that is frozen in the snapshot, so the
quota has one ratio exactly if the group that the request was priced in and the one that served
it have the same (`singleGroupRatio_iff`).

The requests are those that are priced once. A compact request of the responses API is priced again
when its response is there, in the group that served it, and is charged with that ratio.
-/

namespace NewApiPool.Billing.Text

/-! ### The ratio of the group -/

/-- The settings of the groups, and the one of the pre-consumption of free models. -/
structure GroupSetting where
  getGroupRatio : String → ℚ
  getGroupGroupRatio : String → String → Option ℚ
  enableFreeModelPreConsume : Bool

/-- The groups of a request, and `auto_group` of its context. -/
structure Groups where
  userGroup : String
  usingGroup : String
  autoGroup : Option String

variable (gs : GroupSetting)

/-- The ratio for the group in use, of which a user group may have a special one. -/
def Groups.ratio (k : Groups) : ℚ :=
  (gs.getGroupGroupRatio k.userGroup k.usingGroup).getD (gs.getGroupRatio k.usingGroup)

def handleGroupRatio (k : Groups) : Groups × ℚ :=
  let k := { k with usingGroup := k.autoGroup.getD k.usingGroup }
  (k, k.ratio gs)

/-! ### A request with an expression -/

/-- What is known of a request when it is priced. -/
structure TieredRequest where
  originModelName : String
  expr : TokenParams → Option ℚ
  usedVars : String → Bool
  promptTokens : ℤ
  maxTokens : ℤ
  /-- what the billing session has taken in advance when it was asked for a quota -/
  preConsumeBilling : ℤ → ℤ

/-- What the relay info has for the tiered quota. `PriceData` has the ratio of the group and
nothing else that it reads. -/
structure TieredRelayInfo where
  originModelName : String
  promptTokens : ℤ
  groups : Groups
  groupRatio : ℚ
  snapshot : BillingSnapshot
  finalPreConsumedQuota : ℤ

/-- What is known when the response is there. -/
structure Response where
  usage : Option Usage
  tools : ToolContext
  finalRequestRelayFormat : String
  channelType : Option ℕ

def TieredRelayInfo.relayInfo (relay : TieredRelayInfo) (resp : Response) : RelayInfo where
  originModelName := relay.originModelName
  priceData := {}
  groupRatio := relay.groupRatio
  finalRequestRelayFormat := resp.finalRequestRelayFormat
  channelType := resp.channelType
  tools := resp.tools

variable (st : Setting)

/-- What `modelPriceHelperTiered` sets for a group and its ratio when the expression has run, with
the billing session that is asked for the quota if the model is not free. -/
def TieredRequest.priced (req : TieredRequest) (groups : Groups) (groupRatio rawCost : ℚ) :
    TieredRelayInfo :=
  let quotaBeforeGroup := rawCost / 1000000 * st.quotaPerUnit
  let freeModel := !gs.enableFreeModelPreConsume && groupRatio = 0
  let preConsumedQuota := if freeModel then 0 else decimalRound (quotaBeforeGroup * groupRatio)
  { originModelName := req.originModelName
    promptTokens := req.promptTokens
    groups
    groupRatio
    snapshot :=
      { expr := req.expr
        usedVars := req.usedVars
        groupRatio
        quotaPerUnit := st.quotaPerUnit
        estimatedQuotaAfterGroup := preConsumedQuota }
    finalPreConsumedQuota := if freeModel then 0 else req.preConsumeBilling preConsumedQuota }

/-- The parameters that are known before the request is sent. -/
def TieredRequest.estimate (req : TieredRequest) : TokenParams :=
  ⟨req.promptTokens, req.maxTokens, req.promptTokens, 0, 0, 0, 0, 0, 0, 0⟩

def modelPriceHelperTiered (req : TieredRequest) (groups : Groups) : Option TieredRelayInfo :=
  let (groups, groupRatio) := handleGroupRatio gs groups
  (req.expr req.estimate).map (req.priced gs st groups groupRatio)

/-- `getChannel`: the selection may have set `auto_group`. -/
def getChannel (relay : TieredRelayInfo) (selected : Option String) : TieredRelayInfo :=
  let (groups, groupRatio) :=
    handleGroupRatio gs { relay.groups with autoGroup := selected.or relay.groups.autoGroup }
  { relay with groups, groupRatio }

/-- The attempts after the first. -/
def retried (relay : TieredRelayInfo) (retries : List (Option String)) : TieredRelayInfo :=
  retries.foldl (getChannel gs) relay

/-! ### The quota -/

def composeTieredTextQuota (toolCallSurchargeQuota : ℚ) (snap : BillingSnapshot)
    (tieredQuota : ℤ) (tieredResult : Option TieredResult) : ℤ :=
  if toolCallSurchargeQuota = 0 then tieredQuota
  else
    match tieredResult with
    | some result =>
      decimalRound (result.actualQuotaBeforeGroup * snap.groupRatio + toolCallSurchargeQuota)
    | none => tieredQuota + decimalRound toolCallSurchargeQuota

/-- `PostTextConsumeQuota`: the quota that is settled. Without a usage the expression is not run,
and the tokens of the request have no price. -/
def postTextConsumeQuota (relay : TieredRelayInfo) (resp : Response) : ℤ :=
  let info := relay.relayInfo resp
  match resp.usage with
  | none => textQuota st info { promptTokens := relay.promptTokens, completionTokens := 0 }
  | some usage =>
    let params :=
      buildTieredTokenParams usage (isClaudeUsageSemantic info usage) relay.snapshot.usedVars
    let (tieredQuota, tieredResult) :=
      tryTieredSettle relay.snapshot relay.finalPreConsumedQuota params
    composeTieredTextQuota (toolCallSurchargeQuota st info) relay.snapshot tieredQuota tieredResult

/-! ### One ratio -/

/-- The groups after a run of attempts. -/
def Groups.afterRetries (k : Groups) (retries : List (Option String)) : Groups :=
  retries.foldl (fun k selected =>
    (handleGroupRatio gs { k with autoGroup := selected.or k.autoGroup }).1)
    (handleGroupRatio gs k).1

/-- **The quota has one group ratio**: it is that of the request if it had been priced in the
group that served it. -/
def SingleGroupRatio (groups : Groups) (retries : List (Option String)) : Prop :=
  ∀ (req : TieredRequest) (rawCost : ℚ) (relay : TieredRelayInfo) (resp : Response),
    req.expr req.estimate = some rawCost → modelPriceHelperTiered gs st req groups = some relay →
    postTextConsumeQuota st (retried gs relay retries) resp =
      postTextConsumeQuota st (req.priced gs st (groups.afterRetries gs retries)
        ((groups.afterRetries gs retries).ratio gs) rawCost) resp

variable {gs st}

/-- The tokens have the ratio of the snapshot, the tools that of the group. -/
theorem postTextConsumeQuota_eq {relay : TieredRelayInfo} {resp : Response} {usage : Usage}
    {cost : ℚ} (husage : resp.usage = some usage)
    (hcost : relay.snapshot.expr (buildTieredTokenParams usage
      (isClaudeUsageSemantic (relay.relayInfo resp) usage) relay.snapshot.usedVars) = some cost) :
    postTextConsumeQuota st relay resp =
      decimalRound (quotaConversion cost relay.snapshot * relay.snapshot.groupRatio +
        toolCallSurchargeQuota st (relay.relayInfo resp)) := by
  rw [postTextConsumeQuota, husage]
  simp only [tryTieredSettle, computeTieredQuota, hcost, Option.map_some, composeTieredTextQuota]
  split_ifs with hzero
  · rw [hzero, add_zero]
  · rfl

/-! ### A run of retries -/

/-- What a retry leaves alone, and whose ratio it takes. -/
theorem getChannel_eq (relay : TieredRelayInfo) (selected : Option String) :
    getChannel gs relay selected =
      { relay with
        groups :=
          (handleGroupRatio gs
            { relay.groups with autoGroup := selected.or relay.groups.autoGroup }).1
        groupRatio :=
          (handleGroupRatio gs
            { relay.groups with autoGroup := selected.or relay.groups.autoGroup }).1.ratio gs } :=
  rfl

theorem retried_eq (groups : Groups) (retries : List (Option String)) (relay : TieredRelayInfo)
    (hgroups : relay.groups = (handleGroupRatio gs groups).1)
    (hratio : relay.groupRatio = relay.groups.ratio gs) :
    retried gs relay retries =
      { relay with
        groups := groups.afterRetries gs retries
        groupRatio := (groups.afterRetries gs retries).ratio gs } := by
  rw [Groups.afterRetries, ← hgroups, retried]
  clear hgroups
  induction retries generalizing relay with
  | nil => rw [List.foldl_nil, List.foldl_nil, ← hratio]
  | cons selected retries ih =>
    rw [List.foldl_cons, List.foldl_cons, getChannel_eq, ih _ rfl]

/-- A request that is priced has its groups and their ratio. -/
theorem modelPriceHelperTiered_eq {req : TieredRequest} {rawCost : ℚ} {groups : Groups}
    (hcost : req.expr req.estimate = some rawCost) :
    modelPriceHelperTiered gs st req groups =
      some (req.priced gs st (handleGroupRatio gs groups).1
        ((handleGroupRatio gs groups).1.ratio gs) rawCost) := by
  rw [modelPriceHelperTiered, hcost]
  rfl

/-- A request with an expression that is a constant, and no tools. -/
def constantRequest (cost : ℚ) : TieredRequest where
  originModelName := ""
  expr _ := some cost
  usedVars _ := false
  promptTokens := 0
  maxTokens := 0
  preConsumeBilling := id

def plainResponse : Response where
  usage := some { promptTokens := 1, completionTokens := 1 }
  tools := {}
  finalRequestRelayFormat := "openai"
  channelType := none

/-- It has the ratio of the snapshot, whatever the group is now. -/
theorem postTextConsumeQuota_constantRequest (cost rawCost g g' : ℚ) (groups groups' : Groups) :
    postTextConsumeQuota st
        { (constantRequest cost).priced gs st groups g rawCost with
          groups := groups', groupRatio := g' } plainResponse =
      decimalRound (cost / 1000000 * st.quotaPerUnit * g) := by
  have htools : toolCallSurchargeQuota st
      (TieredRelayInfo.relayInfo
        { (constantRequest cost).priced gs st groups g rawCost with
          groups := groups', groupRatio := g' } plainResponse) = 0 := by
    have hname : GoText.endsWith "" "search-preview" = false := by decide +kernel
    simp [toolCallSurchargeQuota, toolCallPrice, TieredRelayInfo.relayInfo, TieredRequest.priced,
      constantRequest, plainResponse, hname]
  rw [postTextConsumeQuota_eq rfl rfl, htools, add_zero]
  rfl

/-- **The quota has one ratio**, exactly if the group that the request was priced in and the one
that served it have the same. -/
theorem singleGroupRatio_iff (gs : GroupSetting) (hunit : st.quotaPerUnit ≠ 0) (groups : Groups)
    (retries : List (Option String)) :
    SingleGroupRatio gs st groups retries ↔
      (handleGroupRatio gs groups).2 = (groups.afterRetries gs retries).ratio gs := by
  have hserved {req : TieredRequest} {rawCost : ℚ} :
      retried gs (req.priced gs st (handleGroupRatio gs groups).1
          ((handleGroupRatio gs groups).1.ratio gs) rawCost) retries =
        { req.priced gs st (handleGroupRatio gs groups).1
            ((handleGroupRatio gs groups).1.ratio gs) rawCost with
          groups := groups.afterRetries gs retries
          groupRatio := (groups.afterRetries gs retries).ratio gs } :=
    retried_eq groups retries _ rfl rfl
  have hfirst : (handleGroupRatio gs groups).2 = (handleGroupRatio gs groups).1.ratio gs := rfl
  rw [hfirst]
  constructor
  · intro h
    by_contra hne
    -- a cost that is 2 more in one group than in the other
    have hsub := sub_ne_zero.mpr hne
    have hquota := h (constantRequest (2 * 1000000 / (st.quotaPerUnit *
      ((handleGroupRatio gs groups).1.ratio gs - (groups.afterRetries gs retries).ratio gs))))
      _ _ plainResponse rfl (modelPriceHelperTiered_eq rfl)
    rw [hserved, postTextConsumeQuota_constantRequest] at hquota
    have hpriced := hquota.trans
      (postTextConsumeQuota_constantRequest _ _ _ _ (groups.afterRetries gs retries) _)
    have hround (d : ℚ) := abs_le.mp (abs_decimalRound_sub_le d)
    generalize (handleGroupRatio gs groups).1.ratio gs = g at hsub hpriced
    generalize (groups.afterRetries gs retries).ratio gs = g' at hsub hpriced
    have hgap : 2 * 1000000 / (st.quotaPerUnit * (g - g')) / 1000000 * st.quotaPerUnit * g -
        2 * 1000000 / (st.quotaPerUnit * (g - g')) / 1000000 * st.quotaPerUnit * g' = 2 := by
      rw [← mul_sub]
      field_simp
    have hleft := (hround (2 * 1000000 / (st.quotaPerUnit * (g - g')) / 1000000 *
      st.quotaPerUnit * g)).1
    have hright := (hround (2 * 1000000 / (st.quotaPerUnit * (g - g')) / 1000000 *
      st.quotaPerUnit * g')).2
    rw [hpriced] at hleft
    linarith
  · intro h req rawCost relay resp hcost hpriced
    rw [modelPriceHelperTiered_eq hcost, Option.some.injEq] at hpriced
    rw [← hpriced, hserved, h]
    rfl

/-! ### A user in two groups -/

/-- The group "vip" has half the price, and "svip" as well for its own users. -/
def twoRatios : GroupSetting where
  getGroupRatio name := if name = "vip" then 1 / 2 else 1
  getGroupGroupRatio user name := if user = "svip" ∧ name = "svip" then some (1 / 2) else none
  enableFreeModelPreConsume := false

/-- From "vip" to "svip", of a user in it. -/
theorem singleGroupRatio_svip :
    SingleGroupRatio twoRatios plainSetting ⟨"svip", "auto", some "vip"⟩ [none, some "svip"] :=
  (singleGroupRatio_iff _ (by decide +kernel) _ _).mpr (by decide +kernel)

/-- **From "vip" to "default"**: the tokens keep half the price. -/
theorem not_singleGroupRatio_default :
    ¬SingleGroupRatio twoRatios plainSetting ⟨"default", "auto", some "vip"⟩ [some "default"] :=
  fun h => absurd (h (constantRequest 8) 8 _ plainResponse rfl rfl) (by decide +kernel)

end NewApiPool.Billing.Text
