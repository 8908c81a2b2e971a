import NewApiPool.Billing.Accounts

/-!
# Billing sessions

The life of the charge of one request: `NewBillingSession` pre-consumes from a
funding source and from the token, `Reserve` takes more before the request is
sent, `Settle` corrects the charge to what the request really cost, and `Refund`
gives everything back when the request failed.

Every function takes what the database answers – a `Fault` for a call that only
moves money, the value read for one that reads – and returns the accounts next
to what the source returns. The session is locked by a mutex, so a call is one
step.
-/

namespace NewApiPool.Billing

open GoText

/-! ### The data -/

/-- The four values `NormalizeBillingPreference` returns. -/
inductive BillingPreference where
  | subscriptionFirst
  | walletFirst
  | subscriptionOnly
  | walletOnly
deriving DecidableEq, Repr

/-- `common.NormalizeBillingPreference`. -/
def normalizeBillingPreference (pref : String) : BillingPreference :=
  match trimSpace pref with
  | "wallet_first" => .walletFirst
  | "subscription_only" => .subscriptionOnly
  | "wallet_only" => .walletOnly
  | _ => .subscriptionFirst

/-- The error codes of package `types` that billing returns. -/
inductive ErrorCode where
  | insufficientUserQuota
  | preConsumeTokenQuotaFailed
  | queryDataError
  | updateDataError
deriving DecidableEq, Repr

/-- `types.NewAPIError`: the code and the text of the wrapped error. -/
structure NewAPIError where
  code : ErrorCode
  msg : String
deriving DecidableEq, Repr

/-- The settings billing reads: `common.GetTrustQuota`, and `logger.FormatQuota`
for the texts of the errors. -/
structure Config where
  trustQuota : Int
  formatQuota : Int → String

/-- The fields of `relaycommon.RelayInfo` that billing reads or writes. -/
structure RelayInfo where
  userId : Int
  tokenId : Int
  requestId : String
  billingPreference : String
  /-- The `token_quota` of the gin context. -/
  tokenQuota : Int
  tokenUnlimited : Bool
  isPlayground : Bool
  forcePreConsume : Bool
  userQuota : Int
  finalPreConsumedQuota : Int
  billingSource : BillingSource
  subscriptionId : Int
  subscriptionPreConsumed : Int
  subscriptionPostDelta : Int
  subscriptionAmountTotal : Int
  subscriptionAmountUsedAfterPreConsume : Int
  subscriptionPlanId : Int
  subscriptionPlanTitle : String
deriving DecidableEq, Repr

structure WalletFunding where
  userId : Int
  consumed : Int
deriving DecidableEq, Repr

structure SubscriptionFunding where
  requestId : String
  userId : Int
  amount : Int
  subscriptionId : Int
  preConsumed : Int
  amountTotal : Int
  amountUsedAfter : Int
  planId : Int
  planTitle : String
deriving DecidableEq, Repr

/-- `FundingSource`: the interface, with its two implementations. -/
inductive FundingSource where
  | wallet (w : WalletFunding)
  | subscription (s : SubscriptionFunding)
deriving DecidableEq, Repr

structure BillingSession where
  relayInfo : RelayInfo
  funding : FundingSource
  preConsumedQuota : Int
  tokenConsumed : Int
  extraReserved : Int
  trusted : Bool
  fundingSettled : Bool
  settled : Bool
  refunded : Bool
deriving DecidableEq, Repr

/-! ### The funding sources -/

/-- What `SubscriptionFunding.PreConsume` keeps of the result: the plan only if it
was found. -/
def SubscriptionFunding.applyResult (sf : SubscriptionFunding)
    (res : SubscriptionPreConsumeResult) : SubscriptionFunding :=
  let sf' := { sf with
    subscriptionId := res.userSubscriptionId, preConsumed := res.preConsumed,
    amountTotal := res.amountTotal, amountUsedAfter := res.amountUsedAfter }
  match res.planInfo with
  | some (planId, planTitle) => { sf' with planId := planId, planTitle := planTitle }
  | none => sf'

section ApplyResult

variable (sf : SubscriptionFunding) (res : SubscriptionPreConsumeResult)

@[simp] theorem applyResult_subscriptionId :
    (sf.applyResult res).subscriptionId = res.userSubscriptionId := by
  unfold SubscriptionFunding.applyResult
  rcases res.planInfo with _ | ⟨planId, planTitle⟩ <;> rfl

@[simp] theorem applyResult_preConsumed :
    (sf.applyResult res).preConsumed = res.preConsumed := by
  unfold SubscriptionFunding.applyResult
  rcases res.planInfo with _ | ⟨planId, planTitle⟩ <;> rfl

@[simp] theorem applyResult_requestId :
    (sf.applyResult res).requestId = sf.requestId := by
  unfold SubscriptionFunding.applyResult
  rcases res.planInfo with _ | ⟨planId, planTitle⟩ <;> rfl

end ApplyResult

namespace FundingSource

def source : FundingSource → BillingSource
  | .wallet _ => .wallet
  | .subscription _ => .subscription

/-- `PreConsume`: a wallet pays `amount`, a subscription the amount it was built
with. `f` is the fault of the wallet call, `o` the answer of the subscription
call. -/
def preConsume (f : Fault) (o : Except String ChosenSubscription) (amount : Int) (w : Accounts) :
    FundingSource → Except String (FundingSource × Accounts)
  | .wallet wf =>
    if amount ≤ 0 then .ok (.wallet wf, w)
    else (decreaseUserQuota f w wf.userId amount).map
      fun w' => (.wallet { wf with consumed := amount }, w')
  | .subscription sf =>
    (preConsumeUserSubscription w o sf.requestId sf.userId sf.amount).map fun (res, w') =>
      (.subscription (sf.applyResult res), w')

/-- `Settle`: a positive `delta` is charged, a negative one given back. -/
def settle (f : Fault) (delta : Int) (w : Accounts) : FundingSource → Except String Accounts
  | .wallet wf =>
    if delta = 0 then .ok w
    else if delta > 0 then decreaseUserQuota f w wf.userId delta
    else increaseUserQuota f w wf.userId (-delta)
  | .subscription sf =>
    if delta = 0 then .ok w
    else postConsumeUserSubscriptionDelta f w sf.subscriptionId delta

end FundingSource

/-- `refundWithRetry`, the list giving what hits each of its attempts
(`maxAttempts` of them: the callers below pass three). -/
def refundWithRetry (fn : Fault → Except String Accounts) :
    Fault → List Fault → Except String Accounts
  | f, [] => fn f
  | f, f' :: fs =>
    match fn f with
    | .ok w => .ok w
    | .error _ => refundWithRetry fn f' fs

/-- A call whose error is logged and not acted upon. -/
def logged (w : Accounts) : Except String Accounts → Accounts
  | .ok w' => w'
  | .error _ => w

/-- What hits the calls of the refund goroutine: the refund of the funding source
with the two retries a subscription has, the extra reserve, and the token. -/
structure RefundFaults where
  funding : Fault
  retry₁ : Fault
  retry₂ : Fault
  extra : Fault
  token : Fault

/-- The refund goroutine hit by no fault. -/
def RefundFaults.ok : RefundFaults := ⟨none, none, none, none, none⟩

def FundingSource.refund (f : RefundFaults) (w : Accounts) :
    FundingSource → Except String Accounts
  | .wallet wf =>
    if wf.consumed ≤ 0 then .ok w else increaseUserQuota f.funding w wf.userId wf.consumed
  | .subscription sf =>
    if sf.preConsumed ≤ 0 then .ok w
    else refundWithRetry (refundSubscriptionPreConsume · w sf.requestId) f.funding
      [f.retry₁, f.retry₂]

/-- `PreConsumeTokenQuota`. `tokenByKey` is what `GetTokenByKey` answers: the
remaining quota of the token, from the cache or from the row. -/
def preConsumeTokenQuota (cfg : Config) (info : RelayInfo) (quota : Int)
    (tokenByKey : Except String Int) (f : Fault) (w : Accounts) : Except String Accounts :=
  if quota < 0 then .error "quota 不能为负数！"
  else if info.isPlayground then .ok w
  else match tokenByKey with
    | .error e => .error e
    | .ok remainQuota =>
      if !info.tokenUnlimited && remainQuota < quota then
        .error ("token quota is not enough, token remain quota: " ++ cfg.formatQuota remainQuota
          ++ ", need quota: " ++ cfg.formatQuota quota)
      else decreaseTokenQuota f w info.tokenId quota

namespace BillingSession

/-! ### Settle and Refund -/

/-- The token step of `Settle`: a failure is logged and returned, not undone. -/
def settleToken (s : BillingSession) (f : Fault) (delta : Int) (w : Accounts) :
    Option String × Accounts :=
  if s.relayInfo.isPlayground then (none, w)
  else
    match (if delta > 0 then decreaseTokenQuota f w s.relayInfo.tokenId delta
      else increaseTokenQuota f w s.relayInfo.tokenId (-delta)) with
    | .error e => (some e, w)
    | .ok w' => (none, w')

def settle (s : BillingSession) (actualQuota : Int) (fFunding fToken : Fault) (w : Accounts) :
    Option String × BillingSession × Accounts :=
  if s.settled then (none, s, w)
  else
    let delta := actualQuota - s.preConsumedQuota
    -- nothing to correct, so neither book is touched
    if delta = 0 then (none, { s with settled := true }, w)
    else
      match (if s.fundingSettled then .ok w else s.funding.settle fFunding delta w) with
      | .error e => (some e, s, w)
      | .ok w₁ =>
        -- the error of the token is returned, but the session is settled all the same
        let (tokenErr, w₂) := s.settleToken fToken delta w₁
        let info := if s.funding.source = .subscription then
            { s.relayInfo with
              subscriptionPostDelta := s.relayInfo.subscriptionPostDelta + delta }
          else s.relayInfo
        (tokenErr, { s with relayInfo := info, fundingSettled := true, settled := true }, w₂)

def needsRefundLocked (s : BillingSession) : Bool :=
  if s.settled || s.refunded || s.fundingSettled then false
  else if s.tokenConsumed > 0 then true
  -- a subscription may have pre-consumed where the token has not
  else match s.funding with
    | .subscription sub => decide (sub.preConsumed > 0)
    | .wallet _ => false

/-- The funding half of the goroutine `Refund` starts. -/
def refundFunding (s : BillingSession) (f : RefundFaults) (w : Accounts) : Accounts :=
  let w₁ := logged w (s.funding.refund f w)
  if s.extraReserved > 0 ∧ s.funding.source = .subscription ∧ s.relayInfo.subscriptionId > 0 then
    logged w₁ (postConsumeUserSubscriptionDelta f.extra w₁ s.relayInfo.subscriptionId
      (-s.extraReserved))
  else w₁

/-- The token half of the goroutine `Refund` starts. -/
def refundToken (s : BillingSession) (f : RefundFaults) (w : Accounts) : Accounts :=
  if s.tokenConsumed > 0 ∧ s.relayInfo.isPlayground = false then
    logged w (increaseTokenQuota f.token w s.relayInfo.tokenId s.tokenConsumed)
  else w

/-- `BillingSession.Refund`, its goroutine run to the end. -/
def refund (s : BillingSession) (f : RefundFaults) (w : Accounts) : BillingSession × Accounts :=
  if s.settled || s.refunded || !s.needsRefundLocked then (s, w)
  else ({ s with refunded := true }, s.refundToken f (s.refundFunding f w))

/-! ### Reserve -/

def reserveFunding (s : BillingSession) (f : Fault) (delta : Int) (w : Accounts) :
    Except NewAPIError (FundingSource × Accounts) :=
  match s.funding with
  | .wallet wf =>
    match decreaseUserQuota f w wf.userId delta with
    | .error e => .error ⟨.updateDataError, e⟩
    | .ok w' => .ok (.wallet { wf with consumed := wf.consumed + delta }, w')
  | .subscription sf =>
    match postConsumeUserSubscriptionDelta f w sf.subscriptionId delta with
    | .error e => .error ⟨.insufficientUserQuota, "订阅额度不足或未配置订阅: " ++ e⟩
    | .ok w' => .ok (.subscription sf, w')

/-- `rollbackFundingReserve`, on the funding source `reserveFunding` left. -/
def rollbackFundingReserve (f : Fault) (delta : Int) (w : Accounts) :
    FundingSource → FundingSource × Accounts
  | .wallet wf =>
    match increaseUserQuota f w wf.userId delta with
    | .error _ => (.wallet wf, w)
    | .ok w' => (.wallet { wf with consumed := wf.consumed - delta }, w')
  | .subscription sf =>
    match postConsumeUserSubscriptionDelta f w sf.subscriptionId (-delta) with
    | .error _ => (.subscription sf, w)
    | .ok w' => (.subscription sf, w')

def reserveToken (cfg : Config) (s : BillingSession) (delta : Int)
    (tokenByKey : Except String Int) (f : Fault) (w : Accounts) :
    Except NewAPIError Accounts :=
  if delta ≤ 0 || s.relayInfo.isPlayground then .ok w
  else match preConsumeTokenQuota cfg s.relayInfo delta tokenByKey f w with
    | .error e => .error ⟨.preConsumeTokenQuotaFailed, e⟩
    | .ok w' => .ok w'

def syncRelayInfo (s : BillingSession) : BillingSession :=
  let info := { s.relayInfo with
    finalPreConsumedQuota := s.preConsumedQuota, billingSource := s.funding.source }
  { s with relayInfo := match s.funding with
      | .subscription sub => { info with
          subscriptionId := sub.subscriptionId
          subscriptionPreConsumed := sub.preConsumed + s.extraReserved
          subscriptionPostDelta := 0
          subscriptionAmountTotal := sub.amountTotal
          subscriptionAmountUsedAfterPreConsume := sub.amountUsedAfter + s.extraReserved
          subscriptionPlanId := sub.planId
          subscriptionPlanTitle := sub.planTitle }
      | .wallet _ => { info with subscriptionId := 0, subscriptionPreConsumed := 0 } }

/-- What the database answers to a `Reserve`: the faults of the funding and token
calls, the token `GetTokenByKey` finds, and the fault of the rollback. -/
structure ReserveEnv where
  funding : Fault
  tokenByKey : Except String Int
  token : Fault
  rollback : Fault

def reserve (cfg : Config) (s : BillingSession) (targetQuota : Int) (env : ReserveEnv)
    (w : Accounts) : Option NewAPIError × BillingSession × Accounts :=
  if s.settled || s.refunded || s.trusted || targetQuota ≤ s.preConsumedQuota then (none, s, w)
  else
    let delta := targetQuota - s.preConsumedQuota
    match s.reserveFunding env.funding delta w with
    | .error e => (some e, s, w)
    | .ok (funding, w₁) =>
      match s.reserveToken cfg delta env.tokenByKey env.token w₁ with
      | .error e =>
        -- the funding source has paid already
        let (funding', w₂) := rollbackFundingReserve env.rollback delta w₁ funding
        (some e, { s with funding := funding' }, w₂)
      | .ok w₂ =>
        (none, syncRelayInfo { s with
          funding := funding
          preConsumedQuota := s.preConsumedQuota + delta
          tokenConsumed := s.tokenConsumed + delta
          extraReserved := s.extraReserved + delta }, w₂)

/-! ### The factory -/

def shouldTrust (cfg : Config) (s : BillingSession) : Bool :=
  if s.relayInfo.forcePreConsume then false
  else if cfg.trustQuota ≤ 0 then false
  else if !(s.relayInfo.tokenUnlimited || s.relayInfo.tokenQuota > cfg.trustQuota) then false
  else match s.funding.source with
    | .wallet => decide (s.relayInfo.userQuota > cfg.trustQuota)
    -- a subscription pre-consumes the amount it was built with, never 0
    | .subscription => false

/-- What the database answers while a session pre-consumes: the token
`GetTokenByKey` finds, the fault of the token call, the fault of the wallet call
or the answer of the subscription call, and the fault of the token rollback. -/
structure PreConsumeEnv where
  tokenByKey : Except String Int
  token : Fault
  wallet : Fault
  subscription : Except String ChosenSubscription
  rollback : Fault

def preConsume (cfg : Config) (s : BillingSession) (quota : Int) (env : PreConsumeEnv)
    (w : Accounts) : Except NewAPIError BillingSession × Accounts :=
  let trusted := s.shouldTrust cfg
  let effectiveQuota := if trusted then 0 else quota
  match (if effectiveQuota > 0 then
      preConsumeTokenQuota cfg s.relayInfo effectiveQuota env.tokenByKey env.token w
    else .ok w) with
  | .error e => (.error ⟨.preConsumeTokenQuotaFailed, e⟩, w)
  | .ok w₁ =>
    let tokenConsumed := if effectiveQuota > 0 then effectiveQuota else s.tokenConsumed
    match s.funding.preConsume env.wallet env.subscription effectiveQuota w₁ with
    | .error e =>
      -- the token has paid already
      let w₂ := if tokenConsumed > 0 ∧ s.relayInfo.isPlayground = false then
          logged w₁ (increaseTokenQuota env.rollback w₁ s.relayInfo.tokenId tokenConsumed)
        else w₁
      if contains e "no active subscription" || contains e "subscription quota insufficient" then
        (.error ⟨.insufficientUserQuota, "订阅额度不足或未配置订阅: " ++ e⟩, w₂)
      else (.error ⟨.updateDataError, e⟩, w₂)
    | .ok (funding, w₂) =>
      -- a negative quota is recorded here, though nothing was taken for it
      (.ok (syncRelayInfo { s with
        funding := funding
        trusted := trusted
        tokenConsumed := tokenConsumed
        preConsumedQuota := effectiveQuota }), w₂)

end BillingSession

/-- The session `NewBillingSession` starts from: the zero value of every field but
the relay info and the funding source. -/
def newSession (info : RelayInfo) (funding : FundingSource) : BillingSession :=
  { relayInfo := info, funding := funding, preConsumedQuota := 0, tokenConsumed := 0,
    extraReserved := 0, trusted := false, fundingSettled := false, settled := false,
    refunded := false }

/-- What the database answers to `NewBillingSession`: `GetUserQuota`,
`HasActiveUserSubscription`, and the calls of its two ways of pre-consuming. -/
structure NewEnv where
  userQuota : Except String Int
  hasSub : Except String Bool
  wallet : BillingSession.PreConsumeEnv
  subscription : BillingSession.PreConsumeEnv

/-- The closure `tryWallet` of `NewBillingSession`. -/
def tryWallet (cfg : Config) (info : RelayInfo) (preConsumedQuota : Int) (env : NewEnv)
    (w : Accounts) : Except NewAPIError BillingSession × Accounts :=
  match env.userQuota with
  | .error e => (.error ⟨.queryDataError, e⟩, w)
  | .ok userQuota =>
    if userQuota ≤ 0 then
      (.error ⟨.insufficientUserQuota, "用户额度不足, 剩余额度: " ++ cfg.formatQuota userQuota⟩, w)
    else if userQuota - preConsumedQuota < 0 then
      (.error ⟨.insufficientUserQuota, "预扣费额度失败, 用户剩余额度: " ++ cfg.formatQuota userQuota
        ++ ", 需要预扣费额度: " ++ cfg.formatQuota preConsumedQuota⟩, w)
    else
      (newSession { info with userQuota := userQuota } (.wallet ⟨info.userId, 0⟩)).preConsume
        cfg preConsumedQuota env.wallet w

/-- The closure `trySubscription` of `NewBillingSession`. -/
def trySubscription (cfg : Config) (info : RelayInfo) (preConsumedQuota : Int) (env : NewEnv)
    (w : Accounts) : Except NewAPIError BillingSession × Accounts :=
  -- a subscription must be charged something to leave a record
  let subConsume := if preConsumedQuota ≤ 0 then 1 else preConsumedQuota
  (newSession info (.subscription ⟨info.requestId, info.userId, subConsume, 0, 0, 0, 0, 0, ""⟩)
    ).preConsume cfg subConsume env.subscription w

/-- The fallback of `NewBillingSession`: a second way to pre-consume, tried only
when the first failed for want of quota. -/
def orElseInsufficient (r : Except NewAPIError BillingSession × Accounts)
    (next : Accounts → Except NewAPIError BillingSession × Accounts) :
    Except NewAPIError BillingSession × Accounts :=
  match r with
  | (.ok s, w) => (.ok s, w)
  | (.error e, w) => if e.code = .insufficientUserQuota then next w else (.error e, w)

/-- `NewBillingSession`, for a relay info that is not nil. -/
def newBillingSession (cfg : Config) (info : RelayInfo) (preConsumedQuota : Int) (env : NewEnv)
    (w : Accounts) : Except NewAPIError BillingSession × Accounts :=
  match normalizeBillingPreference info.billingPreference with
  | .subscriptionOnly => trySubscription cfg info preConsumedQuota env w
  | .walletOnly => tryWallet cfg info preConsumedQuota env w
  | .walletFirst =>
    orElseInsufficient (tryWallet cfg info preConsumedQuota env w)
      (trySubscription cfg info preConsumedQuota env)
  | .subscriptionFirst =>
    match env.hasSub with
    | .error e => (.error ⟨.queryDataError, e⟩, w)
    | .ok false => tryWallet cfg info preConsumedQuota env w
    | .ok true =>
      orElseInsufficient (trySubscription cfg info preConsumedQuota env w)
        (tryWallet cfg info preConsumedQuota env)

end NewApiPool.Billing
