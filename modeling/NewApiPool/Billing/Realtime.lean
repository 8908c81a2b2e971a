import Mathlib.Data.Rat.Floor
import Mathlib.Algebra.Order.Ring.Rat
import NewApiPool.Billing.SessionLedger

/-!
# What a realtime session is charged

A realtime request keeps a websocket open and answers many times. Its billing
session pre-consumes an amount like that of any request; then
`OpenaiRealtimeHandler` charges the usage of every response at once, through
`PreWssConsumeQuota`, and when the connection is closed `PostWssConsumeQuota`
settles the billing session at the price of the accumulated usage.

The settlement knows of the amount pre-consumed, and of nothing else: what the
responses were charged stays charged. So the request pays the price of its usage
and, on top of it, every charge made on the way. `NewApiPool.Billing.charged_once_iff`
says that the two agree exactly when no charge was made on the way, and that the
wallet was not opened with a negative amount.

The handler reads both sockets from goroutines of its own; here its events come in
one order, and the connection is closed after the last of them.
-/

namespace NewApiPool.Billing

open EventSystem

/-! ### Usage and prices -/

/-- `dto.RealtimeUsage`, with the details that are added up. -/
structure RealtimeUsage where
  totalTokens : Int
  inputTokens : Int
  outputTokens : Int
  inputCachedTokens : Int
  inputTextTokens : Int
  inputAudioTokens : Int
  outputTextTokens : Int
  outputAudioTokens : Int
deriving DecidableEq, Repr

namespace RealtimeUsage

/-- The usage nothing was counted in. -/
def zero : RealtimeUsage := ⟨0, 0, 0, 0, 0, 0, 0, 0⟩

/-- The sum of two usages. -/
def add (u v : RealtimeUsage) : RealtimeUsage :=
  ⟨u.totalTokens + v.totalTokens, u.inputTokens + v.inputTokens, u.outputTokens + v.outputTokens,
    u.inputCachedTokens + v.inputCachedTokens, u.inputTextTokens + v.inputTextTokens,
    u.inputAudioTokens + v.inputAudioTokens, u.outputTextTokens + v.outputTextTokens,
    u.outputAudioTokens + v.outputAudioTokens⟩

/-- The usage with tokens added that were counted on the input side. -/
def addInput (u : RealtimeUsage) (textToken audioToken : Int) : RealtimeUsage :=
  u.add ⟨textToken + audioToken, textToken + audioToken, 0, 0, textToken, audioToken, 0, 0⟩

/-- The usage with tokens added that were counted on the output side. -/
def addOutput (u : RealtimeUsage) (textToken audioToken : Int) : RealtimeUsage :=
  u.add ⟨textToken + audioToken, 0, textToken + audioToken, 0, 0, 0, textToken, audioToken⟩

end RealtimeUsage

/-- The tables of `ratio_setting` and `common.QuotaPerUnit`. A `float64` that is read
there becomes a decimal, and decimals are added and multiplied exactly. -/
structure RatioSetting where
  quotaPerUnit : ℚ
  getModelRatio : String → ℚ
  getCompletionRatio : String → ℚ
  getAudioRatio : String → ℚ
  getAudioCompletionRatio : String → ℚ
  getGroupRatio : String → ℚ
  getGroupGroupRatio : String → String → Option ℚ

structure QuotaInfo where
  usage : RealtimeUsage
  modelName : String
  usePrice : Bool
  modelPrice : ℚ
  modelRatio : ℚ
  groupRatio : ℚ

/-- `decimal.Round(0)` and `IntPart`: to the nearest integer, a half away from 0. -/
def decimalRound (d : ℚ) : Int := if 0 ≤ d then ⌊d + 1 / 2⌋ else -⌊-d + 1 / 2⌋

/-- `decimal.IntPart`: towards 0. -/
def decimalIntPart (d : ℚ) : Int := if 0 ≤ d then ⌊d⌋ else -⌊-d⌋

def calculateAudioQuota (rs : RatioSetting) (info : QuotaInfo) : Int :=
  if info.usePrice then decimalIntPart (info.modelPrice * rs.quotaPerUnit * info.groupRatio)
  else
    let completionRatio := rs.getCompletionRatio info.modelName
    let audioRatio := rs.getAudioRatio info.modelName
    let audioCompletionRatio := rs.getAudioCompletionRatio info.modelName
    let ratio := info.groupRatio * info.modelRatio
    let quota := ((info.usage.inputTextTokens : ℚ) +
      info.usage.outputTextTokens * completionRatio + info.usage.inputAudioTokens * audioRatio +
      info.usage.outputAudioTokens * audioRatio * audioCompletionRatio) * ratio
    -- a ratio that is not 0 never makes a usage free
    decimalRound (if ratio ≠ 0 ∧ quota ≤ 0 then 1 else quota)

/-- What the realtime functions read of the relay info and the gin context. -/
structure RealtimeInfo where
  originModelName : String
  upstreamModelName : String
  usingGroup : String
  userGroup : String
  /-- `ContextKeyAutoGroup`, if it is set. -/
  autoGroup : Option String
  /-- `relayInfo.UsePrice` -/
  usePrice : Bool
  /-- `PriceData.UsePrice` -/
  priceUsePrice : Bool
  /-- `PriceData.ModelRatio` -/
  priceModelRatio : ℚ
  /-- `PriceData.GroupRatioInfo.GroupRatio` -/
  priceGroupRatio : ℚ

/-- The group ratio of `PreWssConsumeQuota`. -/
def actualGroupRatio (rs : RatioSetting) (info : RealtimeInfo) : ℚ :=
  let usingGroup := info.autoGroup.getD info.usingGroup
  (rs.getGroupGroupRatio info.userGroup usingGroup).getD (rs.getGroupRatio usingGroup)

/-- The quota `PreWssConsumeQuota` computes for a usage. -/
def preWssQuota (rs : RatioSetting) (info : RealtimeInfo) (u : RealtimeUsage) : Int :=
  calculateAudioQuota rs ⟨u, info.originModelName, info.usePrice, 0,
    rs.getModelRatio info.originModelName, actualGroupRatio rs info⟩

/-- The quota `PostWssConsumeQuota` computes for the accumulated usage and writes
to the log. `tieredSettle` is what `TryTieredSettle` answers for the input and
output tokens. -/
def postWssQuota (rs : RatioSetting) (info : RealtimeInfo) (tieredSettle : Int → Int → Option Int)
    (u : RealtimeUsage) : Int :=
  if u.totalTokens = 0 then 0
  else
    (tieredSettle u.inputTokens u.outputTokens).getD
      (calculateAudioQuota rs ⟨u, info.upstreamModelName, info.priceUsePrice, 0,
        info.priceModelRatio, info.priceGroupRatio⟩)

/-! ### Charging on the way -/

/-- What the database answers to `PreWssConsumeQuota`: the quota of the user and the
token. -/
structure Balance where
  userQuota : Int
  tokenUnlimited : Bool
  tokenRemainQuota : Int

/-- `PostConsumeQuota`, with every call of the database succeeding. -/
def postConsumeQuota (s : BillingSession) (w : Accounts) (quota : Int) :
    Except String (BillingSession × Accounts) :=
  match s.relayInfo.billingSource with
  | .subscription =>
    if s.relayInfo.subscriptionId = 0 then .error "subscription id is missing"
    else if quota = 0 then .ok (s, (s.settleToken none quota w).2)
    else match postConsumeUserSubscriptionDelta none w s.relayInfo.subscriptionId quota with
      | .error e => .error e
      | .ok w₁ =>
        let info := { s.relayInfo with
          subscriptionPostDelta := s.relayInfo.subscriptionPostDelta + quota }
        .ok ({ s with relayInfo := info }, (s.settleToken none quota w₁).2)
  | .wallet =>
    match (if quota > 0 then decreaseUserQuota none w s.relayInfo.userId quota
      else increaseUserQuota none w s.relayInfo.userId (-quota)) with
    | .error e => .error e
    | .ok w₁ => .ok (s, (s.settleToken none quota w₁).2)

/-- `PreWssConsumeQuota`: the session and the accounts it leaves, and whether it
returned an error. -/
def preWssConsumeQuota (rs : RatioSetting) (info : RealtimeInfo) (b : Balance) (u : RealtimeUsage)
    (s : BillingSession) (w : Accounts) : Bool × BillingSession × Accounts :=
  -- a fixed price is charged by the settlement only
  if info.usePrice then (true, s, w)
  else
    let quota := preWssQuota rs info u
    if b.userQuota < quota then (false, s, w)
    else if b.tokenUnlimited = false ∧ b.tokenRemainQuota < quota then (false, s, w)
    else match postConsumeQuota s w quota with
      | .error _ => (false, s, w)
      | .ok (s', w') => (true, s', w')

/-! ### The handler -/

/-- The state of `OpenaiRealtimeHandler`: its three usages, whether an error has
ended the session, and the billing session with the accounts. -/
structure Conn where
  usage : RealtimeUsage
  localUsage : RealtimeUsage
  sumUsage : RealtimeUsage
  ended : Bool
  session : BillingSession
  accounts : Accounts

/-- What the handler reads from its sockets; the numbers are what
`CountTokenRealtime` counts in the message. -/
inductive WssEvent where
  /-- A message of the client. -/
  | client (textToken audioToken : Int)
  /-- `response.done` of the upstream, with its usage if it gives one. -/
  | responseDone (usage : Option RealtimeUsage) (textToken audioToken : Int) (b : Balance)
  /-- `session.updated` or `session.created`. -/
  | session
  /-- Another message of the upstream. -/
  | target (textToken audioToken : Int)
  /-- An error, or a connection that is closed. -/
  | close

namespace Conn

/-- The handler at its start. -/
def start (s : BillingSession) (w : Accounts) : Conn :=
  ⟨.zero, .zero, .zero, false, s, w⟩

/-- `preConsumeUsage`: the usage is added to the sum before it is charged. -/
def preConsumeUsage (rs : RatioSetting) (info : RealtimeInfo) (b : Balance) (u : RealtimeUsage)
    (x : Conn) : Bool × Conn :=
  let r := preWssConsumeQuota rs info b u x.session x.accounts
  (r.1, { x with sumUsage := x.sumUsage.add u, session := r.2.1, accounts := r.2.2 })

/-- One event of `OpenaiRealtimeHandler`: a message of either side is counted, and a finished
response is charged by `PreWssConsumeQuota`. -/
def step (rs : RatioSetting) (info : RealtimeInfo) (x : Conn) : WssEvent → Conn
  | .client textToken audioToken =>
    if x.ended then x else { x with localUsage := x.localUsage.addInput textToken audioToken }
  | .responseDone (some u) _ _ b =>
    if x.ended then x
    else
      let x₁ := { x with usage := x.usage.add u }
      match x₁.preConsumeUsage rs info b x₁.usage with
      | (false, x₂) => { x₂ with ended := true }
      -- the upstream has counted what was counted here as well
      | (true, x₂) => { x₂ with usage := .zero, localUsage := .zero }
  | .responseDone none textToken audioToken b =>
    if x.ended then x
    else
      -- no usage in the message: its tokens are counted, as input
      let x₁ := { x with localUsage := x.localUsage.addInput textToken audioToken }
      match x₁.preConsumeUsage rs info b x₁.localUsage with
      | (false, x₂) => { x₂ with ended := true }
      | (true, x₂) => { x₂ with localUsage := .zero }
  | .session => x
  | .target textToken audioToken =>
    if x.ended then x else { x with localUsage := x.localUsage.addOutput textToken audioToken }
  | .close => { x with ended := true }

/-- The end of the handler: what is left in either usage is charged, and an error
is not looked at. -/
def flush (rs : RatioSetting) (info : RealtimeInfo) (b₁ b₂ : Balance) (x : Conn) : Conn :=
  let x₁ := if x.usage.totalTokens ≠ 0 then (x.preConsumeUsage rs info b₁ x.usage).2 else x
  if x₁.localUsage.totalTokens ≠ 0 then (x₁.preConsumeUsage rs info b₂ x₁.localUsage).2 else x₁

/-- `PostWssConsumeQuota`: the accounts after the billing session is settled. -/
def postWssConsumeQuota (rs : RatioSetting) (info : RealtimeInfo)
    (tieredSettle : Int → Int → Option Int) (x : Conn) : Accounts :=
  (x.session.settle (postWssQuota rs info tieredSettle x.sumUsage) none none x.accounts).2.2

end Conn

/-! ### What is charged on the way -/

section Prices

variable {rs : RatioSetting} {info : RealtimeInfo}

theorem decimalRound_nonneg {d : ℚ} (hd : 0 ≤ d) : 0 ≤ decimalRound d := by
  unfold decimalRound
  rw [if_pos hd]
  exact Int.floor_nonneg.mpr (by positivity)

/-- A usage never has a negative price: a product that is not positive counts as 1,
unless the ratio is 0. -/
theorem calculateAudioQuota_nonneg {qi : QuotaInfo} (h : qi.usePrice = false) :
    0 ≤ calculateAudioQuota rs qi := by
  unfold calculateAudioQuota
  rw [if_neg (by simp [h])]
  apply decimalRound_nonneg
  split
  · exact zero_le_one
  · rename_i hc
    by_cases hr : qi.groupRatio * qi.modelRatio = 0
    · rw [hr, mul_zero]
    · exact (not_le.mp fun hle => hc ⟨hr, hle⟩).le

/-- A usage that `PreWssConsumeQuota` lets pass uncharged: the request has a fixed
price, or the user or the token lacks the quota. -/
def Waived (rs : RatioSetting) (info : RealtimeInfo) (b : Balance) (u : RealtimeUsage) : Prop :=
  info.usePrice = true ∨ b.userQuota < preWssQuota rs info u ∨
    (b.tokenUnlimited = false ∧ b.tokenRemainQuota < preWssQuota rs info u)

/-- A usage that costs nothing: it is waived, or its price is 0. -/
def Free (rs : RatioSetting) (info : RealtimeInfo) (b : Balance) (u : RealtimeUsage) : Prop :=
  Waived rs info b u ∨ preWssQuota rs info u = 0

instance decidableFree (rs : RatioSetting) (info : RealtimeInfo) (b : Balance)
    (u : RealtimeUsage) : Decidable (Free rs info b u) :=
  inferInstanceAs (Decidable ((_ ∨ _ ∨ (_ ∧ _)) ∨ _))

/-- What `PreWssConsumeQuota` charges. -/
def preWssCost (rs : RatioSetting) (info : RealtimeInfo) (b : Balance) (u : RealtimeUsage) : Int :=
  if Free rs info b u then 0 else preWssQuota rs info u

theorem preWssCost_nonneg (b : Balance) (u : RealtimeUsage) : 0 ≤ preWssCost rs info b u := by
  unfold preWssCost
  split
  · exact le_rfl
  · rename_i hfree
    refine calculateAudioQuota_nonneg ?_
    cases h : info.usePrice
    · rfl
    · exact absurd (Or.inl (Or.inl h)) hfree

theorem preWssCost_eq_zero {b : Balance} {u : RealtimeUsage} :
    preWssCost rs info b u = 0 ↔ Free rs info b u := by
  unfold preWssCost
  refine ⟨fun h => ?_, fun h => if_pos h⟩
  by_contra hfree
  rw [if_neg hfree] at h
  exact hfree (Or.inr h)

end Prices

/-- The account `PostConsumeQuota` charges. -/
def RelayInfo.account (info : RelayInfo) : FundingAccount :=
  match info.billingSource with
  | .wallet => (.wallet, info.userId)
  | .subscription => (.subscription, info.subscriptionId)

/-- A session that is open, and whose relay info names the account it draws on. -/
structure Linked (s : BillingSession) : Prop where
  settled : s.settled = false
  fundingSettled : s.fundingSettled = false
  idPos : s.funding.IdPos
  account : s.relayInfo.account = s.funding.account

/-- `PostConsumeQuota` charges both books, whatever has become of the session: all it
needs is that the relay info names the account. -/
theorem postConsumeQuota_charges {s : BillingSession} (hpos : s.funding.IdPos)
    (hacc : s.relayInfo.account = s.funding.account) (w : Accounts) (quota : Int) :
    ∃ info : RelayInfo, info.account = s.relayInfo.account ∧
      BillingSession.party { s with relayInfo := info } = s.party ∧
      postConsumeQuota s w quota = .ok ({ s with relayInfo := info },
        (w.charge s.party.account quota).chargeToken s.party quota) := by
  have htoken : ∀ u : Accounts, (s.settleToken none quota u).2 = u.chargeToken s.party quota :=
    fun u => congrArg Prod.snd (settleToken_of_ok (Or.inr rfl))
  unfold postConsumeQuota
  have hacc' := hacc
  unfold RelayInfo.account at hacc
  cases hsrc : s.relayInfo.billingSource with
  | wallet =>
    rw [hsrc] at hacc
    dsimp only at hacc ⊢
    have hcharge : (if quota > 0 then decreaseUserQuota none w s.relayInfo.userId quota
        else increaseUserQuota none w s.relayInfo.userId (-quota)) =
        .ok (w.charge s.party.account quota) := by
      rw [show s.party.account = s.funding.account from rfl, ← hacc]
      by_cases hpos : quota > 0
      · rw [if_pos hpos]
        exact quotaPrimitive_none hpos.le
      · rw [if_neg hpos]
        exact quotaPrimitive_none (by omega)
    rw [hcharge]
    exact ⟨s.relayInfo, rfl, rfl, by rw [← htoken]⟩
  | subscription =>
    rw [hsrc] at hacc
    dsimp only at hacc ⊢
    have hid : 0 < s.relayInfo.subscriptionId := by
      cases hfun : s.funding with
      | wallet wf =>
        rw [hfun] at hacc
        cases hacc
      | subscription sf =>
        rw [hfun] at hpos hacc
        rw [show s.relayInfo.subscriptionId = sf.subscriptionId from congrArg Prod.snd hacc]
        exact hpos
    have hcharge : w.charge s.party.account quota = w.addUsed s.relayInfo.subscriptionId quota := by
      rw [show s.party.account = s.funding.account from rfl, ← hacc]
      rfl
    rw [if_neg hid.ne']
    -- a subscription is not asked for 0, but the token is
    by_cases hzero : quota = 0
    · subst hzero
      refine ⟨s.relayInfo, rfl, rfl, ?_⟩
      rw [if_pos rfl, htoken, hcharge]
      simp [Accounts.addUsed]
    · rw [if_neg hzero, postConsumeUserSubscriptionDelta_none hid]
      refine ⟨{ s.relayInfo with
        subscriptionPostDelta := s.relayInfo.subscriptionPostDelta + quota }, rfl, rfl, ?_⟩
      rw [hcharge, ← htoken]

/-- `PostConsumeQuota` charges both books of an open session. -/
theorem postConsumeQuota_eq {s : BillingSession} (h : Linked s) (w : Accounts) (quota : Int) :
    ∃ s' w', postConsumeQuota s w quota = .ok (s', w') ∧ Linked s' ∧ s'.party = s.party ∧
      s'.preConsumedQuota = s.preConsumedQuota ∧
      w' = (w.charge s.party.account quota).chargeToken s.party quota := by
  obtain ⟨info, hinfo, hparty, heq⟩ := postConsumeQuota_charges h.idPos h.account w quota
  exact ⟨_, _, heq, ⟨h.settled, h.fundingSettled, h.idPos, hinfo.trans h.account⟩, hparty, rfl, rfl⟩

/-- **The handler went from `x` to `y` and charged `c`**, to both books. -/
structure Charged (c : Int) (x y : Conn) : Prop where
  linked : Linked y.session
  party : y.session.party = x.session.party
  amount : y.session.preConsumedQuota = x.session.preConsumedQuota
  funding : ∀ w₀, fundingDebit w₀ y.accounts x.session.party.account =
    fundingDebit w₀ x.accounts x.session.party.account + c
  token : ∀ w₀, tokenDebit w₀ y.accounts x.session.party.tokenId =
    tokenDebit w₀ x.accounts x.session.party.tokenId + x.session.party.tokenShare c

section Charged

variable {rs : RatioSetting} {info : RealtimeInfo} {x y z : Conn} {c d : Int}

/-- Nothing is charged where the session and the accounts are left alone. -/
theorem Charged.of_same (h : Linked x.session) (hs : y.session = x.session)
    (ha : y.accounts = x.accounts) : Charged 0 x y where
  linked := hs ▸ h
  party := by rw [hs]
  amount := by rw [hs]
  funding w₀ := by rw [ha, add_zero]
  token w₀ := by rw [ha, tokenShare_zero, add_zero]

theorem Charged.trans (h : Charged c x y) (h' : Charged d y z) : Charged (c + d) x z where
  linked := h'.linked
  party := h'.party.trans h.party
  amount := h'.amount.trans h.amount
  funding w₀ := by
    have := h'.funding w₀
    rw [h.party, h.funding w₀] at this
    omega
  token w₀ := by
    have := h'.token w₀
    rw [h.party, h.token w₀] at this
    rw [tokenShare_add]
    omega

theorem Charged.congr {x' y' : Conn} (h : Charged c x y) (hx : x'.session = x.session)
    (hxa : x'.accounts = x.accounts) (hy : y'.session = y.session)
    (hya : y'.accounts = y.accounts) : Charged c x' y' where
  linked := hy ▸ h.linked
  party := by rw [hy, hx, h.party]
  amount := by rw [hy, hx, h.amount]
  funding w₀ := by rw [hx, hya, hxa, h.funding w₀]
  token w₀ := by rw [hx, hya, hxa, h.token w₀]

/-- **Charging a usage**: `PreWssConsumeQuota` takes the quota of the usage from the user and from
the token, or nothing at all. -/
theorem charged_preConsumeUsage (rs : RatioSetting) (info : RealtimeInfo)
    (h : Linked x.session) (b : Balance) (u : RealtimeUsage) :
    Charged (preWssCost rs info b u) x (x.preConsumeUsage rs info b u).2 := by
  by_cases hwaived : Waived rs info b u
  · have hnone : (preWssConsumeQuota rs info b u x.session x.accounts).2 =
        (x.session, x.accounts) := by
      unfold preWssConsumeQuota
      split
      · rfl
      rename_i hprice
      dsimp only
      split
      · rfl
      rename_i huser
      rw [if_pos ((hwaived.resolve_left hprice).resolve_left huser)]
    rw [preWssCost_eq_zero.mpr (Or.inl hwaived)]
    exact .of_same h (congrArg Prod.fst hnone) (congrArg Prod.snd hnone)
  · have hcost : preWssCost rs info b u = preWssQuota rs info u := by
      unfold preWssCost
      split
      · rename_i hfree
        exact (hfree.resolve_left hwaived).symm
      · rfl
    obtain ⟨s', w', heq, hl, hp, ha, hw⟩ :=
      postConsumeQuota_eq h x.accounts (preWssQuota rs info u)
    have hpre : preWssConsumeQuota rs info b u x.session x.accounts = (true, s', w') := by
      unfold Waived at hwaived
      rw [not_or, not_or] at hwaived
      unfold preWssConsumeQuota
      rw [if_neg hwaived.1]
      dsimp only
      rw [if_neg hwaived.2.1, if_neg hwaived.2.2, heq]
    subst hw
    rw [hcost]
    refine ⟨?_, ?_, ?_, fun w₀ => ?_, fun w₀ => ?_⟩ <;>
      simp only [Conn.preConsumeUsage, hpre]
    · exact hl
    · exact hp
    · exact ha
    · rw [fundingDebit_chargeToken, fundingDebit_charge]
    · rw [tokenDebit_chargeToken, tokenDebit_charge]

/-- An event that charges nothing, in the state it finds. -/
def FreeEvent (rs : RatioSetting) (info : RealtimeInfo) (x : Conn) : WssEvent → Prop
  | .responseDone (some u) _ _ b => x.ended = true ∨ Free rs info b (x.usage.add u)
  | .responseDone none textToken audioToken b =>
    x.ended = true ∨ Free rs info b (x.localUsage.addInput textToken audioToken)
  | _ => True

/-- An end of the handler that charges nothing. -/
def FreeFlush (rs : RatioSetting) (info : RealtimeInfo) (b₁ b₂ : Balance) (x : Conn) : Prop :=
  (x.usage.totalTokens = 0 ∨ Free rs info b₁ x.usage) ∧
    (x.localUsage.totalTokens = 0 ∨ Free rs info b₂ x.localUsage)

/-- **One event** charges an amount that is 0 exactly when the event is free. -/
theorem charged_step (rs : RatioSetting) (info : RealtimeInfo) (h : Linked x.session)
    (e : WssEvent) :
    ∃ c, 0 ≤ c ∧ (c = 0 ↔ FreeEvent rs info x e) ∧ Charged c x (x.step rs info e) := by
  have hsame : ∀ y : Conn, y.session = x.session → y.accounts = x.accounts →
      ∃ c, 0 ≤ c ∧ (c = 0 ↔ True) ∧ Charged c x y :=
    fun y hs ha => ⟨0, le_rfl, by simp, .of_same h hs ha⟩
  cases e with
  | client textToken audioToken =>
    refine hsame _ ?_ ?_
    · simp only [Conn.step, apply_ite Conn.session, ite_self]
    · simp only [Conn.step, apply_ite Conn.accounts, ite_self]
  | session => exact hsame _ rfl rfl
  | target textToken audioToken =>
    refine hsame _ ?_ ?_
    · simp only [Conn.step, apply_ite Conn.session, ite_self]
    · simp only [Conn.step, apply_ite Conn.accounts, ite_self]
  | close => exact hsame _ rfl rfl
  | responseDone usage textToken audioToken b =>
    by_cases hend : x.ended = true
    · refine ⟨0, le_rfl, ?_, ?_⟩
      · cases usage <;> simp [FreeEvent, hend]
      · cases usage <;> simpa [Conn.step, hend] using Charged.of_same (y := x) h rfl rfl
    cases usage with
    | none =>
      refine ⟨preWssCost rs info b (x.localUsage.addInput textToken audioToken),
        preWssCost_nonneg b _, ?_, ?_⟩
      · rw [preWssCost_eq_zero]
        simp [FreeEvent, hend]
      · have hc := charged_preConsumeUsage rs info
          (x := { x with localUsage := x.localUsage.addInput textToken audioToken }) h b
          (x.localUsage.addInput textToken audioToken)
        simp only [Conn.step, if_neg hend]
        split
        all_goals
          rename_i y hy
          rw [hy] at hc
          exact hc.congr rfl rfl rfl rfl
    | some u =>
      refine ⟨preWssCost rs info b (x.usage.add u), preWssCost_nonneg b _, ?_, ?_⟩
      · rw [preWssCost_eq_zero]
        simp [FreeEvent, hend]
      · have hc := charged_preConsumeUsage rs info
          (x := { x with usage := x.usage.add u }) h b (x.usage.add u)
        simp only [Conn.step, if_neg hend]
        split
        all_goals
          rename_i y hy
          rw [hy] at hc
          exact hc.congr rfl rfl rfl rfl

/-- **A run of events** charges an amount that is 0 exactly when each of them is
free. -/
theorem charged_run (rs : RatioSetting) (info : RealtimeInfo) (h : Linked x.session)
    (es : List WssEvent) :
    ∃ c, 0 ≤ c ∧ (c = 0 ↔ Along (Conn.step rs info) (FreeEvent rs info) x es) ∧
      Charged c x (run (Conn.step rs info) x es) := by
  induction es generalizing x with
  | nil => exact ⟨0, le_rfl, by simp, .of_same h rfl rfl⟩
  | cons e es ih =>
    obtain ⟨c, hc, hfree, hch⟩ := charged_step rs info h e
    obtain ⟨d, hd, hfree', hch'⟩ := ih hch.linked
    refine ⟨c + d, by omega, ?_, hch.trans hch'⟩
    rw [along_cons, ← hfree, ← hfree']
    omega

/-- **The end of the handler** likewise. -/
theorem charged_flush (rs : RatioSetting) (info : RealtimeInfo) (h : Linked x.session)
    (b₁ b₂ : Balance) :
    ∃ c, 0 ≤ c ∧ (c = 0 ↔ FreeFlush rs info b₁ b₂ x) ∧ Charged c x (x.flush rs info b₁ b₂) := by
  -- each half: nothing to flush, or the usage is charged
  have hhalf : ∀ (y : Conn) (u : RealtimeUsage) (b : Balance), Linked y.session →
      ∃ c, 0 ≤ c ∧ (c = 0 ↔ u.totalTokens = 0 ∨ Free rs info b u) ∧
        Charged c y (if u.totalTokens ≠ 0 then (y.preConsumeUsage rs info b u).2 else y) := by
    intro y u b hy
    by_cases hu : u.totalTokens = 0
    · refine ⟨0, le_rfl, by simp [hu], ?_⟩
      rw [if_neg (not_not.mpr hu)]
      exact .of_same hy rfl rfl
    · refine ⟨preWssCost rs info b u, preWssCost_nonneg b u, ?_, ?_⟩
      · rw [preWssCost_eq_zero]
        simp [hu]
      · rw [if_pos hu]
        exact charged_preConsumeUsage rs info hy b u
  obtain ⟨c, hc, hfree, hch⟩ := hhalf x x.usage b₁ h
  obtain ⟨d, hd, hfree', hch'⟩ := hhalf _ x.localUsage b₂ hch.linked
  refine ⟨c + d, by omega, ?_, ?_⟩
  · unfold FreeFlush
    rw [← hfree, ← hfree']
    omega
  · have hlocal : (if x.usage.totalTokens ≠ 0 then (x.preConsumeUsage rs info b₁ x.usage).2
        else x).localUsage = x.localUsage := by
      split <;> rfl
    unfold Conn.flush
    dsimp only
    rw [hlocal]
    exact hch.trans hch'

end Charged

/-! ### The whole session -/

section Session

variable {cfg : Config} {info : RelayInfo} {q : Int} {env : NewEnv} {w₀ w₁ : Accounts}
  {s : BillingSession}

/-- What an opened session is: its funding source draws on the account the relay
info names, and a wallet has recorded `q`, or 0 if it is trusted. -/
theorem newBillingSession_opened (henv : env.Compensates)
    (h : newBillingSession cfg info q env w₀ = (.ok s, w₁)) :
    s.settled = false ∧ s.fundingSettled = false ∧ s.relayInfo.account = s.funding.account ∧
      (s.funding.source = .wallet → s.trusted = false → s.preConsumedQuota = q) := by
  obtain ⟨info', F₀, F, n, f, o, hwallet, hF, rfl⟩ := exists_preConsume henv h
  obtain ⟨hsource, haccount⟩ := preConsume_account hF
  cases F with
  | subscription sf => exact ⟨rfl, rfl, rfl, nofun⟩
  | wallet wf =>
    obtain ⟨huser, rfl⟩ := hwallet hsource.symm
    exact ⟨rfl, rfl, ((haccount hsource.symm).trans huser).symm,
      fun _ htrust => effectiveQuota_of_not_trusted htrust⟩

/-- The accounts when the session has ended: the handler has read `es` and flushed,
and `PostWssConsumeQuota` has settled. -/
def realtimeSession (rs : RatioSetting) (rinfo : RealtimeInfo)
    (tieredSettle : Int → Int → Option Int) (es : List WssEvent) (b₁ b₂ : Balance)
    (s : BillingSession) (w : Accounts) : Int × Accounts :=
  let x := (run (Conn.step rs rinfo) (.start s w) es).flush rs rinfo b₁ b₂
  (postWssQuota rs rinfo tieredSettle x.sumUsage, x.postWssConsumeQuota rs rinfo tieredSettle)

/-- What is asked of a realtime session: each book was debited what the log says
(the token nothing in playground mode). -/
def ChargedOnce (rs : RatioSetting) (rinfo : RealtimeInfo)
    (tieredSettle : Int → Int → Option Int) (es : List WssEvent) (b₁ b₂ : Balance)
    (w₀ : Accounts) (s : BillingSession) (w₁ : Accounts) : Prop :=
  let r := realtimeSession rs rinfo tieredSettle es b₁ b₂ s w₁
  fundingDebit w₀ r.2 s.party.account = r.1 ∧
    tokenDebit w₀ r.2 s.party.tokenId = s.party.tokenShare r.1

/-- What the settlement of a session adds to what the handler has charged. -/
theorem charged_settle {x : Conn} {c : Int} {w : Accounts} (hch : Charged c (.start s w₁) x)
    (a : Int) :
    fundingDebit w (x.session.settle a none none x.accounts).2.2 s.party.account =
        fundingDebit w w₁ s.party.account + c + (a - s.preConsumedQuota) ∧
      tokenDebit w (x.session.settle a none none x.accounts).2.2 s.party.tokenId =
        tokenDebit w w₁ s.party.tokenId + s.party.tokenShare (c + (a - s.preConsumedQuota)) := by
  have hparty : x.session.party = s.party := hch.party
  have hamount : x.session.preConsumedQuota = s.preConsumedQuota := hch.amount
  have hfund := hch.funding w
  have htok := hch.token w
  simp only [Conn.start] at hfund htok
  rcases settle_cases hch.linked.settled hch.linked.fundingSettled hch.linked.idPos a none none
    x.accounts with ⟨ha, heq⟩ | ⟨-, hne, -⟩ | ⟨-, -, -, -, heq⟩
  · rw [heq, ha, hamount, sub_self, add_zero, add_zero]
    exact ⟨hfund, htok⟩
  · exact absurd rfl hne
  · rw [heq, settleToken_of_ok (Or.inr rfl), hparty, hamount]
    constructor
    · rw [fundingDebit_chargeToken, fundingDebit_charge, hfund]
    · rw [tokenDebit_chargeToken, tokenDebit_charge, htok, tokenShare_add]
      omega

/-- **A realtime session is charged once exactly when nothing is charged on the
way**, and its wallet was not opened untrusted with a negative amount. A
subscription session is for a request that has no record yet. -/
theorem charged_once_iff (rs : RatioSetting) (rinfo : RealtimeInfo)
    (tieredSettle : Int → Int → Option Int) (es : List WssEvent) (b₁ b₂ : Balance)
    (henv : env.Compensates) (hnew : newBillingSession cfg info q env w₀ = (.ok s, w₁))
    (hfresh : s.funding.source = .subscription → LedgerReady w₀ q s) :
    ChargedOnce rs rinfo tieredSettle es b₁ b₂ w₀ s w₁ ↔
      LedgerReady w₀ q s ∧ Along (Conn.step rs rinfo) (FreeEvent rs rinfo) (.start s w₁) es ∧
        FreeFlush rs rinfo b₁ b₂ (run (Conn.step rs rinfo) (.start s w₁) es) := by
  obtain ⟨hset, hfset, hacc, hwallet⟩ := newBillingSession_opened henv hnew
  have hopen := newBillingSession_ok henv hnew
  have hid : s.funding.IdPos := by
    rcases hopen with ⟨-, hheld⟩ | ⟨hnot, -⟩
    · exact hheld.idPos
    · cases hfun : s.funding with
      | wallet wf => trivial
      | subscription sf => exact absurd (hfresh (by rw [hfun]; rfl)) hnot
  have hlinked : Linked (Conn.start s w₁).session := ⟨hset, hfset, hid, hacc⟩
  obtain ⟨c, hc, hfree, hch⟩ := charged_run rs rinfo hlinked es
  obtain ⟨d, hd, hfree', hch'⟩ := charged_flush rs rinfo hch.linked b₁ b₂
  rw [← hfree, ← hfree']
  unfold ChargedOnce realtimeSession Conn.postWssConsumeQuota
  dsimp only
  generalize postWssQuota rs rinfo tieredSettle _ = a
  obtain ⟨hfund, htok⟩ := charged_settle (w := w₀) (hch.trans hch') a
  rw [hfund, htok]
  rcases hopen with ⟨hready, hheld⟩ | ⟨hnot, -, hzero⟩
  · rw [hheld.funding, hheld.token]
    have hshare : c + d = 0 → s.party.tokenShare s.preConsumedQuota +
        s.party.tokenShare (c + d + (a - s.preConsumedQuota)) = s.party.tokenShare a := by
      intro h0
      have hsum : s.preConsumedQuota + (0 + (a - s.preConsumedQuota)) = a := by omega
      rw [h0, ← tokenShare_add, hsum]
    -- both amounts are non-negative, so their sum is 0 only if each is
    constructor
    · rintro ⟨hf, -⟩
      exact ⟨hready, by omega, by omega⟩
    · rintro ⟨-, rfl, rfl⟩
      exact ⟨by omega, hshare rfl⟩
  · -- the wallet recorded a negative amount it did not take
    have hneg : s.preConsumedQuota < 0 := by
      unfold LedgerReady at hnot
      cases hfun : s.funding with
      | wallet wf =>
        rw [hfun] at hnot
        simp only [Classical.not_imp, not_le] at hnot
        rw [hwallet (by rw [hfun]; rfl) hnot.1]
        exact hnot.2
      | subscription sf =>
        exact absurd (hfresh (by rw [hfun]; rfl)) (by unfold LedgerReady; exact hnot)
    constructor
    · rintro ⟨hf, -⟩
      rw [hzero] at hf
      omega
    · rintro ⟨hready, -⟩
      exact absurd hready hnot

/-! ### A response that is charged twice -/

/-- Ratios of 1 for every model and group, and a group that is free. -/
def sampleRatios : RatioSetting :=
  ⟨500000, fun _ => 1, fun _ => 1, fun _ => 1, fun _ => 1,
    fun group => if group = "free" then 0 else 1, fun _ _ => none⟩

/-- A realtime request of a group. -/
def sampleRealtime (group : String) : RealtimeInfo :=
  ⟨"gpt-realtime", "gpt-realtime", group, "default", none, false, false, 1, 1⟩

/-- A balance of 100 on either side. -/
def sampleBalance : Balance := ⟨100, false, 100⟩

/-- A response of ten text tokens. -/
def sampleResponse : WssEvent :=
  .responseDone (some ⟨10, 10, 0, 0, 10, 0, 0, 0⟩) 0 0 sampleBalance

/-- The session a request for 40 opens. -/
def sampleSession : BillingSession :=
  openedSession { sampleInfo with userQuota := 100 } (.wallet ⟨1, 40⟩) false 40

/-- The accounts after it is opened. -/
def sampleOpened : Accounts := (sampleAccounts.addToken 2 (-40)).addQuota 1 (-40)

theorem sampleSession_opened :
    newBillingSession sampleConfig sampleInfo 40 sampleEnv sampleAccounts =
      (.ok sampleSession, sampleOpened) := by
  have hpref : normalizeBillingPreference sampleInfo.billingPreference = .walletOnly := by decide
  unfold newBillingSession
  rw [hpref]
  rfl

/-- In the free group the response is charged once, by the settlement. -/
theorem charged_once_free_group :
    ChargedOnce sampleRatios (sampleRealtime "free") (fun _ _ => none) [sampleResponse]
      sampleBalance sampleBalance sampleAccounts sampleSession sampleOpened := by
  refine (charged_once_iff sampleRatios (sampleRealtime "free") (fun _ _ => none) [sampleResponse]
    sampleBalance sampleBalance ⟨rfl, rfl⟩ sampleSession_opened nofun).mpr ⟨?_, ?_, ?_⟩
  · exact fun _ => by decide
  · refine ⟨Or.inr (Or.inr ?_), trivial⟩
    decide +kernel
  · refine ⟨Or.inl ?_, Or.inl ?_⟩
    · decide +kernel
    · decide +kernel

/-- **A response of price 10 costs 20**: it is charged when it is done, and again by
the settlement. -/
theorem response_charged_twice :
    newBillingSession sampleConfig sampleInfo 40 sampleEnv sampleAccounts =
      (.ok sampleSession, sampleOpened) ∧
    ¬ ChargedOnce sampleRatios (sampleRealtime "default") (fun _ _ => none) [sampleResponse]
      sampleBalance sampleBalance sampleAccounts sampleSession sampleOpened := by
  refine ⟨sampleSession_opened, ?_⟩
  rintro ⟨hfund, -⟩
  revert hfund
  decide +kernel

end Session

end NewApiPool.Billing
