import Mathlib.Algebra.Order.Floor.Ring
import Mathlib.Data.Rat.Floor
import Mathlib.Tactic.FieldSimp
import Mathlib.Tactic.Linarith
import NewApiPool.Lib.Binary64
import NewApiPool.Payment.TopUp

/-!
# Top-ups through Epay

`RequestEpay` makes an order and `EpayNotify` completes it. The price is for the exact amount of
the request; the order has a whole number of dollars, so that of an amount of tokens the rest is
paid for and not credited (`creditsPaid_iff`).

The callback answers before it does anything, saves the order and then raises the user's quota,
in two statements of their own. The order and the quota agree after every sequence of deliveries
if each delivery that saves the order also raises the quota, and after none with a delivery that
does not (`settled_iff`).

The payment method is a column that no completion reads, and is left out.
-/

namespace NewApiPool.Payment

open EventSystem

/-! ### The order -/

/-- The settings of the top-ups. The numbers are `float64` in the source; each of them is given by
the decimal that `decimal.NewFromFloat` makes of it, and is the rounding of this decimal. -/
structure TopUpSetting where
  quotaPerUnit : ℚ
  /-- `QuotaDisplayTypeTokens` -/
  displayTokens : Bool
  minTopUp : ℤ
  price : ℚ
  getTopupGroupRatio : String → ℚ
  amountDiscount : ℤ → Option ℚ
  payMethods : List String

structure EpayRequest where
  amount : ℤ
  paymentMethod : String
  amount_range : -2 ^ 63 ≤ amount ∧ amount < 2 ^ 63

/-- What `RequestEpay` gets from the database and from the client of the provider. -/
structure EpayEnv where
  getUserGroup : Option String
  client : Bool
  purchase : Bool
  insert : Bool

section Request

variable (st : TopUpSetting)

/-- The ratio of a group, where `0` counts as none. -/
def topupGroupRatio (group : String) : ℚ :=
  if st.getTopupGroupRatio group = 0 then 1 else st.getTopupGroupRatio group

/-- The discount for an amount. -/
def discount (amount : ℤ) : ℚ :=
  match st.amountDiscount amount with
  | some ds => if 0 < ds then ds else 1
  | none => 1

/-- The dollars that an amount of the request stands for. -/
def dollars (amount : ℤ) : ℚ :=
  if st.displayTokens then amount / st.quotaPerUnit else amount

def getPayMoney (amount : ℤ) (group : String) : ℚ :=
  dollars st amount * st.price * topupGroupRatio st group * discount st amount

def getMinTopup : ℤ :=
  if st.displayTokens then intPart (st.minTopUp * st.quotaPerUnit) else st.minTopUp

/-- `RequestEpay`: the order that is inserted. -/
def requestEpay (env : EpayEnv) (id : ℤ) (req : EpayRequest) : Except String (TopUp ℚ) :=
  if req.amount < getMinTopup st then .error ("充值数量不能小于 " ++ toString (getMinTopup st))
  else
    match env.getUserGroup with
    | none => .error "获取用户分组失败"
    | some group =>
      if getPayMoney st req.amount group < 1 / 100 then .error "充值金额过低"
      else if req.paymentMethod ∉ st.payMethods then .error "支付方式不存在"
      else if !env.client then .error "当前管理员未配置支付信息"
      else if !env.purchase then .error "拉起支付失败"
      else if !env.insert then .error "创建订单失败"
      else .ok
        { userId := id
          amount := if st.displayTokens then intPart (req.amount / st.quotaPerUnit) else req.amount
          money := getPayMoney st req.amount group
          paymentProvider := .epay
          completeTime := 0
          status := .pending }

/-- The quota that the price is for. -/
def pricedQuota (amount : ℤ) : ℚ :=
  if st.displayTokens then amount else amount * st.quotaPerUnit

end Request

/-! ### The callback -/

/-- `VerifyInfo` of the client. -/
structure VerifyInfo where
  verifyStatus : Bool
  tradeStatus : String
  serviceTradeNo : String

def statusTradeSuccess : String := "TRADE_SUCCESS"

/-- Which statements of the callback fail, without an effect. -/
structure EpayFaults where
  read : Bool := false
  save : Bool := false
  increase : Bool := false

/-- `IncreaseUserQuota`, without the batch. -/
def increaseUserQuota (fails : Bool) (db : Db ℚ) (id : ℤ) (quota : ℤ) : Option String × Db ℚ :=
  if quota < 0 then (some "quota 不能为负数！", db)
  else if fails then (some "database", db)
  else (none, db.updateUser id fun u => { u with quota := u.quota + quota })

/-- What `EpayNotify` does for a trade that succeeded. -/
def completeEpay (rates : Rates ℚ) (faults : EpayFaults) (db : Db ℚ) (tradeNo : String) : Db ℚ :=
  match if faults.read then none else db.topUp tradeNo with
  | none => db
  | some topUp =>
    if topUp.paymentProvider ≠ .epay then db
    else if topUp.status = .pending then
      if faults.save then db
      else
        (increaseUserQuota faults.increase (db.setTopUp tradeNo { topUp with status := .success })
          topUp.userId (rates.amountQuota topUp)).2
    else db

/-- What comes with a notification: the parameters, if they can be parsed, and the client that
verifies them, if there is one. -/
structure Notification where
  webhookEnabled : Bool
  params : Option (List (String × String))
  client : Option (List (String × String) → Option VerifyInfo)

/-- The trade that a notification is about, if it is verified. -/
def Notification.verified (n : Notification) : Option VerifyInfo := do
  guard n.webhookEnabled
  let params ← n.params
  guard (params ≠ [])
  let verify ← n.client
  (verify params).filter VerifyInfo.verifyStatus

/-- `EpayNotify`: the answer, and the database. -/
def epayNotify (rates : Rates ℚ) (faults : EpayFaults) (db : Db ℚ) (n : Notification) :
    String × Db ℚ :=
  match n.verified with
  | none => ("fail", db)
  | some info =>
    ("success",
      if info.tradeStatus = statusTradeSuccess then completeEpay rates faults db info.serviceTradeNo
      else db)

/-! ### What the price was for -/

/-- The rates: `newFromFloat` is `decimal.NewFromFloat`, and `column` is how much a `float64` that
is added to the integer column raises it. -/
def TopUpSetting.rates (st : TopUpSetting) (newFromFloat : ℚ → ℚ) (column : ℚ → ℤ) : Rates ℚ where
  quotaPerUnit := st.quotaPerUnit
  decimal := newFromFloat
  floatQuota money := column (Binary64.round (money * Binary64.round st.quotaPerUnit))

/-- **The quota that was paid for is credited**, by a callback whose statements do not fail. -/
def CreditsPaid (st : TopUpSetting) (req : EpayRequest) (topUp : TopUp ℚ) : Prop :=
  ∀ (newFromFloat : ℚ → ℚ) (column : ℚ → ℤ) (db : Db ℚ) (tradeNo : String),
    db.topUp tradeNo = some topUp → db.user topUp.userId ≠ none →
    ((completeEpay (st.rates newFromFloat column) {} db tradeNo).quota topUp.userId : ℚ) =
      db.quota topUp.userId + pricedQuota st req.amount

variable {st : TopUpSetting} {rates : Rates ℚ} {db : Db ℚ} {topUp : TopUp ℚ} {no : String}

theorem requestEpay_ok {env : EpayEnv} {id : ℤ} {req : EpayRequest}
    (h : requestEpay st env id req = .ok topUp) :
    topUp.paymentProvider = .epay ∧ topUp.status = .pending ∧ topUp.amount =
      if st.displayTokens then intPart (req.amount / st.quotaPerUnit) else req.amount := by
  rw [requestEpay] at h
  split at h
  · cases h
  · cases hgroup : env.getUserGroup with
    | none =>
      rw [hgroup] at h
      cases h
    | some group =>
      rw [hgroup] at h
      dsimp only at h
      -- one refusal after the other
      iterate 5
        split at h
        · cases h
      cases h
      exact ⟨rfl, rfl, rfl⟩

/-! ### Whole numbers in 64 bits -/

theorem intPart_range (d : ℚ) : -2 ^ 63 ≤ intPart d ∧ intPart d < 2 ^ 63 := by
  have hle := Int.le_bmod (x := d.num.tdiv d.den) (m := 2 ^ 64) (by norm_num)
  have hlt := Int.bmod_lt (x := d.num.tdiv d.den) (m := 2 ^ 64) (by norm_num)
  rw [intPart]
  norm_num at hle hlt ⊢
  exact ⟨hle, hlt⟩

theorem intPart_intCast {z : ℤ} (hle : -2 ^ 63 ≤ z) (hlt : z < 2 ^ 63) : intPart (z : ℚ) = z := by
  rw [intPart, Rat.num_intCast, Rat.den_intCast, Nat.cast_one, Int.tdiv_one]
  exact Int.bmod_eq_of_le (by norm_num; omega) (by norm_num; omega)

theorem intPart_of_nonneg {d : ℚ} (hd : 0 ≤ d) : intPart d = Int.bmod ⌊d⌋ (2 ^ 64) := by
  rw [intPart, Int.tdiv_eq_ediv_of_nonneg (Rat.num_nonneg.mpr hd), Rat.floor_def']

/-- What is dropped is missing, also if it is a multiple of `2 ^ 64`. -/
theorem intPart_le {d : ℚ} (hd : 0 ≤ d) : (intPart d : ℚ) ≤ d := by
  have hfloor : 0 ≤ ⌊d⌋ := Int.floor_nonneg.mpr hd
  have hle : Int.bmod ⌊d⌋ (2 ^ 64) ≤ ⌊d⌋ := by
    rw [Int.bmod_def]
    split_ifs <;> omega
  rw [intPart_of_nonneg hd]
  exact le_trans (by exact_mod_cast hle) (Int.floor_le d)

theorem intPart_nonneg {d : ℚ} (hd : 0 ≤ d) (hlt : d < 2 ^ 63) : 0 ≤ intPart d := by
  have hfloor : 0 ≤ ⌊d⌋ := Int.floor_nonneg.mpr hd
  have hfloor' : ⌊d⌋ < 2 ^ 63 := Int.floor_lt.mpr (by exact_mod_cast hlt)
  rw [intPart_of_nonneg hd, Int.bmod_def]
  split_ifs <;> omega

theorem intPart_nonpos {d : ℚ} (hd : d ≤ 0) (hlt : -2 ^ 63 < d) : intPart d ≤ 0 := by
  have hneg : intPart d = Int.bmod (-⌊-d⌋) (2 ^ 64) := by
    rw [intPart, Rat.floor_def', Rat.num_neg_eq_neg_num, Rat.den_neg_eq_den,
      ← Int.tdiv_eq_ediv_of_nonneg (neg_nonneg.mpr (Rat.num_nonpos.mpr hd)), Int.neg_tdiv, neg_neg]
  have hfloor : 0 ≤ ⌊-d⌋ := Int.floor_nonneg.mpr (by linarith)
  have hfloor' : ⌊-d⌋ < 2 ^ 63 := Int.floor_lt.mpr (by push_cast; linarith)
  rw [hneg, Int.bmod_def]
  split_ifs <;> omega

/-- What a number of dollars is worth is a whole number of 64 bits or more than is credited. -/
theorem max_intPart_eq_iff {d : ℚ} :
    ((max (intPart d) 0 : ℤ) : ℚ) = d ↔ ∃ z : ℤ, d = z ∧ 0 ≤ z ∧ z < 2 ^ 63 := by
  constructor
  · intro h
    exact ⟨max (intPart d) 0, h.symm, le_max_right _ _, max_lt (intPart_range d).2 (by norm_num)⟩
  · rintro ⟨z, rfl, hle, hlt⟩
    rw [intPart_intCast (by omega) hlt, max_eq_left hle]

/-- An amount of tokens that is turned into dollars and back. -/
theorem max_intPart_mul_eq_iff {q : ℚ} (hq : 0 < q) {a : ℤ} (ha : a < 2 ^ 63) :
    ((max (intPart (intPart (a / q) * q)) 0 : ℤ) : ℚ) = a ↔
      ∃ k : ℤ, (a : ℚ) = k * q ∧ 0 ≤ k ∧ k < 2 ^ 63 := by
  constructor
  · intro h
    have ha0 : 0 ≤ a := by
      have hmax : (0 : ℚ) ≤ (max (intPart (intPart (a / q) * q)) 0 : ℤ) := by
        exact_mod_cast le_max_right _ _
      rw [h] at hmax
      exact_mod_cast hmax
    have hdiv : (0 : ℚ) ≤ a / q := div_nonneg (by exact_mod_cast ha0) hq.le
    have hle := intPart_le hdiv
    have hnonneg := intPart_nonneg hdiv
    have hrange := intPart_range (a / q)
    generalize intPart (a / q) = t at h hle hnonneg hrange
    -- `t` dollars are left of the amount in 64 bits
    rcases le_or_gt 0 t with ht | ht
    · have htq : (0 : ℚ) ≤ t * q := mul_nonneg (by exact_mod_cast ht) hq.le
      have hback := intPart_le htq
      have htq' : (t : ℚ) * q ≤ a := (le_div_iff₀ hq).mp hle
      have ha' : (0 : ℚ) ≤ a := by exact_mod_cast ha0
      refine ⟨t, le_antisymm ?_ htq', ht, hrange.2⟩
      rw [← h, Int.cast_max, Int.cast_zero]
      exact max_le hback htq
    · -- more dollars than there are numbers of 64 bits
      exfalso
      have hlarge : (2 : ℚ) ^ 63 ≤ a / q := by
        by_contra hlt
        exact absurd (hnonneg (not_le.mp hlt)) (not_le.mpr ht)
      rw [le_div_iff₀ hq] at hlarge
      have ha' : (a : ℚ) < 2 ^ 63 := by exact_mod_cast ha
      have ht' : (-2 ^ 63 : ℚ) ≤ t := by exact_mod_cast hrange.1
      have htq : (t : ℚ) * q ≤ 0 :=
        mul_nonpos_of_nonpos_of_nonneg (by exact_mod_cast ht.le) hq.le
      have hnonpos := intPart_nonpos htq (by nlinarith)
      rw [max_eq_right hnonpos, Int.cast_zero] at h
      nlinarith
  · rintro ⟨k, hk, hk0, hk'⟩
    have hdiv : (a : ℚ) / q = k := by rw [hk, mul_div_cancel_right₀ _ hq.ne']
    have ha0 : (0 : ℚ) ≤ a := by
      rw [hk]
      exact mul_nonneg (by exact_mod_cast hk0) hq.le
    have ha0' : 0 ≤ a := by exact_mod_cast ha0
    rw [hdiv, intPart_intCast (by omega) hk', ← hk, intPart_intCast (by omega) ha,
      max_eq_left ha0']

/-! ### The credit -/

theorem quota_increaseUserQuota {id : ℤ} {quota : ℤ} (huser : db.user id ≠ none) :
    (increaseUserQuota false db id quota).2.quota id = db.quota id + max quota 0 := by
  obtain ⟨u, hu⟩ := Option.ne_none_iff_exists'.mp huser
  have hquota : db.quota id = u.quota := by rw [Db.quota, hu, Option.map_some, Option.getD_some]
  simp only [increaseUserQuota, Bool.false_eq_true, if_false]
  split_ifs with hneg
  · rw [max_eq_right hneg.le, add_zero]
  · rw [Db.updateUser_quota _ hu, hquota, max_eq_left (not_lt.mp hneg)]

theorem quota_increaseUserQuota_iff (db : Db ℚ) (fails : Bool) (id quota : ℤ) :
    (increaseUserQuota fails db id quota).2.quota id = db.quota id + quota ↔
      quota = 0 ∨ 0 < quota ∧ fails = false ∧ db.user id ≠ none := by
  have hsame : db.quota id = db.quota id + quota ↔ quota = 0 := by omega
  rw [increaseUserQuota]
  split_ifs with hneg hfails
  · rw [hsame]
    omega
  · rw [hsame]
    simp [hfails]
  · cases hu : db.user id with
    | none =>
      have hzero : (db.updateUser id fun u => { u with quota := u.quota + quota }).quota id =
          db.quota id := by
        simp [Db.updateUser, Db.quota, hu]
      rw [hzero, hsame]
      simp
    | some u =>
      have hquota : db.quota id = u.quota := by
        rw [Db.quota, hu, Option.map_some, Option.getD_some]
      rw [Db.updateUser_quota _ hu, hquota]
      simp only [Bool.not_eq_true] at hfails
      simp only [hfails, ne_eq, reduceCtorEq, not_false_eq_true, and_true, true_iff]
      omega

theorem quota_completeEpay (hno : db.topUp no = some topUp)
    (hprovider : topUp.paymentProvider = .epay) (hpending : topUp.status = .pending)
    (huser : db.user topUp.userId ≠ none) :
    (completeEpay rates {} db no).quota topUp.userId =
      db.quota topUp.userId + max (rates.amountQuota topUp) 0 := by
  rw [completeEpay]
  simp only [Bool.false_eq_true, if_false, hno, hprovider, not_true, hpending, if_true, Ne]
  exact quota_increaseUserQuota huser

/-- **What was paid for is credited**: of an amount of tokens, if it is a whole number of dollars;
of an amount of dollars, if it is a whole quota. -/
theorem creditsPaid_iff (hunit : 0 < st.quotaPerUnit) {env : EpayEnv} {id : ℤ} {req : EpayRequest}
    (h : requestEpay st env id req = .ok topUp) :
    CreditsPaid st req topUp ↔ ∃ z : ℤ, 0 ≤ z ∧ z < 2 ^ 63 ∧
      if st.displayTokens then (req.amount : ℚ) = z * st.quotaPerUnit
      else (req.amount : ℚ) * st.quotaPerUnit = z := by
  obtain ⟨hprovider, hpending, hamount⟩ := requestEpay_ok h
  have hcredit : CreditsPaid st req topUp ↔
      ((max (intPart (topUp.amount * st.quotaPerUnit)) 0 : ℤ) : ℚ) = pricedQuota st req.amount := by
    constructor
    · intro hpaid
      have hone := hpaid id 0 ⟨fun _ => some topUp, fun _ => some ⟨0, "", ""⟩⟩ "" rfl
        (Option.some_ne_none _)
      rw [quota_completeEpay rfl hprovider hpending (Option.some_ne_none _), Int.cast_add] at hone
      exact add_left_cancel hone
    · intro hvalue newFromFloat column db tradeNo hno huser
      rw [quota_completeEpay hno hprovider hpending huser, Int.cast_add, ← hvalue]
      rfl
  rw [hcredit, hamount, pricedQuota]
  -- the amount is given in tokens, or in dollars
  by_cases htokens : st.displayTokens = true
  · simp only [htokens, if_true]
    rw [max_intPart_mul_eq_iff hunit req.amount_range.2]
    exact exists_congr fun k => by tauto
  · simp only [htokens, Bool.false_eq_true, if_false]
    rw [max_intPart_eq_iff]
    exact exists_congr fun k => by tauto

/-- Tokens at half a million to the dollar. -/
def tokenSetting : TopUpSetting where
  quotaPerUnit := 500000
  displayTokens := true
  minTopUp := 1
  price := 1
  getTopupGroupRatio _ := 1
  amountDiscount _ := none
  payMethods := ["alipay"]

def tokenRequest (amount : ℤ) (h : -2 ^ 63 ≤ amount ∧ amount < 2 ^ 63) : EpayRequest :=
  ⟨amount, "alipay", h⟩

/-- The order for an amount of tokens. -/
def tokenOrder (dollars : ℤ) (money : ℚ) : TopUp ℚ := ⟨1, dollars, money, .epay, 0, .pending⟩

theorem creditsPaid_twoDollars :
    CreditsPaid tokenSetting (tokenRequest 1000000 (by decide)) (tokenOrder 2 2) := by
  have hcreated : requestEpay tokenSetting ⟨some "default", true, true, true⟩ 1
      (tokenRequest 1000000 (by decide)) = .ok (tokenOrder 2 2) := by
    decide +kernel
  exact (creditsPaid_iff (by decide +kernel) hcreated).mpr
    ⟨2, by decide, by decide, by decide +kernel⟩

/-- **A dollar and a half**: the tokens of one dollar are credited. -/
theorem not_creditsPaid_halfDollar :
    requestEpay tokenSetting ⟨some "default", true, true, true⟩ 1
        (tokenRequest 750000 (by decide)) = .ok (tokenOrder 1 (3 / 2)) ∧
      ¬CreditsPaid tokenSetting (tokenRequest 750000 (by decide)) (tokenOrder 1 (3 / 2)) :=
  ⟨by decide +kernel, fun h => absurd
    (h id 0 ⟨fun _ => some (tokenOrder 1 (3 / 2)), fun _ => some ⟨0, "", ""⟩⟩ "no" rfl
      (Option.some_ne_none _)) (by decide +kernel)⟩

/-! ### Deliveries of the callback -/

/-- A delivery of the callback for an order. The provider may not see the answer. -/
structure Delivery (no : String) where
  notification : Notification
  faults : EpayFaults
  answerLost : Bool
  isFor : ∀ info, notification.verified = some info → info.serviceTradeNo = no

/-- The database, and whether the provider has seen a success. -/
structure EpayState where
  db : Db ℚ
  acknowledged : Bool

/-- The provider delivers until it sees a success. -/
def EpayState.step (rates : Rates ℚ) {no : String} (x : EpayState) (d : Delivery no) : EpayState :=
  if x.acknowledged then x
  else
    let (answer, db) := epayNotify rates d.faults x.db d.notification
    { db, acknowledged := answer = "success" && !d.answerLost }

/-- **The order and the quota agree**: compared with the database before, the user has the quota of
the order if this is a success, and no more or less otherwise. -/
def Settled (rates : Rates ℚ) (before : Db ℚ) (no : String) (x : EpayState) : Prop :=
  ∀ topUp, x.db.topUp no = some topUp →
    x.db.quota topUp.userId = before.quota topUp.userId +
      if topUp.status = .success then rates.amountQuota topUp else 0

/-- The statements find the order pending, and save it. -/
def EpayFaults.Save (faults : EpayFaults) (topUp : TopUp ℚ) : Prop :=
  faults.read = false ∧ topUp.paymentProvider = .epay ∧ topUp.status = .pending ∧
    faults.save = false

/-- The delivery saves the order as a success. -/
def Delivery.Saves {no : String} (d : Delivery no) (topUp : TopUp ℚ) : Prop :=
  (∃ info, d.notification.verified = some info ∧ info.tradeStatus = statusTradeSuccess) ∧
    d.faults.Save topUp

/-- **A delivery that saves the order also raises the quota**: its last statement does not fail,
there is a user, and the quota is not negative; or there is nothing to raise. -/
def Raises (rates : Rates ℚ) {no : String} (x : EpayState) (d : Delivery no) : Prop :=
  x.acknowledged = false → ∀ topUp ∈ x.db.topUp no, d.Saves topUp →
    rates.amountQuota topUp = 0 ∨
      0 < rates.amountQuota topUp ∧ d.faults.increase = false ∧ x.db.user topUp.userId ≠ none

section Deliveries

variable {before : Db ℚ} {x : EpayState} {d : Delivery no}

/-- The database is left alone, or the order is saved and then the quota is raised or not. -/
theorem completeEpay_cases (rates : Rates ℚ) (faults : EpayFaults) (db : Db ℚ) (no : String) :
    (completeEpay rates faults db no = db ∧ ∀ topUp ∈ db.topUp no, ¬faults.Save topUp) ∨
      ∃ topUp, db.topUp no = some topUp ∧ faults.Save topUp ∧
        completeEpay rates faults db no = (increaseUserQuota faults.increase
          (db.setTopUp no { topUp with status := .success }) topUp.userId
            (rates.amountQuota topUp)).2 := by
  rw [completeEpay]
  by_cases hread : faults.read = true
  · rw [if_pos hread]
    exact .inl ⟨rfl, fun _ _ h => absurd (hread.symm.trans h.1) (by decide)⟩
  rw [if_neg hread]
  cases hno : db.topUp no with
  | none => exact .inl ⟨rfl, fun _ h => by cases h⟩
  | some topUp =>
    simp only [Option.mem_def, Option.some.injEq, forall_eq', exists_eq_left']
    by_cases hprovider : topUp.paymentProvider ≠ .epay
    · exact .inl ⟨if_pos hprovider, fun h => hprovider h.2.1⟩
    rw [if_neg hprovider]
    by_cases hpending : topUp.status = .pending
    · rw [if_pos hpending]
      by_cases hsave : faults.save = true
      · exact .inl ⟨if_pos hsave, fun h => absurd (hsave.symm.trans h.2.2.2) (by decide)⟩
      · exact .inr ⟨⟨Bool.eq_false_iff.mpr hread, not_not.mp hprovider, hpending,
          Bool.eq_false_iff.mpr hsave⟩, if_neg hsave⟩
    · exact .inl ⟨if_neg hpending, fun h => hpending h.2.2.1⟩

/-- **What a delivery does**: nothing to the database, or it saves the order and then raises the
quota or not. -/
theorem step_cases (rates : Rates ℚ) (x : EpayState) (d : Delivery no) :
    (x.step rates d).db = x.db ∧
        (x.acknowledged = true ∨ ∀ topUp ∈ x.db.topUp no, ¬d.Saves topUp) ∨
      x.acknowledged = false ∧ ∃ topUp, x.db.topUp no = some topUp ∧ d.Saves topUp ∧
        (x.step rates d).db = (increaseUserQuota d.faults.increase
          (x.db.setTopUp no { topUp with status := .success }) topUp.userId
            (rates.amountQuota topUp)).2 := by
  rw [EpayState.step]
  cases hack : x.acknowledged with
  | true => exact .inl ⟨rfl, .inl rfl⟩
  | false =>
    simp only [Bool.false_eq_true, if_false, epayNotify]
    -- nothing is done unless the notification is verified and tells of a success
    cases hinfo : d.notification.verified with
    | none =>
      refine .inl ⟨rfl, .inr ?_⟩
      rintro topUp - ⟨⟨info, hsome, -⟩, -⟩
      rw [hinfo] at hsome
      cases hsome
    | some info =>
      by_cases htrade : info.tradeStatus = statusTradeSuccess
      · have hsuccess : ∃ info, d.notification.verified = some info ∧
            info.tradeStatus = statusTradeSuccess := ⟨info, hinfo, htrade⟩
        simp only [htrade, if_true, d.isFor info hinfo]
        rcases completeEpay_cases rates d.faults x.db no with
          ⟨hdb, hsaves⟩ | ⟨topUp, hno, hsave, hdb⟩
        · exact .inl ⟨hdb, .inr fun topUp hno h => hsaves topUp hno h.2⟩
        · exact .inr ⟨trivial, topUp, hno, ⟨hsuccess, hsave⟩, hdb⟩
      · refine .inl ⟨if_neg htrade, .inr ?_⟩
        rintro topUp - ⟨⟨info', hsome, htrade'⟩, -⟩
        rw [hinfo] at hsome
        cases hsome
        exact htrade htrade'

theorem topUp_increaseUserQuota (fails : Bool) (db : Db ℚ) (id quota : ℤ) :
    (increaseUserQuota fails db id quota).2.topUp = db.topUp := by
  rw [increaseUserQuota]
  split_ifs <;> rfl

/-- After a delivery that saves the order, it agrees with the quota if this is raised. -/
theorem settled_step_iff {topUp : TopUp ℚ} (hsettled : Settled rates before no x)
    (hno : x.db.topUp no = some topUp) (hpending : topUp.status = .pending)
    (hdb : (x.step rates d).db = (increaseUserQuota d.faults.increase
      (x.db.setTopUp no { topUp with status := .success }) topUp.userId
        (rates.amountQuota topUp)).2) :
    Settled rates before no (x.step rates d) ↔ rates.amountQuota topUp = 0 ∨
      0 < rates.amountQuota topUp ∧ d.faults.increase = false ∧
        x.db.user topUp.userId ≠ none := by
  have hquota := hsettled topUp hno
  rw [if_neg (by rw [hpending]; decide), add_zero] at hquota
  have hraised := quota_increaseUserQuota_iff (x.db.setTopUp no { topUp with status := .success })
    d.faults.increase topUp.userId (rates.amountQuota topUp)
  refine Iff.trans ?_ hraised
  rw [Settled, hdb, topUp_increaseUserQuota, Db.setTopUp_self]
  simp only [Option.some.injEq, forall_eq', if_true, ← hquota]
  rfl

theorem settled_step (hsettled : Settled rates before no x) (hraises : Raises rates x d) :
    Settled rates before no (x.step rates d) := by
  rcases step_cases rates x d with ⟨hdb, -⟩ | ⟨hack, topUp, hno, hsaves, hdb⟩
  · rw [Settled, hdb]
    exact hsettled
  · exact (settled_step_iff hsettled hno hsaves.2.2.2.1 hdb).mpr (hraises hack topUp hno hsaves)

theorem raises_of_settled (hsettled : Settled rates before no x)
    (hstep : Settled rates before no (x.step rates d)) : Raises rates x d := by
  intro hack topUp hno hsaves
  rcases step_cases rates x d with ⟨-, hack' | hnot⟩ | ⟨-, topUp', hno', -, hdb⟩
  · rw [hack] at hack'
    cases hack'
  · exact absurd hsaves (hnot topUp hno)
  · obtain rfl : topUp' = topUp := Option.some.inj (hno'.symm.trans hno)
    exact (settled_step_iff hsettled hno hsaves.2.2.2.1 hdb).mp hstep

/-- **The order and the quota agree in every state of a run of deliveries**, exactly if every
delivery that saves the order raises the quota. -/
theorem settled_iff (rates : Rates ℚ) (db : Db ℚ) {no : String}
    (hnew : ∀ topUp ∈ db.topUp no, topUp.status ≠ .success) (ds : List (Delivery no)) :
    (∀ n, Settled rates db no (run (EpayState.step rates) ⟨db, false⟩ (ds.take n))) ↔
      Along (EpayState.step rates) (Raises rates) ⟨db, false⟩ ds := by
  refine forall_take_iff (I := Settled rates db no) (fun _ h => h) (fun _ _ => settled_step)
    (fun _ _ => raises_of_settled) ?_ ds
  intro topUp hno
  rw [if_neg (hnew topUp hno), add_zero]

end Deliveries

/-! ### Two runs -/

/-- A notification of a trade that succeeded. -/
def tradeSucceeded : Notification where
  webhookEnabled := true
  params := some [("trade_status", "TRADE_SUCCESS")]
  client := some fun _ => some ⟨true, "TRADE_SUCCESS", "USR1NO1"⟩

def deliveryWith (faults : EpayFaults) (answerLost : Bool) : Delivery "USR1NO1" where
  notification := tradeSucceeded
  faults
  answerLost
  isFor := by
    rintro info h
    cases h
    rfl

def twoDollars : Db ℚ where
  topUp := Function.update (fun _ => none) "USR1NO1" (some (tokenOrder 2 2))
  user _ := some ⟨0, "", ""⟩

/-- The order cannot be saved at first, and the answer is lost. -/
theorem settled_redelivered :
    Settled (tokenSetting.rates id 0) twoDollars "USR1NO1"
      (run (EpayState.step (tokenSetting.rates id 0)) ⟨twoDollars, false⟩
        [deliveryWith ⟨false, true, false⟩ true, deliveryWith {} false]) := by
  have hraises : Along (EpayState.step (tokenSetting.rates id 0)) (Raises (tokenSetting.rates id 0))
      ⟨twoDollars, false⟩ [deliveryWith ⟨false, true, false⟩ true, deliveryWith {} false] := by
    refine ⟨?_, ?_, trivial⟩
    · rintro - topUp h hsaves
      exact absurd hsaves.2.2.2.2 (by decide)
    · rintro - topUp h -
      cases h
      exact .inr (by decide +kernel)
  refine (settled_iff _ _ ?_ _).mpr hraises 2
  rintro topUp h
  cases h
  decide

/-- **The quota cannot be raised**: the order is a success, the provider has seen one, and nothing
was credited. -/
theorem not_settled_increaseFails :
    ∃ ds : List (Delivery "USR1NO1"),
      (run (EpayState.step (tokenSetting.rates id 0)) ⟨twoDollars, false⟩ ds).acknowledged = true ∧
        ¬Settled (tokenSetting.rates id 0) twoDollars "USR1NO1"
          (run (EpayState.step (tokenSetting.rates id 0)) ⟨twoDollars, false⟩ ds) :=
  ⟨[deliveryWith ⟨false, false, true⟩ false], by decide +kernel, fun h =>
    absurd (h ⟨1, 2, 2, .epay, 0, .success⟩ (by decide +kernel)) (by decide +kernel)⟩

end NewApiPool.Payment
