import Mathlib.Algebra.Group.Nat.Defs
import Mathlib.Data.Rat.Defs
import Mathlib.Logic.Function.Basic
import NewApiPool.Lib.Runs

/-!
# Top-up orders

An order is made when a user starts a payment, and one of six functions ends it: four
that a payment provider's callback leads to, the completion by an administrator, and the
change of a pending order to another status. All six are transactions that read the
order by its number, check it, and write the order and the user.

Over every sequence of these calls an order leaves the pending status once and for all,
and its user is credited in the step that makes it a success, provided that there is
something to credit: `Recharge` and `RechargeCreem` lack the check of the amount that the
other completions make, and no completion looks at whether the user was found
(`NewApiPool.Payment.paidOnce_of_creditable`).

Amounts of money are floating-point numbers in the source. What is done with them is a
parameter (`NewApiPool.Payment.Rates`).
-/

namespace NewApiPool.Payment

open EventSystem

variable {M : Type}

/-! ### The data -/

inductive PaymentProvider where
  | unset
  | epay
  | stripe
  | creem
  | waffo
  | waffoPancake
deriving DecidableEq, Repr

/-- `TopUp.Status`. -/
inductive TopUpStatus where
  | pending
  | success
  | failed
  | expired
deriving DecidableEq, Repr

/-- The fields of a row of `top_ups` that are read here. -/
structure TopUp (M : Type) where
  userId : Int
  amount : Int
  money : M
  paymentProvider : PaymentProvider
  completeTime : Int
  status : TopUpStatus
deriving DecidableEq, Repr

/-- The fields of a row of `users` that a completion writes. -/
structure User where
  quota : Int
  stripeCustomer : String
  email : String
deriving DecidableEq, Repr

/-- The orders by their number, and the users. -/
structure Db (M : Type) where
  topUp : String → Option (TopUp M)
  user : Int → Option User

/-- The arithmetic on money: `QuotaPerUnit` and an amount of money as decimals, and what
`quota + Money * QuotaPerUnit`, a floating-point number, adds to the integer column. -/
structure Rates (M : Type) where
  quotaPerUnit : ℚ
  decimal : M → ℚ
  floatQuota : M → Int

/-- `int(d.IntPart())`: the digits before the point, in 64 bits. -/
def intPart (d : ℚ) : Int := Int.bmod (d.num.tdiv d.den) (2 ^ 64)

/-- The quota of an order whose `Amount` is in dollars. -/
def Rates.amountQuota (rates : Rates M) (topUp : TopUp M) : Int :=
  intPart (topUp.amount * rates.quotaPerUnit)

/-- The quota that an administrator's completion adds. -/
def Rates.manualQuota (rates : Rates M) (topUp : TopUp M) : Int :=
  if topUp.paymentProvider = .stripe then
    intPart (rates.decimal topUp.money * rates.quotaPerUnit)
  else rates.amountQuota topUp

namespace Db

variable (db : Db M)

/-- The database with an order saved. -/
def setTopUp (tradeNo : String) (topUp : TopUp M) : Db M :=
  { db with topUp := Function.update db.topUp tradeNo (some topUp) }

/-- The database after an `UPDATE` of the user, which does nothing if there is none. -/
def updateUser (id : Int) (f : User → User) : Db M :=
  { db with user := fun v => if v = id then (db.user v).map f else db.user v }

/-- The order is marked as completed. -/
def complete (tradeNo : String) (topUp : TopUp M) (now : Int) : Db M :=
  db.setTopUp tradeNo { topUp with completeTime := now, status := .success }

/-- The quota of a user, 0 if there is none of that id. -/
def quota (id : Int) : Int := ((db.user id).map User.quota).getD 0

@[simp] theorem setTopUp_self (tradeNo : String) (topUp : TopUp M) :
    (db.setTopUp tradeNo topUp).topUp tradeNo = some topUp := by
  simp [setTopUp]

theorem setTopUp_ne {tradeNo no : String} (topUp : TopUp M) (h : no ≠ tradeNo) :
    (db.setTopUp tradeNo topUp).topUp no = db.topUp no := by
  simp [setTopUp, h]

@[simp] theorem setTopUp_quota (tradeNo : String) (topUp : TopUp M) (id : Int) :
    (db.setTopUp tradeNo topUp).quota id = db.quota id := rfl

@[simp] theorem updateUser_topUp (id : Int) (f : User → User) :
    (db.updateUser id f).topUp = db.topUp := rfl

theorem updateUser_quota {id : Int} {f : User → User} {u : User} (h : db.user id = some u) :
    (db.updateUser id f).quota id = (f u).quota := by
  simp [updateUser, quota, h]

end Db

/-! ### The functions -/

/-- The end of a transaction, with what the caller makes of its error. -/
def transaction (onError : String → String) (db : Db M) :
    Except String (Db M) → Option String × Db M
  | .error e => (some (onError e), db)
  | .ok db' => (none, db')

/-- The answer of the callbacks to any error. -/
def rechargeFailed (_ : String) : String := "充值失败，请稍后重试"

def updatePendingTopUpStatus (db : Db M) (tradeNo : String)
    (expectedPaymentProvider : PaymentProvider) (targetStatus : TopUpStatus) :
    Option String × Db M :=
  if tradeNo = "" then (some "未提供支付单号", db)
  else transaction id db <|
    match db.topUp tradeNo with
    | none => .error "topup not found"
    | some topUp =>
      if expectedPaymentProvider ≠ .unset ∧ topUp.paymentProvider ≠ expectedPaymentProvider then
        .error "payment method mismatch"
      else if topUp.status ≠ .pending then .error "topup status invalid"
      else .ok (db.setTopUp tradeNo { topUp with status := targetStatus })

/-- `Recharge`, the callback of Stripe. -/
def recharge (rates : Rates M) (db : Db M) (referenceId customerId : String) (now : Int) :
    Option String × Db M :=
  if referenceId = "" then (some "未提供支付单号", db)
  else transaction rechargeFailed db <|
    match db.topUp referenceId with
    | none => .error "充值订单不存在"
    | some topUp =>
      if topUp.paymentProvider ≠ .stripe then .error "payment method mismatch"
      else if topUp.status ≠ .pending then .error "充值订单状态错误"
      else .ok ((db.complete referenceId topUp now).updateUser topUp.userId fun u =>
        { u with stripeCustomer := customerId, quota := u.quota + rates.floatQuota topUp.money })

/-- `RechargeCreem`. An email address is written if the user has none. -/
def rechargeCreem (db : Db M) (referenceId customerEmail : String) (now : Int) :
    Option String × Db M :=
  if referenceId = "" then (some "未提供支付单号", db)
  else transaction rechargeFailed db <|
    match db.topUp referenceId with
    | none => .error "充值订单不存在"
    | some topUp =>
      if topUp.paymentProvider ≠ .creem then .error "payment method mismatch"
      else if topUp.status ≠ .pending then .error "充值订单状态错误"
      else if customerEmail ≠ "" ∧ db.user topUp.userId = none then .error "record not found"
      else .ok ((db.complete referenceId topUp now).updateUser topUp.userId fun u =>
        { u with
          quota := u.quota + topUp.amount
          email := if customerEmail ≠ "" ∧ u.email = "" then customerEmail else u.email })

/-- `RechargeWaffo` and `RechargeWaffoPancake`, which differ in the provider. -/
def rechargeByAmount (provider : PaymentProvider) (rates : Rates M) (db : Db M) (tradeNo : String)
    (now : Int) : Option String × Db M :=
  if tradeNo = "" then (some "未提供支付单号", db)
  else transaction rechargeFailed db <|
    match db.topUp tradeNo with
    | none => .error "充值订单不存在"
    | some topUp =>
      if topUp.paymentProvider ≠ provider then .error "payment method mismatch"
      else if topUp.status = .success then .ok db
      else if topUp.status ≠ .pending then .error "充值订单状态错误"
      else if rates.amountQuota topUp ≤ 0 then .error "无效的充值额度"
      else .ok ((db.complete tradeNo topUp now).updateUser topUp.userId fun u =>
        { u with quota := u.quota + rates.amountQuota topUp })

def rechargeWaffo (rates : Rates M) (db : Db M) (tradeNo : String) (now : Int) :
    Option String × Db M :=
  rechargeByAmount .waffo rates db tradeNo now

def rechargeWaffoPancake (rates : Rates M) (db : Db M) (tradeNo : String) (now : Int) :
    Option String × Db M :=
  rechargeByAmount .waffoPancake rates db tradeNo now

def manualCompleteTopUp (rates : Rates M) (db : Db M) (tradeNo : String) (now : Int) :
    Option String × Db M :=
  if tradeNo = "" then (some "未提供订单号", db)
  else transaction id db <|
    match db.topUp tradeNo with
    | none => .error "充值订单不存在"
    | some topUp =>
      if topUp.status = .success then .ok db
      else if topUp.status ≠ .pending then .error "订单状态不是待支付，无法补单"
      else if rates.manualQuota topUp ≤ 0 then .error "无效的充值额度"
      else .ok ((db.complete tradeNo topUp now).updateUser topUp.userId fun u =>
        { u with quota := u.quota + rates.manualQuota topUp })

/-! ### The calls -/

/-- A call, with the time at which it is made. -/
inductive Call where
  | recharge (tradeNo customerId : String) (now : Int)
  | rechargeCreem (tradeNo customerEmail : String) (now : Int)
  | rechargeWaffo (tradeNo : String) (now : Int)
  | rechargeWaffoPancake (tradeNo : String) (now : Int)
  | manualCompleteTopUp (tradeNo : String) (now : Int)
  | updatePendingTopUpStatus (tradeNo : String) (expected : PaymentProvider) (target : TopUpStatus)
deriving DecidableEq, Repr

namespace Call

/-- The order a call is about. -/
def tradeNo : Call → String
  | .recharge no _ _ => no
  | .rechargeCreem no _ _ => no
  | .rechargeWaffo no _ => no
  | .rechargeWaffoPancake no _ => no
  | .manualCompleteTopUp no _ => no
  | .updatePendingTopUpStatus no _ _ => no

/-- The provider a call is for; an administrator's completion is for any. -/
def provider : Call → PaymentProvider
  | .recharge _ _ _ => .stripe
  | .rechargeCreem _ _ _ => .creem
  | .rechargeWaffo _ _ => .waffo
  | .rechargeWaffoPancake _ _ => .waffoPancake
  | .manualCompleteTopUp _ _ => .unset
  | .updatePendingTopUpStatus _ expected _ => expected

/-- The provider of the call is not that of the order. -/
def Mismatch (c : Call) (topUp : TopUp M) : Prop :=
  c.provider ≠ .unset ∧ topUp.paymentProvider ≠ c.provider

/-- What a completion adds to the user's quota. -/
def credit (rates : Rates M) (topUp : TopUp M) : Call → Int
  | .recharge _ _ _ => rates.floatQuota topUp.money
  | .rechargeCreem _ _ _ => topUp.amount
  | .rechargeWaffo _ _ => rates.amountQuota topUp
  | .rechargeWaffoPancake _ _ => rates.amountQuota topUp
  | .manualCompleteTopUp _ _ => rates.manualQuota topUp
  | .updatePendingTopUpStatus _ _ _ => 0

/-- What a call returns and the database it leaves. -/
def exec (rates : Rates M) (db : Db M) : Call → Option String × Db M
  | .recharge no customerId now => Payment.recharge rates db no customerId now
  | .rechargeCreem no email now => Payment.rechargeCreem db no email now
  | .rechargeWaffo no now => Payment.rechargeWaffo rates db no now
  | .rechargeWaffoPancake no now => Payment.rechargeWaffoPancake rates db no now
  | .manualCompleteTopUp no now => Payment.manualCompleteTopUp rates db no now
  | .updatePendingTopUpStatus no expected target =>
    Payment.updatePendingTopUpStatus db no expected target

/-- **The call has something to credit.** For a pending order: a completion credits a
positive amount to a user who exists, or refuses; and the change of status is not to
success. -/
def Creditable (rates : Rates M) (db : Db M) (topUp : TopUp M) : Call → Prop
  | .recharge _ _ _ => 0 < rates.floatQuota topUp.money ∧ db.user topUp.userId ≠ none
  | .rechargeCreem _ email _ => (0 < topUp.amount ∧ db.user topUp.userId ≠ none) ∨
    (email ≠ "" ∧ db.user topUp.userId = none)
  | .rechargeWaffo _ _ => db.user topUp.userId ≠ none ∨ rates.amountQuota topUp ≤ 0
  | .rechargeWaffoPancake _ _ => db.user topUp.userId ≠ none ∨ rates.amountQuota topUp ≤ 0
  | .manualCompleteTopUp _ _ => db.user topUp.userId ≠ none ∨ rates.manualQuota topUp ≤ 0
  | .updatePendingTopUpStatus _ _ target => target ≠ .success

instance decidableCreditable (rates : Rates M) (db : Db M) (topUp : TopUp M) :
    ∀ c, Decidable (Creditable rates db topUp c)
  | .recharge _ _ _ => inferInstanceAs (Decidable (_ ∧ _))
  | .rechargeCreem _ _ _ => inferInstanceAs (Decidable ((_ ∧ _) ∨ (_ ∧ _)))
  | .rechargeWaffo _ _ => inferInstanceAs (Decidable (_ ∨ _))
  | .rechargeWaffoPancake _ _ => inferInstanceAs (Decidable (_ ∨ _))
  | .manualCompleteTopUp _ _ => inferInstanceAs (Decidable (_ ∨ _))
  | .updatePendingTopUpStatus _ _ _ => inferInstanceAs (Decidable (_ ≠ _))

/-! ### What a call does -/

/-- **The order is changed to another status**, without a credit. -/
def Restatus (db : Db M) (topUp : TopUp M) (c : Call) (out : Option String × Db M) : Prop :=
  ∃ no expected target, c = .updatePendingTopUpStatus no expected target ∧
    out = (none, db.setTopUp no { topUp with status := target })

/-- **The order is completed**: it is a success now, and its user is credited. -/
def Completes (rates : Rates M) (db : Db M) (topUp : TopUp M) (c : Call)
    (out : Option String × Db M) : Prop :=
  ∃ now f, (∀ u, (f u).quota = u.quota + c.credit rates topUp) ∧
    (c.Creditable rates db topUp →
      0 < c.credit rates topUp ∧ db.user topUp.userId ≠ none) ∧
    out = (none, (db.complete c.tradeNo topUp now).updateUser topUp.userId f)

/-- A call leaves the database alone, or it has found the order pending and acts on it. -/
def Acts (rates : Rates M) (db : Db M) (c : Call) (out : Option String × Db M) : Prop :=
  out.2 = db ∨ ∃ topUp, db.topUp c.tradeNo = some topUp ∧ topUp.status = .pending ∧
    ¬ c.Mismatch topUp ∧ (Restatus db topUp c out ∨ Completes rates db topUp c out)

section Spec

variable {rates : Rates M} {db : Db M}

theorem acts_recharge (no customerId : String) (now : Int) :
    Acts rates db (.recharge no customerId now) (Payment.recharge rates db no customerId now) := by
  unfold Payment.recharge
  split
  · exact Or.inl rfl
  rcases ho : db.topUp no with _ | o
  · exact Or.inl rfl
  dsimp only
  split
  · exact Or.inl rfl
  rename_i hprovider
  split
  · exact Or.inl rfl
  rename_i hpending
  refine Or.inr ⟨o, ho, not_not.mp hpending, fun h => hprovider h.2, Or.inr ?_⟩
  exact ⟨now, _, fun _ => rfl, fun h => h, rfl⟩

theorem acts_rechargeCreem (no email : String) (now : Int) :
    Acts rates db (.rechargeCreem no email now) (Payment.rechargeCreem db no email now) := by
  unfold Payment.rechargeCreem
  split
  · exact Or.inl rfl
  rcases ho : db.topUp no with _ | o
  · exact Or.inl rfl
  dsimp only
  split
  · exact Or.inl rfl
  rename_i hprovider
  split
  · exact Or.inl rfl
  rename_i hpending
  split
  · exact Or.inl rfl
  rename_i huser
  refine Or.inr ⟨o, ho, not_not.mp hpending, fun h => hprovider h.2, Or.inr ?_⟩
  exact ⟨now, _, fun _ => rfl, fun h => h.resolve_right huser, rfl⟩

/-- The two completions by the amount are one function. -/
theorem acts_rechargeByAmount {provider : PaymentProvider} {c : Call} (now : Int)
    (hprov : c.provider = provider) (hcredit : ∀ o, c.credit rates o = rates.amountQuota o)
    (hcond : ∀ o, c.Creditable rates db o →
      db.user o.userId ≠ none ∨ rates.amountQuota o ≤ 0) :
    Acts rates db c (rechargeByAmount provider rates db c.tradeNo now) := by
  unfold rechargeByAmount
  split
  · exact Or.inl rfl
  rcases ho : db.topUp c.tradeNo with _ | o
  · exact Or.inl rfl
  dsimp only
  split
  · exact Or.inl rfl
  rename_i hprovider
  split
  · exact Or.inl rfl
  split
  · exact Or.inl rfl
  rename_i hpending
  split
  · exact Or.inl rfl
  rename_i hpos
  refine Or.inr ⟨o, ho, not_not.mp hpending, fun h => hprovider (hprov ▸ h.2), Or.inr ?_⟩
  refine ⟨now, _, fun u => ?_, fun h => ?_, rfl⟩
  · rw [hcredit]
  · rw [hcredit]
    exact ⟨Int.not_le.mp hpos, (hcond o h).resolve_right hpos⟩

theorem acts_manualCompleteTopUp (no : String) (now : Int) :
    Acts rates db (.manualCompleteTopUp no now) (Payment.manualCompleteTopUp rates db no now) := by
  unfold Payment.manualCompleteTopUp
  split
  · exact Or.inl rfl
  rcases ho : db.topUp no with _ | o
  · exact Or.inl rfl
  dsimp only
  split
  · exact Or.inl rfl
  split
  · exact Or.inl rfl
  rename_i hpending
  split
  · exact Or.inl rfl
  rename_i hpos
  refine Or.inr ⟨o, ho, not_not.mp hpending, fun h => h.1 rfl, Or.inr ?_⟩
  exact ⟨now, _, fun _ => rfl, fun h => ⟨Int.not_le.mp hpos, h.resolve_right hpos⟩, rfl⟩

theorem acts_updatePendingTopUpStatus (no : String) (expected : PaymentProvider)
    (target : TopUpStatus) :
    Acts rates db (.updatePendingTopUpStatus no expected target)
      (Payment.updatePendingTopUpStatus db no expected target) := by
  unfold Payment.updatePendingTopUpStatus
  split
  · exact Or.inl rfl
  rcases ho : db.topUp no with _ | o
  · exact Or.inl rfl
  dsimp only
  split
  · exact Or.inl rfl
  rename_i hprovider
  split
  · exact Or.inl rfl
  rename_i hpending
  exact Or.inr ⟨o, ho, not_not.mp hpending, hprovider, Or.inl ⟨no, expected, target, rfl, rfl⟩⟩

/-- **What a call does**: it leaves all rows alone, or settles the order that it names and credits
its user. -/
theorem acts_exec (rates : Rates M) (db : Db M) (c : Call) : Acts rates db c (c.exec rates db) := by
  cases c with
  | recharge no customerId now => exact acts_recharge no customerId now
  | rechargeCreem no email now => exact acts_rechargeCreem no email now
  | rechargeWaffo no now => exact acts_rechargeByAmount now rfl (fun _ => rfl) (fun _ h => h)
  | rechargeWaffoPancake no now =>
    exact acts_rechargeByAmount now rfl (fun _ => rfl) (fun _ h => h)
  | manualCompleteTopUp no now => exact acts_manualCompleteTopUp no now
  | updatePendingTopUpStatus no expected target =>
    exact acts_updatePendingTopUpStatus no expected target

theorem exec_error {c : Call} (h : (c.exec rates db).1 ≠ none) : (c.exec rates db).2 = db := by
  rcases acts_exec rates db c with hdb | ⟨o, -, -, -, ⟨no, p, t, -, hout⟩ | ⟨now, f, -, -, hout⟩⟩
  · exact hdb
  · rw [hout] at h
    exact absurd rfl h
  · rw [hout] at h
    exact absurd rfl h

/-- A call for another provider than the order's changes nothing. -/
theorem exec_mismatch {c : Call} {topUp : TopUp M} (ho : db.topUp c.tradeNo = some topUp)
    (hm : c.Mismatch topUp) : (c.exec rates db).2 = db := by
  rcases acts_exec rates db c with hdb | ⟨o, ho', -, hno, -⟩
  · exact hdb
  · rw [ho] at ho'
    cases ho'
    exact absurd hm hno

/-- A call about an order that is not pending changes nothing. -/
theorem exec_not_pending {c : Call} {topUp : TopUp M} (ho : db.topUp c.tradeNo = some topUp)
    (hs : topUp.status ≠ .pending) : (c.exec rates db).2 = db := by
  rcases acts_exec rates db c with hdb | ⟨o, ho', hpending, -⟩
  · exact hdb
  · rw [ho] at ho'
    cases ho'
    exact absurd hpending hs

theorem exec_other {c : Call} {no : String} (h : no ≠ c.tradeNo) :
    (c.exec rates db).2.topUp no = db.topUp no := by
  rcases acts_exec rates db c with hdb | ⟨o, -, -, -, ⟨no', p, t, rfl, hout⟩ | ⟨now, f, -, -, hout⟩⟩
  · rw [hdb]
  · rw [hout]
    exact Db.setTopUp_ne _ _ h
  · rw [hout]
    exact Db.setTopUp_ne _ _ h

end Spec

end Call

/-! ### Every sequence of calls -/

/-- The database, and for each order how many calls have raised its user's quota. -/
structure Book (M : Type) where
  db : Db M
  credits : String → Nat

namespace Book

/-- A book without entries. -/
def start (db : Db M) : Book M := ⟨db, fun _ => 0⟩

/-- The quota of the order's user is higher in `db'`. -/
def Raised (db db' : Db M) (no : String) : Prop :=
  ∃ topUp ∈ db.topUp no, db.quota topUp.userId < db'.quota topUp.userId

instance decidableRaised (db db' : Db M) (no : String) : Decidable (Raised db db' no) :=
  decidable_of_iff (((db.topUp no).any fun topUp =>
    decide (db.quota topUp.userId < db'.quota topUp.userId)) = true) (by
      rcases h : db.topUp no with _ | topUp
      · simp [Raised, h]
      · simp [Raised, h])

/-- One call on the books: the rows after it, whatever it answers, and what was credited by it. -/
def step (rates : Rates M) (x : Book M) (c : Call) : Book M :=
  { db := (c.exec rates x.db).2
    credits := if Raised x.db (c.exec rates x.db).2 c.tradeNo then
      Function.update x.credits c.tradeNo (x.credits c.tradeNo + 1) else x.credits }

end Book

/-- **An order is paid once.** -/
structure PaidOnce (rates : Rates M) (no : String) (x : Book M) : Prop where
  /-- A status other than pending stays as it is. -/
  final : ∀ topUp, x.db.topUp no = some topUp → topUp.status ≠ .pending → ∀ cs,
    (run (Book.step rates) x cs).db.topUp no = some topUp
  /-- The user was credited once if the order is a success, and never otherwise. -/
  credits : ∀ topUp, x.db.topUp no = some topUp →
    x.credits no = if topUp.status = .success then 1 else 0
  /-- A call for another provider changes nothing. -/
  mismatch : ∀ (c : Call) topUp, c.tradeNo = no → x.db.topUp no = some topUp →
    c.Mismatch topUp → (c.exec rates x.db).2 = x.db
  /-- A call that returns an error changes nothing. -/
  error : ∀ c : Call, (c.exec rates x.db).1 ≠ none → (c.exec rates x.db).2 = x.db

/-- **The calls on the order that find it pending have something to credit.** -/
def Creditable (rates : Rates M) (no : String) (x : Book M) (c : Call) : Prop :=
  c.tradeNo = no → ∀ topUp ∈ x.db.topUp no, topUp.status = .pending → ¬ c.Mismatch topUp →
    c.Creditable rates x.db topUp

instance decidableMismatch (c : Call) (topUp : TopUp M) : Decidable (c.Mismatch topUp) :=
  inferInstanceAs (Decidable (_ ∧ _))

instance decidableCreditableCall (rates : Rates M) (no : String) (x : Book M) (c : Call) :
    Decidable (Creditable rates no x c) :=
  inferInstanceAs (Decidable (_ → ∀ topUp ∈ x.db.topUp no, _ → _ → _))

section Run

variable {rates : Rates M} {no : String} {x : Book M}

/-- An order that is not pending is not changed by any sequence of calls. -/
theorem final_of_not_pending {topUp : TopUp M} (h : x.db.topUp no = some topUp)
    (hs : topUp.status ≠ .pending) (cs : List Call) :
    (run (Book.step rates) x cs).db.topUp no = some topUp := by
  induction cs generalizing x with
  | nil => exact h
  | cons c cs ih =>
    refine ih ?_
    by_cases hno : no = c.tradeNo
    · subst hno
      simp only [Book.step, Call.exec_not_pending h hs, h]
    · simp only [Book.step, Call.exec_other hno, h]

/-- The credits of an order agree with its status. -/
def Agrees (no : String) (x : Book M) : Prop :=
  ∀ topUp, x.db.topUp no = some topUp →
    x.credits no = if topUp.status = .success then 1 else 0

theorem Agrees.other {c : Call} (h : Agrees no x) (hno : no ≠ c.tradeNo) :
    Agrees no (x.step rates c) := by
  intro topUp ho
  have hcredits : (x.step rates c).credits no = x.credits no := by
    simp only [Book.step]
    split
    · exact Function.update_of_ne hno _ _
    · rfl
  rw [hcredits]
  refine h topUp ?_
  rwa [Book.step, Call.exec_other hno] at ho

theorem Agrees.same {c : Call} (h : Agrees no x) (hdb : (c.exec rates x.db).2 = x.db) :
    Agrees no (x.step rates c) := by
  have hnot : ¬ Book.Raised x.db x.db c.tradeNo := by
    rintro ⟨o, -, hlt⟩
    exact absurd hlt (Int.lt_irrefl _)
  intro topUp ho
  simp only [Book.step, hdb, if_neg hnot] at ho ⊢
  exact h topUp ho

/-- **A call keeps the credits in agreement with the status.** -/
theorem Agrees.step {c : Call} (h : Agrees no x) (hc : Creditable rates no x c) :
    Agrees no (x.step rates c) := by
  by_cases hno : no = c.tradeNo
  swap
  · exact h.other hno
  subst hno
  rcases Call.acts_exec rates x.db c with hdb | ⟨o, ho, hpending, hmatch, hacts⟩
  · exact h.same hdb
  have hzero : x.credits c.tradeNo = 0 := by
    rw [h o ho, hpending]
    rfl
  have hgood := hc rfl o ho hpending hmatch
  rcases hacts with ⟨no, expected, target, rfl, hout⟩ | ⟨now, f, hquota, hcredit, hout⟩
  · -- the status is changed, and nobody is credited
    have hnot : ¬ Book.Raised x.db (x.db.setTopUp no { o with status := target }) no := by
      rintro ⟨o', -, hlt⟩
      rw [Db.setTopUp_quota] at hlt
      exact absurd hlt (Int.lt_irrefl _)
    intro topUp ho'
    simp only [Book.step, hout, Call.tradeNo, if_neg hnot, Db.setTopUp_self] at ho' ⊢
    cases ho'
    rw [if_neg hgood]
    exact hzero
  · -- the order is completed, and there is something to credit
    obtain ⟨hpos, huser⟩ := hcredit hgood
    obtain ⟨u, hu⟩ := Option.ne_none_iff_exists'.mp huser
    have hraised : Book.Raised x.db ((x.db.complete c.tradeNo o now).updateUser o.userId f)
        c.tradeNo := by
      refine ⟨o, ho, ?_⟩
      have hold : x.db.quota o.userId = u.quota := by simp [Db.quota, hu]
      have hu' : (x.db.complete c.tradeNo o now).user o.userId = some u := hu
      rw [Db.updateUser_quota _ hu', hquota u, hold]
      omega
    intro topUp ho'
    simp only [Book.step, hout, if_pos hraised] at ho' ⊢
    simp only [Db.updateUser_topUp, Db.complete, Db.setTopUp_self] at ho'
    cases ho'
    rw [Function.update_self, hzero]
    rfl

/-- **Every pending order is paid once**, over any sequence of calls, if those that find
it pending have something to credit. -/
theorem paidOnce_of_creditable {db : Db M} {topUp : TopUp M} {cs : List Call}
    (ho : db.topUp no = some topUp) (hs : topUp.status = .pending)
    (h : Along (Book.step rates) (Creditable rates no) (.start db) cs) :
    PaidOnce rates no (run (Book.step rates) (.start db) cs) := by
  have hstart : Agrees no (Book.start db) := by
    intro o ho'
    have hoo : some topUp = some o := ho.symm.trans ho'
    cases hoo
    rw [hs]
    rfl
  have hagrees : Agrees no (run (Book.step rates) (.start db) cs) :=
    inv_run (fun _ _ hx hc => Agrees.step hx hc) hstart h
  refine ⟨fun o ho' hs' => final_of_not_pending ho' hs', hagrees, ?_,
    fun _ he => Call.exec_error he⟩
  intro c o hno ho' hm
  subst hno
  exact Call.exec_mismatch ho' hm

end Run

section Sample

/-- Dollars without cents, at the default rate. -/
def sampleRates : Rates Int := ⟨500000, fun m => m, fun m => m * 500000⟩

/-- An order of 2 dollars. -/
def sampleOrder (provider : PaymentProvider) (amount : Int) : TopUp Int :=
  ⟨101, amount, 2, provider, 0, .pending⟩

/-- One order, and the user who made it. -/
def sampleDb (provider : PaymentProvider) (amount : Int) : Db Int where
  topUp no := if no = "ref" then some (sampleOrder provider amount) else none
  user id := if id = 101 then some ⟨0, "", ""⟩ else none

/-- A callback that comes twice, one of another provider, and an expiry that is late. -/
def sampleCalls : List Call :=
  [.rechargeWaffo "ref" 10, .recharge "ref" "cus" 20, .recharge "ref" "cus" 30,
    .updatePendingTopUpStatus "ref" .stripe .expired, .manualCompleteTopUp "ref" 40]

/-- The order is paid once. -/
theorem paidOnce_sampleCalls :
    Along (Book.step sampleRates) (Creditable sampleRates "ref") (.start (sampleDb .stripe 2))
        sampleCalls ∧
      PaidOnce sampleRates "ref"
        (run (Book.step sampleRates) (.start (sampleDb .stripe 2)) sampleCalls) := by
  have ho : (sampleDb .stripe 2).topUp "ref" = some (sampleOrder .stripe 2) := by decide +kernel
  exact ⟨by decide +kernel, paidOnce_of_creditable ho rfl (by decide +kernel)⟩

/-- **A Creem order without an amount succeeds and credits nothing.** -/
theorem empty_creem_order_succeeds :
    ¬ PaidOnce sampleRates "ref"
      (run (Book.step sampleRates) (.start (sampleDb .creem 0)) [.rechargeCreem "ref" "" 10]) := by
  intro h
  have hcredits := h.credits { sampleOrder .creem 0 with completeTime := 10, status := .success }
    (by decide +kernel)
  revert hcredits
  decide +kernel

end Sample

end NewApiPool.Payment
