import Mathlib.Logic.Function.Basic
import Mathlib.Algebra.Order.Group.Int
import NewApiPool.Lib.GoText

/-!
# The accounts a request is billed to

The rows a relayed request moves money on – the quota of a user, the remaining
and used quota of a token, the amount used of a subscription with its
idempotency records – and the primitives of package `model` that move it.

A primitive is one call of the database. It takes the fault that hits it: `none`
when the database does what it is asked, `some e` when it fails with `e`, and a
failed primitive has no effect. So a theorem for all faults is a theorem for
every way the database may fail.

The subscription primitives are given as a billing session sees them: an amount
is added to, or taken from, the amount used. A delta that is refused, because the
subscription would exceed its `amount_total`, is a call that fails. What
`PreConsumeUserSubscription` does to find the subscription, that refusal, and the
clamp of `PostConsumeUserSubscriptionDelta` at zero, which is not reached while no
more is given back than is used, are the subject of `NewApiPool.Subscription.Store`;
that the two agree, of `NewApiPool.Subscription.Refinement`.
-/

namespace NewApiPool.Billing

open GoText

/-- What hits a call of the database: nothing, or an error. -/
abbrev Fault := Option String

/-- The quota columns of a row of `tokens`. -/
structure TokenRow where
  remainQuota : Int
  usedQuota : Int
deriving DecidableEq, Repr

/-- A row of `subscription_pre_consume_records`. -/
structure PreConsumeRecord where
  userSubscriptionId : Int
  preConsumed : Int
  /-- Whether `status` is `refunded`, not `consumed`. -/
  refunded : Bool
deriving DecidableEq, Repr

/-- The accounts: `quota` of the users, the tokens, `amount_used` of the
subscriptions, and the pre-consume records by `request_id`. -/
structure Accounts where
  /-- `users.quota` by user id. -/
  quota : Int → Int
  /-- The tokens by id. -/
  token : Int → TokenRow
  /-- `user_subscriptions.amount_used` by subscription id. -/
  amountUsed : Int → Int
  /-- The record of a request, if it has one. -/
  record : String → Option PreConsumeRecord

namespace Accounts

variable (w : Accounts)

/-- The accounts with `d` added to the quota of user `id`. -/
def addQuota (id d : Int) : Accounts :=
  { w with quota := Function.update w.quota id (w.quota id + d) }

/-- The accounts with `d` moved from used to remaining on token `id`. -/
def addToken (id d : Int) : Accounts :=
  let row := w.token id
  { w with token := Function.update w.token id ⟨row.remainQuota + d, row.usedQuota - d⟩ }

/-- The accounts with `d` added to the amount used of subscription `id`. -/
def addUsed (id d : Int) : Accounts :=
  { w with amountUsed := Function.update w.amountUsed id (w.amountUsed id + d) }

/-- The accounts with the record of `requestId` replaced. -/
def setRecord (requestId : String) (r : PreConsumeRecord) : Accounts :=
  { w with record := Function.update w.record requestId (some r) }

section Fields

variable {w} (id id' d : Int) (q : String) (r : PreConsumeRecord)

@[simp] theorem addQuota_quota_self : (w.addQuota id d).quota id = w.quota id + d := by
  simp [addQuota]

@[simp] theorem addQuota_token : (w.addQuota id d).token = w.token := rfl

@[simp] theorem addQuota_amountUsed : (w.addQuota id d).amountUsed = w.amountUsed := rfl

@[simp] theorem addQuota_record : (w.addQuota id d).record = w.record := rfl

@[simp] theorem addToken_quota : (w.addToken id d).quota = w.quota := rfl

@[simp] theorem addToken_remain_self :
    ((w.addToken id d).token id).remainQuota = (w.token id).remainQuota + d := by
  simp [addToken]

@[simp] theorem addToken_amountUsed : (w.addToken id d).amountUsed = w.amountUsed := rfl

@[simp] theorem addToken_record : (w.addToken id d).record = w.record := rfl

@[simp] theorem addUsed_quota : (w.addUsed id d).quota = w.quota := rfl

@[simp] theorem addUsed_token : (w.addUsed id d).token = w.token := rfl

@[simp] theorem addUsed_amountUsed_self :
    (w.addUsed id d).amountUsed id = w.amountUsed id + d := by
  simp [addUsed]

@[simp] theorem addUsed_record : (w.addUsed id d).record = w.record := rfl

@[simp] theorem setRecord_quota : (w.setRecord q r).quota = w.quota := rfl

@[simp] theorem setRecord_token : (w.setRecord q r).token = w.token := rfl

@[simp] theorem setRecord_amountUsed : (w.setRecord q r).amountUsed = w.amountUsed := rfl

@[simp] theorem setRecord_record_self : (w.setRecord q r).record q = some r := by
  simp [setRecord]

/-- Money put on an account and taken off again leaves the accounts as they
were: what a rollback rests on. -/
theorem addQuota_cancel : (w.addQuota id (-d)).addQuota id d = w := by
  simp [addQuota]

theorem addToken_cancel : (w.addToken id (-d)).addToken id d = w := by
  simp [addToken]

theorem addUsed_cancel : (w.addUsed id d).addUsed id (-d) = w := by
  simp [addUsed]

end Fields

end Accounts

/-! ### Charging an account -/

/-- `BillingSourceWallet` and `BillingSourceSubscription`. -/
inductive BillingSource where
  | wallet
  | subscription
deriving DecidableEq, Repr

/-- The account a funding source draws on: a user's quota or a subscription. -/
abbrev FundingAccount := BillingSource × Int

/-- The accounts with `d` charged to a funding account: a wallet goes down, the
amount used of a subscription goes up. -/
def Accounts.charge (w : Accounts) (a : FundingAccount) (d : Int) : Accounts :=
  match a.1 with
  | .wallet => w.addQuota a.2 (-d)
  | .subscription => w.addUsed a.2 d

/-- The net amount debited from a funding account between `w₀` and `w`. -/
def fundingDebit (w₀ w : Accounts) (a : FundingAccount) : Int :=
  match a.1 with
  | .wallet => w₀.quota a.2 - w.quota a.2
  | .subscription => w.amountUsed a.2 - w₀.amountUsed a.2

/-- The net amount debited from a token between `w₀` and `w`. -/
def tokenDebit (w₀ w : Accounts) (tokenId : Int) : Int :=
  (w₀.token tokenId).remainQuota - (w.token tokenId).remainQuota

section Charging

variable (w₀ w : Accounts) (a : FundingAccount) (d : Int)

@[simp] theorem fundingDebit_self : fundingDebit w w a = 0 := by
  unfold fundingDebit
  cases a.1 <;> simp

@[simp] theorem tokenDebit_self (id : Int) : tokenDebit w w id = 0 := by
  simp [tokenDebit]

@[simp] theorem fundingDebit_charge :
    fundingDebit w₀ (w.charge a d) a = fundingDebit w₀ w a + d := by
  unfold fundingDebit Accounts.charge
  rcases a with ⟨_ | _, id⟩ <;> simp <;> omega

@[simp] theorem tokenDebit_charge (id : Int) :
    tokenDebit w₀ (w.charge a d) id = tokenDebit w₀ w id := by
  unfold tokenDebit Accounts.charge
  rcases a with ⟨_ | _, i⟩ <;> simp

@[simp] theorem charge_record : (w.charge a d).record = w.record := by
  unfold Accounts.charge
  rcases a with ⟨_ | _, i⟩ <;> simp

theorem charge_cancel : (w.charge a d).charge a (-d) = w := by
  unfold Accounts.charge
  rcases a with ⟨_ | _, i⟩
  · simpa using w.addQuota_cancel i d
  · simpa using w.addUsed_cancel i d

@[simp] theorem fundingDebit_setRecord (q : String) (r : PreConsumeRecord) :
    fundingDebit w₀ (w.setRecord q r) a = fundingDebit w₀ w a := by
  unfold fundingDebit
  rcases a with ⟨_ | _, i⟩ <;> simp

@[simp] theorem tokenDebit_setRecord (q : String) (r : PreConsumeRecord) (id : Int) :
    tokenDebit w₀ (w.setRecord q r) id = tokenDebit w₀ w id := by
  simp [tokenDebit]

end Charging

/-! ### The primitives -/

section Primitives

variable (f : Fault) (w : Accounts)

/-- The guard and the fault shared by the four quota primitives: a negative
amount is refused, and a call that is hit by a fault has no effect. -/
def quotaPrimitive (quota : Int) (w' : Accounts) : Except String Accounts :=
  if quota < 0 then .error "quota 不能为负数！"
  else match f with
    | some e => .error e
    | none => .ok w'

/-- `model.IncreaseUserQuota`. -/
def increaseUserQuota (id quota : Int) : Except String Accounts :=
  quotaPrimitive f quota (w.addQuota id quota)

/-- `model.DecreaseUserQuota`. -/
def decreaseUserQuota (id quota : Int) : Except String Accounts :=
  quotaPrimitive f quota (w.addQuota id (-quota))

/-- `model.IncreaseTokenQuota`. -/
def increaseTokenQuota (id quota : Int) : Except String Accounts :=
  quotaPrimitive f quota (w.addToken id quota)

/-- `model.DecreaseTokenQuota`. -/
def decreaseTokenQuota (id quota : Int) : Except String Accounts :=
  quotaPrimitive f quota (w.addToken id (-quota))

/-- `model.PostConsumeUserSubscriptionDelta`, when it does not clamp. -/
def postConsumeUserSubscriptionDelta (userSubscriptionId delta : Int) :
    Except String Accounts :=
  if userSubscriptionId ≤ 0 then .error "invalid userSubscriptionId"
  else if delta = 0 then .ok w
  else match f with
    | some e => .error e
    | none => .ok (w.addUsed userSubscriptionId delta)

/-- `model.SubscriptionPreConsumeResult`, less the two fields no caller reads,
with the plan `GetSubscriptionPlanInfoByUserSubscriptionId` finds for it. -/
structure SubscriptionPreConsumeResult where
  userSubscriptionId : Int
  preConsumed : Int
  amountTotal : Int
  amountUsedAfter : Int
  planInfo : Option (Int × String)
deriving DecidableEq, Repr

/-- The subscription `PreConsumeUserSubscription` settles on. Its id is a primary
key, hence positive. -/
structure ChosenSubscription where
  id : Int
  amountTotal : Int
  planInfo : Option (Int × String)
  id_pos : 0 < id
deriving DecidableEq, Repr

/-- `model.PreConsumeUserSubscription`. `o` is the subscription it settles on for
a request it has not seen, or the error it ends with; a request it has seen is
answered from its record, and nothing is added. -/
def preConsumeUserSubscription (o : Except String ChosenSubscription) (requestId : String)
    (userId amount : Int) : Except String (SubscriptionPreConsumeResult × Accounts) :=
  if userId ≤ 0 then .error "invalid userId"
  else if trimSpace requestId = "" then .error "requestId is empty"
  else if amount ≤ 0 then .error "amount must be > 0"
  else match o with
    | .error e => .error e
    | .ok sub =>
      match w.record requestId with
      | some existing =>
        if existing.refunded then .error "subscription pre-consume already refunded"
        else .ok (⟨existing.userSubscriptionId, existing.preConsumed, sub.amountTotal,
          w.amountUsed existing.userSubscriptionId, sub.planInfo⟩, w)
      | none =>
        .ok (⟨sub.id, amount, sub.amountTotal, w.amountUsed sub.id + amount, sub.planInfo⟩,
          (w.addUsed sub.id amount).setRecord requestId ⟨sub.id, amount, false⟩)

/-- `model.RefundSubscriptionPreConsume`. -/
def refundSubscriptionPreConsume (requestId : String) : Except String Accounts :=
  if trimSpace requestId = "" then .error "requestId is empty"
  else match f with
    | some e => .error e
    | none =>
      match w.record requestId with
      | none => .error "record not found"
      | some record =>
        if record.refunded then .ok w
        else if record.preConsumed ≤ 0 then
          .ok (w.setRecord requestId { record with refunded := true })
        else
          .ok ((w.addUsed record.userSubscriptionId (-record.preConsumed)).setRecord requestId
            { record with refunded := true })

variable {f w} {w' : Accounts} {id quota : Int}

/-- **What a quota primitive does**: it fails and then nothing is said of the
accounts, or it was asked for a non-negative amount and hit by no fault. -/
theorem quotaPrimitive_eq_ok {u : Accounts} :
    quotaPrimitive f quota w' = .ok u ↔ 0 ≤ quota ∧ f = none ∧ u = w' := by
  unfold quotaPrimitive
  by_cases hq : quota < 0
  · simp [hq]
  · cases f with
    | none => simp [hq, not_lt.mp hq, eq_comm]
    | some e => simp [hq]

theorem quotaPrimitive_none (hq : 0 ≤ quota) : quotaPrimitive none quota w' = .ok w' :=
  quotaPrimitive_eq_ok.mpr ⟨hq, rfl, rfl⟩

theorem postConsumeUserSubscriptionDelta_none (hid : 0 < id) (d : Int) :
    postConsumeUserSubscriptionDelta none w id d = .ok (w.addUsed id d) := by
  unfold postConsumeUserSubscriptionDelta
  rw [if_neg (by omega)]
  by_cases hd : d = 0
  · subst hd
    simp [Accounts.addUsed]
  · rw [if_neg hd]

end Primitives

end NewApiPool.Billing
