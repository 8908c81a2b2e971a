import NewApiPool.Payment.TopUp
import NewApiPool.Subscription.Group

/-!
# Subscription orders

A subscription is bought by an order, which the callback of the payment provider completes.
The completion is one transaction over four tables: it moves the user to the group of the plan,
creates the subscription, mirrors the payment as a top-up of amount 0 and saves the order. Any of
its statements can fail, and so can the commit; what has been written by then is rolled back.

Over every sequence of completions and expiries of one order, failed and repeated ones included,
there is exactly one subscription and one top-up for it when it is a success, and nothing has been
touched as long as it is not (`NewApiPool.Subscription.completed_once`).

The log entry and the cache of the user's group come after the commit, have no error of their own
and are left out. The source text `order` of the new subscription is read by nothing here.
-/

namespace NewApiPool.Subscription

open EventSystem GoText
open Payment (PaymentProvider TopUpStatus)

variable {M : Type}

/-! ### The tables -/

/-- A row of `subscription_orders`, less its id and its number. -/
structure SubscriptionOrder (M : Type) where
  userId : Int
  planId : Int
  money : M
  paymentMethod : String
  paymentProvider : PaymentProvider
  status : TopUpStatus
  createTime : Int
  completeTime : Int
  providerPayload : String
deriving DecidableEq, Repr

/-- A row of `top_ups`, less its id and its number. -/
structure TopUp (M : Type) where
  userId : Int
  amount : Int
  money : M
  paymentMethod : String
  paymentProvider : PaymentProvider
  createTime : Int
  completeTime : Int
  status : TopUpStatus
deriving DecidableEq, Repr

/-- The subscriptions with the orders and the top-ups by their number, which is a unique column
of both. -/
structure OrderDb (M : Type) extends Db where
  orders : String → Option (SubscriptionOrder M)
  topUps : String → Option (TopUp M)

namespace OrderDb

variable (db : OrderDb M)

/-- The database with an order saved. -/
def setOrder (tradeNo : String) (order : SubscriptionOrder M) : OrderDb M :=
  { db with orders := Function.update db.orders tradeNo (some order) }

/-- The database with a top-up saved. -/
def setTopUp (tradeNo : String) (topUp : TopUp M) : OrderDb M :=
  { db with topUps := Function.update db.topUps tradeNo (some topUp) }

/-- The status of an order, if there is one. -/
def status (tradeNo : String) : Option TopUpStatus :=
  (db.orders tradeNo).map SubscriptionOrder.status

end OrderDb

/-! ### The functions -/

/-- The statements at which a transaction can fail. -/
inductive Statement where
  | readOrder
  | readPlan
  /-- The queries of `CreateUserSubscriptionFromPlanTx`. -/
  | countSubs
  /-- The insert of the subscription, after the user's group was written. -/
  | createSub
  | readTopUp
  | writeTopUp
  | saveOrder
  | commit
deriving DecidableEq, Repr

/-- What a call finds: the statements that fail, the plan of the order if it is in the cache, and
the clocks of the server and of the database. -/
structure OrderEnv where
  fails : Statement → Bool
  cachedPlan : Option SubscriptionPlan
  now : Int
  dbNow : Int

/-- `DB.Transaction`: what was written is kept if the body and the commit return no error. -/
def transaction (env : OrderEnv) (body : OrderDb M → Option String × OrderDb M)
    (db : OrderDb M) : Option String × OrderDb M :=
  match body db with
  | (some e, _) => (some e, db)
  | (none, db') => if env.fails .commit then (some "database", db) else (none, db')

/-- What both functions do first: the order is read, whatever error stands for a missing one, and
its provider is checked. -/
def findOrder (env : OrderEnv) (db : OrderDb M) (tradeNo : String)
    (expectedPaymentProvider : PaymentProvider) : Except String (SubscriptionOrder M) :=
  match if env.fails .readOrder then none else db.orders tradeNo with
  | none => .error "subscription order not found"
  | some order =>
    if expectedPaymentProvider ≠ .unset ∧ order.paymentProvider ≠ expectedPaymentProvider then
      .error "payment method mismatch"
    else .ok order

def getSubscriptionPlanById (env : OrderEnv) (db : Db) (id : Int) :
    Except String SubscriptionPlan :=
  if id ≤ 0 then .error "invalid plan id"
  else match env.cachedPlan with
    | some plan => .ok plan
    | none =>
      if env.fails .readPlan then .error "database"
      else match db.plans id with
        | none => .error "record not found"
        | some plan => .ok plan

/-- `CreateUserSubscriptionFromPlanTx` inside the transaction of an order. If the insert fails,
the group is already written. -/
def createSubscription (cal : Calendar) (env : OrderEnv) (db : OrderDb M) (userId : Int)
    (plan : SubscriptionPlan) : Option String × OrderDb M :=
  if env.fails .countSubs then (some "database", db)
  else match createUserSubscriptionFromPlanTx cal db.toDb userId plan env.dbNow with
    | .error e => (some e, db)
    | .ok (_, _, db') =>
      if env.fails .createSub then (some "database", { db with groups := db'.groups })
      else (none, { db with toDb := db' })

/-- The row that `upsertSubscriptionTopUpTx` creates. -/
def SubscriptionOrder.topUp (order : SubscriptionOrder M) (now : Int) : TopUp M where
  userId := order.userId
  amount := 0
  money := order.money
  paymentMethod := order.paymentMethod
  paymentProvider := .unset
  createTime := order.createTime
  completeTime := now
  status := .success

def upsertSubscriptionTopUpTx (env : OrderEnv) (db : OrderDb M) (tradeNo : String)
    (order : SubscriptionOrder M) : Option String × OrderDb M :=
  if env.fails .readTopUp then (some "database", db)
  else match db.topUps tradeNo with
    | none =>
      if env.fails .writeTopUp then (some "database", db)
      else (none, db.setTopUp tradeNo (order.topUp env.now))
    | some topUp =>
      if topUp.paymentMethod ≠ "" ∧ topUp.paymentMethod ≠ order.paymentMethod then
        (some "payment method mismatch", db)
      else if env.fails .writeTopUp then (some "database", db)
      else (none, db.setTopUp tradeNo
        { topUp with
          money := order.money
          paymentMethod :=
            if topUp.paymentMethod = "" then order.paymentMethod else topUp.paymentMethod
          createTime := if topUp.createTime = 0 then order.createTime else topUp.createTime
          completeTime := env.now
          status := .success })

/-- The order that a completion saves. -/
def SubscriptionOrder.completed (order : SubscriptionOrder M) (now : Int)
    (providerPayload actualPaymentMethod : String) : SubscriptionOrder M :=
  { order with
    status := .success
    completeTime := now
    providerPayload := if providerPayload ≠ "" then providerPayload else order.providerPayload
    paymentMethod := if actualPaymentMethod ≠ "" ∧ order.paymentMethod ≠ actualPaymentMethod
      then actualPaymentMethod else order.paymentMethod }

/-- The body of the transaction of `CompleteSubscriptionOrder`, with what it has written where
it returns an error. A plan that was disabled since is completed all the same. -/
def completeSubscriptionOrderTx (cal : Calendar) (env : OrderEnv) (tradeNo providerPayload : String)
    (expectedPaymentProvider : PaymentProvider) (actualPaymentMethod : String) (db : OrderDb M) :
    Option String × OrderDb M :=
  match findOrder env db tradeNo expectedPaymentProvider with
  | .error e => (some e, db)
  | .ok order =>
    if order.status = .success then (none, db)
    else if order.status ≠ .pending then (some "subscription order status invalid", db)
    else match getSubscriptionPlanById env db.toDb order.planId with
      | .error e => (some e, db)
      | .ok plan =>
        match createSubscription cal env db order.userId plan with
        | (some e, db₁) => (some e, db₁)
        | (none, db₁) =>
          match upsertSubscriptionTopUpTx env db₁ tradeNo order with
          | (some e, db₂) => (some e, db₂)
          | (none, db₂) =>
            if env.fails .saveOrder then (some "database", db₂)
            else (none, db₂.setOrder tradeNo
              (order.completed env.now providerPayload actualPaymentMethod))

def completeSubscriptionOrder (cal : Calendar) (env : OrderEnv) (tradeNo providerPayload : String)
    (expectedPaymentProvider : PaymentProvider) (actualPaymentMethod : String) (db : OrderDb M) :
    Option String × OrderDb M :=
  if tradeNo = "" then (some "tradeNo is empty", db)
  else transaction env (completeSubscriptionOrderTx cal env tradeNo providerPayload
    expectedPaymentProvider actualPaymentMethod) db

/-- The body of the transaction of `ExpireSubscriptionOrder`. -/
def expireSubscriptionOrderTx (env : OrderEnv) (tradeNo : String)
    (expectedPaymentProvider : PaymentProvider) (db : OrderDb M) : Option String × OrderDb M :=
  match findOrder env db tradeNo expectedPaymentProvider with
  | .error e => (some e, db)
  | .ok order =>
    if order.status ≠ .pending then (none, db)
    else if env.fails .saveOrder then (some "database", db)
    else (none, db.setOrder tradeNo { order with status := .expired, completeTime := env.now })

def expireSubscriptionOrder (env : OrderEnv) (tradeNo : String)
    (expectedPaymentProvider : PaymentProvider) (db : OrderDb M) : Option String × OrderDb M :=
  if tradeNo = "" then (some "tradeNo is empty", db)
  else transaction env (expireSubscriptionOrderTx env tradeNo expectedPaymentProvider) db

/-- A call for one order. A callback that is delivered again is the same call again. -/
inductive OrderCall where
  | complete (env : OrderEnv) (providerPayload : String) (expected : PaymentProvider)
    (actualPaymentMethod : String)
  | expire (env : OrderEnv) (expected : PaymentProvider)

namespace OrderCall

/-- The provider that a call expects. -/
def expected : OrderCall → PaymentProvider
  | complete _ _ expected _ => expected
  | expire _ expected => expected

/-- The error of a call, if any, and the database it leaves. -/
def exec (cal : Calendar) (tradeNo : String) (db : OrderDb M) :
    OrderCall → Option String × OrderDb M
  | complete env payload expected actual =>
    completeSubscriptionOrder cal env tradeNo payload expected actual db
  | expire env expected => expireSubscriptionOrder env tradeNo expected db

/-- The database after a call. -/
def step (cal : Calendar) (tradeNo : String) (db : OrderDb M) (c : OrderCall) : OrderDb M :=
  (c.exec cal tradeNo db).2

end OrderCall

/-! ### What one call does -/

section Calls

variable {cal : Calendar} {env : OrderEnv} {tradeNo : String} {db db₀ : OrderDb M}
  {expected : PaymentProvider} {order : SubscriptionOrder M} {c : OrderCall}

/-- **A transaction changes nothing, or its body and its commit have come through.** -/
theorem transaction_cases (env : OrderEnv) (body : OrderDb M → Option String × OrderDb M)
    (db : OrderDb M) :
    (transaction env body db).2 = db ∨
      ((transaction env body db).1 = none ∧ body db = (none, (transaction env body db).2)) := by
  rcases h : body db with ⟨_ | e, db'⟩
  · cases hc : env.fails .commit
    · exact Or.inr (by simp [transaction, h, hc])
    · exact Or.inl (by simp [transaction, h, hc])
  · exact Or.inl (by simp [transaction, h])

theorem transaction_error {body : OrderDb M → Option String × OrderDb M} {e : String}
    (h : (transaction env body db).1 = some e) : (transaction env body db).2 = db := by
  rcases transaction_cases env body db with hkeep | ⟨hnone, -⟩
  · exact hkeep
  · rw [hnone] at h
    cases h

theorem findOrder_ok (h : findOrder env db tradeNo expected = .ok order) :
    db.orders tradeNo = some order ∧
      (expected = .unset ∨ order.paymentProvider = expected) := by
  unfold findOrder at h
  split at h
  · cases h
  rename_i found hfound
  split at h
  · cases h
  rename_i hprovider
  cases h
  constructor
  · cases hf : env.fails .readOrder
    · simpa [hf] using hfound
    · simp [hf] at hfound
  · simpa [or_iff_not_imp_left] using hprovider

/-- **The subscription of an order** is a row with a new id, for its user. -/
theorem createSubscription_ok {userId : Int} {plan : SubscriptionPlan} {db' : OrderDb M}
    (h : createSubscription cal env db userId plan = (none, db')) :
    db'.orders = db.orders ∧ db'.topUps = db.topUps ∧
      ∃ id sub, db.subs id = none ∧ db'.subs = Function.update db.subs id (some sub) ∧
        sub.userId = userId := by
  unfold createSubscription at h
  split at h
  · cases h
  split at h
  · cases h
  rename_i id sub store hcreate
  split at h
  · cases h
  cases h
  obtain ⟨-, hnew, huser, -, -, -, hsubs, -⟩ := create_ok hcreate
  exact ⟨rfl, rfl, id, sub, hnew, hsubs, huser⟩

/-- **The top-up of an order** has its number, its money and the status of a success, and it is
the only row that is written. -/
theorem upsertSubscriptionTopUpTx_ok {db' : OrderDb M}
    (h : upsertSubscriptionTopUpTx env db tradeNo order = (none, db')) :
    ∃ topUp : TopUp M, db' = db.setTopUp tradeNo topUp ∧ topUp.status = .success ∧
      topUp.money = order.money := by
  unfold upsertSubscriptionTopUpTx at h
  split at h
  · cases h
  split at h
  · split at h
    · cases h
    cases h
    exact ⟨_, rfl, rfl, rfl⟩
  · split at h
    · cases h
    split at h
    · cases h
    cases h
    exact ⟨_, rfl, rfl, rfl⟩

/-- **What a completion does** to the rows, seen from before it. -/
structure Completes (db : OrderDb M) (tradeNo : String) (db' : OrderDb M) : Prop where
  pending : db.status tradeNo = some .pending
  success : db'.status tradeNo = some .success
  sub : ∃ id sub, db.subs id = none ∧ db'.subs = Function.update db.subs id (some sub) ∧
    (db'.orders tradeNo).map SubscriptionOrder.userId = some sub.userId
  topUp : ∃ topUp : TopUp M, db'.topUps = Function.update db.topUps tradeNo (some topUp) ∧
    topUp.status = .success ∧
    (db'.orders tradeNo).map SubscriptionOrder.money = some topUp.money

/-- **What an expiry does**: the order is the only row that is written. -/
structure Expires (db : OrderDb M) (tradeNo : String) (db' : OrderDb M) : Prop where
  pending : db.status tradeNo = some .pending
  expired : db'.status tradeNo = some .expired
  subs : db'.subs = db.subs
  topUps : db'.topUps = db.topUps
  groups : db'.groups = db.groups

theorem completeSubscriptionOrderTx_ok {payload actual : String} {db' : OrderDb M}
    (h : completeSubscriptionOrderTx cal env tradeNo payload expected actual db = (none, db')) :
    db' = db ∨ Completes db tradeNo db' := by
  unfold completeSubscriptionOrderTx at h
  split at h
  · cases h
  rename_i order hfind
  obtain ⟨horder, -⟩ := findOrder_ok hfind
  split at h
  · cases h
    exact Or.inl rfl
  split at h
  · cases h
  rename_i hpending
  split at h
  · cases h
  split at h
  · cases h
  rename_i db₁ hcreate
  obtain ⟨-, htopUps, id, sub, hnew, hsubs, huser⟩ := createSubscription_ok hcreate
  split at h
  · cases h
  rename_i db₂ hupsert
  obtain ⟨topUp, rfl, hsuccess, hmoney⟩ := upsertSubscriptionTopUpTx_ok hupsert
  split at h
  · cases h
  cases h
  refine Or.inr ⟨?_, ?_, ⟨id, sub, hnew, hsubs, ?_⟩, ⟨topUp, ?_, hsuccess, ?_⟩⟩
  · simpa [OrderDb.status, horder] using hpending
  · simp [OrderDb.status, OrderDb.setOrder, SubscriptionOrder.completed]
  · simp [OrderDb.setOrder, SubscriptionOrder.completed, huser]
  · show Function.update db₁.topUps tradeNo (some topUp) = _
    rw [htopUps]
  · simp [OrderDb.setOrder, SubscriptionOrder.completed, hmoney]

theorem expireSubscriptionOrderTx_ok {db' : OrderDb M}
    (h : expireSubscriptionOrderTx env tradeNo expected db = (none, db')) :
    db' = db ∨ Expires db tradeNo db' := by
  unfold expireSubscriptionOrderTx at h
  split at h
  · cases h
  rename_i order hfind
  obtain ⟨horder, -⟩ := findOrder_ok hfind
  split at h
  · cases h
    exact Or.inl rfl
  rename_i hpending
  split at h
  · cases h
  cases h
  refine Or.inr ⟨?_, ?_, rfl, rfl, rfl⟩
  · simpa [OrderDb.status, horder] using hpending
  · simp [OrderDb.status, OrderDb.setOrder]

theorem completeSubscriptionOrder_cases {payload actual : String} :
    (completeSubscriptionOrder cal env tradeNo payload expected actual db).2 = db ∨
      Completes db tradeNo
        (completeSubscriptionOrder cal env tradeNo payload expected actual db).2 := by
  unfold completeSubscriptionOrder
  split
  · exact Or.inl rfl
  rcases transaction_cases _ _ db with hkeep | ⟨-, hbody⟩
  · exact Or.inl hkeep
  · exact completeSubscriptionOrderTx_ok hbody

theorem expireSubscriptionOrder_cases :
    (expireSubscriptionOrder env tradeNo expected db).2 = db ∨
      Expires db tradeNo (expireSubscriptionOrder env tradeNo expected db).2 := by
  unfold expireSubscriptionOrder
  split
  · exact Or.inl rfl
  rcases transaction_cases _ _ db with hkeep | ⟨-, hbody⟩
  · exact Or.inl hkeep
  · exact expireSubscriptionOrderTx_ok hbody

theorem completeSubscriptionOrder_error {payload actual e : String}
    (h : (completeSubscriptionOrder cal env tradeNo payload expected actual db).1 = some e) :
    (completeSubscriptionOrder cal env tradeNo payload expected actual db).2 = db := by
  unfold completeSubscriptionOrder at h ⊢
  by_cases hempty : tradeNo = ""
  · rw [if_pos hempty]
  · rw [if_neg hempty] at h ⊢
    exact transaction_error h

theorem expireSubscriptionOrder_error {e : String}
    (h : (expireSubscriptionOrder env tradeNo expected db).1 = some e) :
    (expireSubscriptionOrder env tradeNo expected db).2 = db := by
  unfold expireSubscriptionOrder at h ⊢
  by_cases hempty : tradeNo = ""
  · rw [if_pos hempty]
  · rw [if_neg hempty] at h ⊢
    exact transaction_error h

namespace OrderCall

/-- **What a call does**: nothing, or it completes or expires the order. -/
theorem step_cases (cal : Calendar) (tradeNo : String) (db : OrderDb M) (c : OrderCall) :
    c.step cal tradeNo db = db ∨ Completes db tradeNo (c.step cal tradeNo db) ∨
      Expires db tradeNo (c.step cal tradeNo db) := by
  cases c with
  | complete env payload expected actual =>
    rcases completeSubscriptionOrder_cases with hsame | hdone
    · exact Or.inl hsame
    · exact Or.inr (Or.inl hdone)
  | expire env expected =>
    rcases expireSubscriptionOrder_cases with hsame | hdone
    · exact Or.inl hsame
    · exact Or.inr (Or.inr hdone)

/-- **A call that returns an error changes nothing.** -/
theorem step_of_error {e : String} (h : (c.exec cal tradeNo db).1 = some e) :
    c.step cal tradeNo db = db := by
  cases c with
  | complete env payload expected actual => exact completeSubscriptionOrder_error h
  | expire env expected => exact expireSubscriptionOrder_error h

/-- **An order that is not pending stays as it is**, and so does everything else. -/
theorem step_of_not_pending (h : db.status tradeNo ≠ some .pending) :
    c.step cal tradeNo db = db := by
  rcases step_cases cal tradeNo db c with hsame | hdone | hdone
  · exact hsame
  · exact absurd hdone.pending h
  · exact absurd hdone.pending h

/-- **The wrong provider is turned away.** -/
theorem exec_of_mismatch (horder : db.orders tradeNo = some order)
    (hexpected : c.expected ≠ .unset) (hprovider : order.paymentProvider ≠ c.expected) :
    ∃ e, c.exec cal tradeNo db = (some e, db) := by
  have hfind : ∀ env, ∃ e, findOrder env db tradeNo c.expected = .error e := by
    intro env
    rcases hfound : findOrder env db tradeNo c.expected with e | found
    · exact ⟨e, rfl⟩
    · obtain ⟨hfound, hok⟩ := findOrder_ok hfound
      rw [horder] at hfound
      cases hfound
      exact absurd hok (by simp [hexpected, hprovider])
  by_cases hempty : tradeNo = ""
  · cases c <;> exact ⟨_, if_pos hempty⟩
  cases c with
  | complete env payload expected actual =>
    obtain ⟨e, he⟩ : ∃ e, findOrder env db tradeNo expected = .error e := hfind env
    exact ⟨e, by simp [exec, completeSubscriptionOrder, hempty, transaction,
      completeSubscriptionOrderTx, he]⟩
  | expire env expected =>
    obtain ⟨e, he⟩ : ∃ e, findOrder env db tradeNo expected = .error e := hfind env
    exact ⟨e, by simp [exec, expireSubscriptionOrder, hempty, transaction,
      expireSubscriptionOrderTx, he]⟩

end OrderCall

end Calls

/-! ### Every sequence of calls -/

section Runs

variable {cal : Calendar} {tradeNo : String} {db db₀ : OrderDb M}

/-- There is a top-up with a number, and it is a success. -/
def Credited (db : OrderDb M) (tradeNo : String) : Prop :=
  ∃ topUp, db.topUps tradeNo = some topUp ∧ topUp.status = .success

/-- An order that is still to be completed, and is not mirrored by a top-up yet. -/
structure Unsettled (db : OrderDb M) (tradeNo : String) : Prop where
  status : db.status tradeNo ≠ some .success
  topUp : ¬ Credited db tradeNo

/-- A subscription that was not there before. -/
def NewSub (db₀ db : OrderDb M) (id : Int) : Prop :=
  db₀.subs id = none ∧ ∃ sub, db.subs id = some sub

/-- A top-up that was not credited before. -/
def NewTopUp (db₀ db : OrderDb M) (no : String) : Prop :=
  ¬ Credited db₀ no ∧ Credited db no

/-- Nothing but the order itself was written. -/
structure Untouched (db₀ db : OrderDb M) : Prop where
  subs : db.subs = db₀.subs
  topUps : db.topUps = db₀.topUps
  groups : db.groups = db₀.groups

/-- One subscription was written, for the user of the order, and one top-up, of its money. -/
structure Settled (db₀ db : OrderDb M) (tradeNo : String) : Prop where
  sub : ∃ id sub, db₀.subs id = none ∧ db.subs = Function.update db₀.subs id (some sub) ∧
    (db.orders tradeNo).map SubscriptionOrder.userId = some sub.userId
  topUp : ∃ topUp : TopUp M, db.topUps = Function.update db₀.topUps tradeNo (some topUp) ∧
    topUp.status = .success ∧
    (db.orders tradeNo).map SubscriptionOrder.money = some topUp.money

/-- **The order and its rows agree.** -/
def InStep (db₀ : OrderDb M) (tradeNo : String) (db : OrderDb M) : Prop :=
  (db.status tradeNo = some .success ∧ Settled db₀ db tradeNo) ∨
    (db.status tradeNo ≠ some .success ∧ Untouched db₀ db)

theorem InStep.start (h : Unsettled db tradeNo) : InStep db tradeNo db :=
  Or.inr ⟨h.status, rfl, rfl, rfl⟩

/-- **A call keeps them so**: it completes an order for which nothing was written. -/
theorem InStep.step (h : InStep db₀ tradeNo db) (c : OrderCall) :
    InStep db₀ tradeNo (c.step cal tradeNo db) := by
  rcases OrderCall.step_cases cal tradeNo db c with hsame | hdone | hdone
  · rw [hsame]
    exact h
  · rcases h with ⟨hsuccess, -⟩ | ⟨-, huntouched⟩
    · exact absurd (hsuccess.symm.trans hdone.pending) (by decide)
    have hsub := hdone.sub
    have htopUp := hdone.topUp
    rw [huntouched.subs] at hsub
    rw [huntouched.topUps] at htopUp
    exact Or.inl ⟨hdone.success, hsub, htopUp⟩
  · rcases h with ⟨hsuccess, -⟩ | ⟨-, huntouched⟩
    · exact absurd (hsuccess.symm.trans hdone.pending) (by decide)
    refine Or.inr ⟨?_, hdone.subs.trans huntouched.subs, hdone.topUps.trans huntouched.topUps,
      hdone.groups.trans huntouched.groups⟩
    rw [hdone.expired]
    decide

theorem Settled.existsUnique_newSub (h : Settled db₀ db tradeNo) : ∃! id, NewSub db₀ db id := by
  obtain ⟨id, sub, hnew, hsubs, -⟩ := h.sub
  refine ⟨id, ⟨hnew, sub, by rw [hsubs, Function.update_self]⟩, ?_⟩
  rintro i ⟨hnone, t, ht⟩
  rw [hsubs] at ht
  rcases update_eq_some ht with ⟨hi, -⟩ | ⟨-, hold⟩
  · exact hi
  · rw [hnone] at hold
    cases hold

theorem Settled.existsUnique_newTopUp (hstart : Unsettled db₀ tradeNo)
    (h : Settled db₀ db tradeNo) : ∃! no, NewTopUp db₀ db no := by
  obtain ⟨topUp, htopUps, hcredited, -⟩ := h.topUp
  refine ⟨tradeNo, ⟨hstart.topUp, topUp, by rw [htopUps, Function.update_self], hcredited⟩, ?_⟩
  rintro no ⟨hnone, t, ht, hsuccess⟩
  rw [htopUps] at ht
  rcases update_eq_some ht with ⟨hno, -⟩ | ⟨-, hold⟩
  · exact hno
  · exact absurd ⟨t, hold, hsuccess⟩ hnone

theorem Untouched.not_newSub (h : Untouched db₀ db) (id : Int) : ¬ NewSub db₀ db id := by
  rintro ⟨hnone, sub, hsub⟩
  rw [h.subs, hnone] at hsub
  cases hsub

/-- **Every run keeps them so**: the order and what it was paid for stay in step, whatever calls are
made and in whatever order. -/
theorem inStep_run (hstart : Unsettled db₀ tradeNo) (calls : List OrderCall) :
    InStep db₀ tradeNo (run (OrderCall.step cal tradeNo) db₀ calls) :=
  inv_run_always (fun _ c h => h.step c) (InStep.start hstart) calls

/-- **A run from an order that is not pending goes nowhere.** -/
theorem run_of_not_pending (h : db.status tradeNo ≠ some .pending) (calls : List OrderCall) :
    run (OrderCall.step cal tradeNo) db calls = db := by
  induction calls with
  | nil => rfl
  | cons c calls ih => rw [run_cons, OrderCall.step_of_not_pending h, ih]

/-- **An order is completed at most once, and as a whole.** After every sequence of completions
and expiries of an order there is exactly one new subscription and exactly one new top-up if it
is a success, and nothing was touched if it is not. Once it is not pending, no further sequence
changes anything; and neither does a call from another provider or one that returns an error. -/
theorem completed_once (hstart : Unsettled db₀ tradeNo) (calls : List OrderCall) :
    let db := run (OrderCall.step cal tradeNo) db₀ calls
    (db.status tradeNo = some .success ↔
      (∃! id, NewSub db₀ db id) ∧ (∃! no, NewTopUp db₀ db no) ∧ NewTopUp db₀ db tradeNo) ∧
    (db.status tradeNo = some .success → Settled db₀ db tradeNo) ∧
    (db.status tradeNo ≠ some .success → Untouched db₀ db) ∧
    (db.status tradeNo ≠ some .pending → ∀ calls',
      run (OrderCall.step cal tradeNo) db₀ (calls ++ calls') = db) ∧
    (∀ (c : OrderCall) (order : SubscriptionOrder M), db.orders tradeNo = some order →
      c.expected ≠ .unset → order.paymentProvider ≠ c.expected →
      ∃ e, c.exec cal tradeNo db = (some e, db)) ∧
    ∀ (c : OrderCall) (e : String), (c.exec cal tradeNo db).1 = some e →
      (c.exec cal tradeNo db).2 = db := by
  intro db
  have hinv : InStep db₀ tradeNo db := inStep_run hstart calls
  refine ⟨⟨fun hsuccess => ?_, fun hnew => ?_⟩, fun hsuccess => ?_,
    fun hopen => ?_, fun hleft calls' => ?_,
    fun c order horder hexpected hprovider => OrderCall.exec_of_mismatch horder hexpected hprovider,
    fun c e he => OrderCall.step_of_error he⟩
  · rcases hinv with ⟨-, hsettled⟩ | ⟨hopen, -⟩
    · have hunique := hsettled.existsUnique_newTopUp hstart
      obtain ⟨topUp, htopUps, hcredited, -⟩ := hsettled.topUp
      exact ⟨hsettled.existsUnique_newSub, hunique, hstart.topUp, topUp,
        by rw [htopUps, Function.update_self], hcredited⟩
    · exact absurd hsuccess hopen
  · rcases hinv with ⟨hsuccess, -⟩ | ⟨-, huntouched⟩
    · exact hsuccess
    · obtain ⟨id, hid, -⟩ := hnew.1
      exact absurd hid (huntouched.not_newSub id)
  · rcases hinv with ⟨-, hsettled⟩ | ⟨hopen, -⟩
    · exact hsettled
    · exact absurd hsuccess hopen
  · rcases hinv with ⟨hsuccess, -⟩ | ⟨-, huntouched⟩
    · exact absurd hsuccess hopen
    · exact huntouched
  · rw [run_append]
    exact run_of_not_pending hleft calls'

section Sample

/-- An order that waits for Stripe, on the plan of `sampleDb`. -/
def stripeOrder : SubscriptionOrder Int where
  userId := 7
  planId := 1
  money := 10
  paymentMethod := "stripe"
  paymentProvider := .stripe
  status := .pending
  createTime := 900
  completeTime := 0
  providerPayload := ""

def stripeDb : OrderDb Int :=
  { sampleDb with
    orders := Function.update (fun _ => none) "sub_ref_1" (some stripeOrder)
    topUps := fun _ => none }

/-- A call that finds the database at 1000 seconds and fails in the statements of `fails`. -/
def envFailing (fails : Statement → Bool) : OrderEnv := ⟨fails, none, 1000, 1000⟩

/-- A callback of Creem, one of Stripe whose top-up cannot be written, the same once more, and an
expiry that comes too late. -/
def deliveries : List OrderCall :=
  [.complete (envFailing fun _ => false) "{}" .creem "",
    .complete (envFailing fun s => s = .writeTopUp) "{}" .stripe "",
    .complete (envFailing fun _ => false) "{}" .stripe "",
    .expire (envFailing fun _ => false) .stripe]

theorem completed_once_deliveries :
    (run (OrderCall.step sampleCalendar "sub_ref_1") stripeDb deliveries).status "sub_ref_1" =
        some .success ∧
      ∃! id, NewSub stripeDb (run (OrderCall.step sampleCalendar "sub_ref_1") stripeDb deliveries)
        id := by
  have hsuccess : (run (OrderCall.step sampleCalendar "sub_ref_1") stripeDb deliveries).status
      "sub_ref_1" = some .success := by
    decide +kernel
  refine ⟨hsuccess, ((completed_once ⟨by decide, ?_⟩ deliveries).1.mp hsuccess).1⟩
  rintro ⟨topUp, htopUp, -⟩
  cases htopUp

end Sample

end Runs

end NewApiPool.Subscription
