import Mathlib.Algebra.Group.Nat.Defs
import Mathlib.Algebra.Group.Int.Defs
import Mathlib.Data.List.Sort
import Mathlib.Data.List.Nodup
import NewApiPool.Billing.Accounts

/-!
# The subscription store

The tables behind subscriptions – plans, user subscriptions, the idempotency
records of pre-consumes – and the functions of `model/subscription.go` that
charge them.

A function of the source that runs in a transaction is a function from a database
to an outcome: an error, which leaves the database as it was, or a new database.
The one exception is `RefundSubscriptionPreConsume`, which changes the balance
through a connection of its own before it marks the record in its transaction; it
takes the point at which the database fails and returns the database next to the
error.

`calcNextResetTime` moves on the calendar of the server's time zone, which is a
parameter. The catch-up loop of a reset need not end for every plan, so it takes
fuel, and a call that runs out of it does not return.
-/

namespace NewApiPool.Subscription

open GoText Billing

/-! ### The data -/

/-- `NormalizeResetPeriod`, as a type. -/
inductive ResetPeriod where
  | never
  | daily
  | weekly
  | monthly
  | custom
deriving DecidableEq, Repr

def normalizeResetPeriod (period : String) : ResetPeriod :=
  match trimSpace period with
  | "daily" => .daily
  | "weekly" => .weekly
  | "monthly" => .monthly
  | "custom" => .custom
  | _ => .never

/-- The fields of `SubscriptionPlan` that the functions of this development read. -/
structure SubscriptionPlan where
  id : Int
  durationUnit : String
  durationValue : Int
  customSeconds : Int
  maxPurchasePerUser : Int
  upgradeGroup : String
  totalAmount : Int
  quotaResetPeriod : String
  quotaResetCustomSeconds : Int
deriving DecidableEq, Repr

/-- `UserSubscription.Status`. -/
inductive SubStatus where
  | active
  | expired
  | cancelled
deriving DecidableEq, Repr

/-- A row of `user_subscriptions`, less its id. -/
structure UserSubscription where
  userId : Int
  planId : Int
  amountTotal : Int
  amountUsed : Int
  startTime : Int
  endTime : Int
  status : SubStatus
  lastResetTime : Int
  nextResetTime : Int
  upgradeGroup : String
  prevUserGroup : String
deriving DecidableEq, Repr

/-- The tables: the user subscriptions, with the ids that were ever given to one, the
plans, the records of pre-consumes, and the group column of the users. -/
structure Db where
  ids : List Int
  nodup : ids.Nodup
  subs : Int → Option UserSubscription
  subs_ids : ∀ i s, subs i = some s → i ∈ ids
  plans : Int → Option SubscriptionPlan
  record : String → Option PreConsumeRecord
  groups : Int → Option String

/-- Why a call has no effect: it returns an error, or it does not return. -/
inductive Failure where
  | error (msg : String)
  | diverges
deriving DecidableEq, Repr

namespace Db

variable (db : Db)

/-- The database with a subscription saved. -/
def setSub (id : Int) (sub : UserSubscription) : Db :=
  { db with
    ids := db.ids.insert id
    nodup := db.nodup.insert
    subs := Function.update db.subs id (some sub)
    subs_ids := by
      intro i s hs
      by_cases hi : i = id
      · exact hi ▸ List.mem_insert_self
      · rw [Function.update_of_ne hi] at hs
        exact List.mem_insert_of_mem (db.subs_ids i s hs) }

/-- The database with the record of a request replaced. -/
def setRecord (requestId : String) (r : PreConsumeRecord) : Db :=
  { db with record := Function.update db.record requestId (some r) }

@[simp] theorem setSub_self (id : Int) (sub : UserSubscription) :
    (db.setSub id sub).subs id = some sub := by
  simp [setSub]

theorem setSub_ne {id i : Int} (sub : UserSubscription) (h : i ≠ id) :
    (db.setSub id sub).subs i = db.subs i := by
  simp [setSub, h]

@[simp] theorem setSub_record (id : Int) (sub : UserSubscription) :
    (db.setSub id sub).record = db.record := rfl

@[simp] theorem setRecord_subs (requestId : String) (r : PreConsumeRecord) :
    (db.setRecord requestId r).subs = db.subs := rfl

@[simp] theorem setRecord_self (requestId : String) (r : PreConsumeRecord) :
    (db.setRecord requestId r).record requestId = some r := by
  simp [setRecord]

theorem setRecord_ne {requestId q : String} (r : PreConsumeRecord) (h : q ≠ requestId) :
    (db.setRecord requestId r).record q = db.record q := by
  simp [setRecord, h]

/-- The used amount of a subscription, 0 if there is none of that id. -/
def used (id : Int) : Int := ((db.subs id).map UserSubscription.amountUsed).getD 0

/-- The rows of `user_subscriptions` with their ids. -/
def rows : List (Int × UserSubscription) := db.ids.filterMap fun i => (db.subs i).map (i, ·)

theorem mem_rows {i : Int} {s : UserSubscription} (h : (i, s) ∈ db.rows) : db.subs i = some s := by
  obtain ⟨j, -, hj⟩ := List.mem_filterMap.mp h
  obtain ⟨t, ht, heq⟩ := Option.map_eq_some_iff.mp hj
  cases heq
  exact ht

theorem mem_rows_iff {i : Int} {s : UserSubscription} :
    (i, s) ∈ db.rows ↔ db.subs i = some s := by
  refine ⟨db.mem_rows, fun hs => ?_⟩
  exact List.mem_filterMap.mpr ⟨i, db.subs_ids i s hs, by rw [hs]; rfl⟩

theorem rows_nodup : (db.rows.map Prod.fst).Nodup := by
  have hsub : ∀ l : List Int, ((l.filterMap fun i => (db.subs i).map (i, ·)).map Prod.fst).Sublist
      l := by
    intro l
    induction l with
    | nil => exact List.Sublist.refl _
    | cons i l ih =>
      rcases hi : db.subs i with _ | s
      · simpa [hi] using ih.cons i
      · simpa [hi] using ih.cons_cons i
  exact db.nodup.sublist (hsub db.ids)

/-- The order `end_time asc, id asc`. -/
def endsBefore (a b : Int × UserSubscription) : Prop :=
  a.2.endTime < b.2.endTime ∨ (a.2.endTime = b.2.endTime ∧ a.1 ≤ b.1)

instance decidableEndsBefore : DecidableRel endsBefore := fun _ _ =>
  inferInstanceAs (Decidable (_ ∨ _))

/-- The active subscriptions of a user, the first to end first. -/
def activeSubs (userId now : Int) : List (Int × UserSubscription) :=
  (db.rows.filter fun r => decide (r.2.userId = userId ∧ r.2.status = .active ∧
    now < r.2.endTime)).insertionSort endsBefore

theorem mem_activeSubs {userId now i : Int} {s : UserSubscription}
    (h : (i, s) ∈ db.activeSubs userId now) : db.subs i = some s :=
  db.mem_rows (List.mem_filter.mp ((List.mem_insertionSort _).mp h)).1

theorem activeSubs_nodup (userId now : Int) : ((db.activeSubs userId now).map Prod.fst).Nodup := by
  unfold activeSubs
  refine ((List.perm_insertionSort _ _).map Prod.fst).nodup_iff.mpr ?_
  exact db.rows_nodup.sublist (List.filter_sublist.map Prod.fst)

end Db

/-! ### Resets -/

/-- The calendar of the server's time zone: the instants at which the next day, the
next week (on Monday) and the next month begin, and an instant so many years and months
later (`AddDate`). -/
structure Calendar where
  nextDay : Int → Int
  nextWeek : Int → Int
  nextMonth : Int → Int
  addDate : Int → Int → Int → Int

/-- `Time.Add`, in seconds. A `time.Duration` counts nanoseconds in 64 bits. The seconds themselves
are those of a clock, whose sum with a duration is far from where it would wrap. -/
def addDuration (base nanoseconds : Int) : Int :=
  base + Int.bmod nanoseconds (2 ^ 64) / 10 ^ 9

def calcNextResetTime (cal : Calendar) (base : Int) (plan : SubscriptionPlan) (endUnix : Int) :
    Int :=
  let within (next : Int) : Int := if endUnix > 0 ∧ next > endUnix then 0 else next
  match normalizeResetPeriod plan.quotaResetPeriod with
  | .never => 0
  | .daily => within (cal.nextDay base)
  | .weekly => within (cal.nextWeek base)
  | .monthly => within (cal.nextMonth base)
  | .custom =>
    if plan.quotaResetCustomSeconds ≤ 0 then 0
    else within (addDuration base (plan.quotaResetCustomSeconds * 10 ^ 9))

/-- The catch-up loop: the last reset time that has passed, the next one, and
whether the loop has gone round at all. -/
def catchUp (cal : Calendar) (plan : SubscriptionPlan) (endTime now : Int) (fuel : Nat)
    (base next : Int) (advanced : Bool) : Option (Int × Int × Bool) :=
  if 0 < next ∧ next ≤ now then
    match fuel with
    | 0 => none
    | n + 1 =>
      catchUp cal plan endTime now n next (calcNextResetTime cal next plan endTime) true
  else some (base, next, advanced)

/-- `maybeResetUserSubscriptionWithPlanTx`: the subscription as it is left, and
whether its used amount was reset. `none` if the loop does not end. -/
def maybeResetUserSubscriptionWithPlanTx (cal : Calendar) (fuel : Nat) (sub : UserSubscription)
    (plan : SubscriptionPlan) (now : Int) : Option (UserSubscription × Bool) :=
  if sub.nextResetTime > 0 ∧ sub.nextResetTime > now then some (sub, false)
  else if normalizeResetPeriod plan.quotaResetPeriod = .never then some (sub, false)
  else
    let base := if sub.lastResetTime ≤ 0 then sub.startTime else sub.lastResetTime
    match catchUp cal plan sub.endTime now fuel base
        (calcNextResetTime cal base plan sub.endTime) false with
    | none => none
    | some (base, next, false) =>
      if sub.nextResetTime = 0 ∧ next > 0 then
        some ({ sub with nextResetTime := next, lastResetTime := base }, false)
      else some (sub, false)
    | some (base, next, true) =>
      some ({ sub with amountUsed := 0, lastResetTime := base, nextResetTime := next }, true)

/-! ### Charging -/

/-- `SubscriptionPreConsumeResult`. -/
structure PreConsumeResult where
  userSubscriptionId : Int
  preConsumed : Int
  amountTotal : Int
  amountUsedBefore : Int
  amountUsedAfter : Int
deriving DecidableEq, Repr

def getSubscriptionPlanByIdTx (db : Db) (id : Int) : Except Failure SubscriptionPlan :=
  if id ≤ 0 then .error (.error "invalid plan id")
  else match db.plans id with
    | none => .error (.error "record not found")
    | some plan => .ok plan

/-- The loop of `PreConsumeUserSubscription` over the active subscriptions: what it
returns, the database it leaves, and the subscriptions it has reset. A record that
appears between the check and the insert is not possible here, where a call is one
step. -/
def preConsumeFrom (cal : Calendar) (fuel : Nat) (requestId : String) (amount now : Int) :
    List (Int × UserSubscription) → Db → List Int →
    Except Failure (PreConsumeResult × Db × List Int)
  | [], _, _ => .error (.error ("subscription quota insufficient, need=" ++ toString amount))
  | (id, sub) :: rest, db, resets =>
    match getSubscriptionPlanByIdTx db sub.planId with
    | .error e => .error e
    | .ok plan =>
      match maybeResetUserSubscriptionWithPlanTx cal fuel sub plan now with
      | none => .error .diverges
      | some (sub', reset) =>
        let resets' := if reset then id :: resets else resets
        if sub'.amountTotal > 0 ∧ sub'.amountTotal - sub'.amountUsed < amount then
          preConsumeFrom cal fuel requestId amount now rest (db.setSub id sub') resets'
        else
          let charged := { sub' with amountUsed := sub'.amountUsed + amount }
          .ok (⟨id, amount, charged.amountTotal, sub'.amountUsed, charged.amountUsed⟩,
            (db.setSub id charged).setRecord requestId ⟨id, amount, false⟩, resets')

/-- `PreConsumeUserSubscription`. `fault` is an error of one of its statements or of
its commit, if there is one. -/
def preConsumeUserSubscription (cal : Calendar) (fuel : Nat) (fault : Fault) (db : Db)
    (requestId : String) (userId amount now : Int) :
    Except Failure (PreConsumeResult × Db × List Int) :=
  if userId ≤ 0 then .error (.error "invalid userId")
  else if trimSpace requestId = "" then .error (.error "requestId is empty")
  else if amount ≤ 0 then .error (.error "amount must be > 0")
  else match fault with
    | some e => .error (.error e)
    | none =>
      match db.record requestId with
      | some existing =>
        if existing.refunded then .error (.error "subscription pre-consume already refunded")
        else match db.subs existing.userSubscriptionId with
          | none => .error (.error "record not found")
          | some sub =>
            .ok (⟨existing.userSubscriptionId, existing.preConsumed, sub.amountTotal,
              sub.amountUsed, sub.amountUsed⟩, db, [])
      | none =>
        if db.activeSubs userId now = [] then .error (.error "no active subscription")
        else preConsumeFrom cal fuel requestId amount now (db.activeSubs userId now) db []

def postConsumeUserSubscriptionDelta (db : Db) (userSubscriptionId delta : Int) :
    Except String Db :=
  if userSubscriptionId ≤ 0 then .error "invalid userSubscriptionId"
  else if delta = 0 then .ok db
  else match db.subs userSubscriptionId with
    | none => .error "record not found"
    | some sub =>
      let newUsed := max 0 (sub.amountUsed + delta)
      if sub.amountTotal > 0 ∧ newUsed > sub.amountTotal then
        .error ("subscription used exceeds total, used=" ++ toString newUsed ++ " total=" ++
          toString sub.amountTotal)
      else .ok (db.setSub userSubscriptionId { sub with amountUsed := newUsed })

/-- Where the database fails during a refund. -/
inductive RefundFault where
  | none
  /-- Before or in the query of the record. -/
  | query (e : String)
  /-- In the transaction of `PostConsumeUserSubscriptionDelta`, its commit included. -/
  | delta (e : String)
  /-- In the save of the record or in the commit of the refund's own transaction. -/
  | mark (e : String)
deriving DecidableEq, Repr

/-- `RefundSubscriptionPreConsume`: the error it returns, if any, and the database it
leaves. The balance is changed by a transaction of its own, so a failure to mark the
record does not take it back. -/
def refundSubscriptionPreConsume (fault : RefundFault) (db : Db) (requestId : String) :
    Option String × Db :=
  if trimSpace requestId = "" then (some "requestId is empty", db)
  else match fault with
    | .query e => (some e, db)
    | fault =>
      match db.record requestId with
      | none => (some "record not found", db)
      | some record =>
        -- the save of the record and the commit
        let mark (db : Db) : Option String × Db :=
          match fault with
          | .mark e => (some e, db)
          | _ => (none, db.setRecord requestId { record with refunded := true })
        if record.refunded then
          match fault with
          | .mark e => (some e, db)
          | _ => (none, db)
        else if record.preConsumed ≤ 0 then mark db
        else match fault with
          | .delta e => (some e, db)
          | _ =>
            match postConsumeUserSubscriptionDelta db record.userSubscriptionId
                (-record.preConsumed) with
            | .error e => (some e, db)
            | .ok db' => mark db'

/-- `refundWithRetry` around `RefundSubscriptionPreConsume`: `maxAttempts` is three,
and the list gives what hits each attempt. -/
def refundWithRetry (db : Db) (requestId : String) : List RefundFault → Option String × Db
  | [] => (none, db)
  | [f] => refundSubscriptionPreConsume f db requestId
  | f :: fs =>
    match refundSubscriptionPreConsume f db requestId with
    | (none, db') => (none, db')
    | (some _, db') => refundWithRetry db' requestId fs

/-- The body of the loop of `ResetDueSubscriptions`: the transaction for one
subscription that its query found due. -/
def resetDueSubscription (cal : Calendar) (fuel : Nat) (db : Db) (id now : Int) :
    Except Failure (Db × List Int) :=
  match db.subs id with
  | none => .ok (db, [])
  | some sub =>
    match getSubscriptionPlanByIdTx db sub.planId with
    | .error _ => .ok (db, [])
    | .ok plan =>
      if sub.nextResetTime > 0 ∧ sub.nextResetTime ≤ now then
        match maybeResetUserSubscriptionWithPlanTx cal fuel sub plan now with
        | none => .error .diverges
        | some (sub', reset) => .ok (db.setSub id sub', if reset then [id] else [])
      else .ok (db, [])

end NewApiPool.Subscription
