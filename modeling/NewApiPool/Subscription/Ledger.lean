import NewApiPool.Lib.Runs
import NewApiPool.Lib.Tally
import NewApiPool.Subscription.Store

/-!
# What a subscription has been used for

The used amount of a subscription is a running total: a pre-consume adds to it, a
settlement moves it by a difference, a refund takes a pre-consume back. Nothing in
the database says what it is the total of; that is the charge each request has
outstanding, and it is kept here next to the database
(`NewApiPool.Subscription.Ledger`).

Over any sequence of calls, each one step and with no quota reset among them, the
used amount is the sum of the outstanding charges, as long as no request gives back
more than it has outstanding. For a settlement that is the condition under which a
billing session issues it. A refund gives back what the pre-consume recorded, so it
must come before a settlement has lowered the charge – which is what the flags of a
billing session see to.
-/

namespace NewApiPool.Subscription

open EventSystem Tally Billing

/-! ### What the functions of the store do -/

section Spec

variable {cal : Calendar} {fuel : Nat} {db db' : Db} {requestId : String} {amount now : Int}

/-- A reset sets the used amount to 0 or leaves it, and does not touch the total. -/
theorem maybeReset_amounts {sub sub' : UserSubscription} {plan : SubscriptionPlan} {reset : Bool}
    (h : maybeResetUserSubscriptionWithPlanTx cal fuel sub plan now = some (sub', reset)) :
    sub'.amountTotal = sub.amountTotal ∧
      sub'.amountUsed = if reset then 0 else sub.amountUsed := by
  unfold maybeResetUserSubscriptionWithPlanTx at h
  split at h
  · cases h
    exact ⟨rfl, rfl⟩
  split at h
  · cases h
    exact ⟨rfl, rfl⟩
  dsimp only at h
  split at h
  · cases h
  · split at h <;> cases h <;> exact ⟨rfl, rfl⟩
  · cases h
    exact ⟨rfl, rfl⟩

/-- `db` is `db₀` after the subscriptions in `resets` were reset: the others have the
amounts they had. -/
def AfterResets (resets : List Int) (db₀ db : Db) : Prop :=
  ∀ i, match db₀.subs i with
    | none => db.subs i = none
    | some s => ∃ s', db.subs i = some s' ∧ s'.amountTotal = s.amountTotal ∧
        s'.amountUsed = if i ∈ resets then 0 else s.amountUsed

theorem AfterResets.refl (db : Db) : AfterResets [] db db := by
  intro i
  rcases h : db.subs i with _ | s
  · rfl
  · exact ⟨s, rfl, rfl, by simp⟩

variable {resets : List Int}

theorem AfterResets.origin {db₀ : Db} {i : Int} {s' : UserSubscription}
    (h : AfterResets resets db₀ db) (hs : db.subs i = some s') :
    ∃ s, db₀.subs i = some s ∧ s'.amountTotal = s.amountTotal ∧
      s'.amountUsed = if i ∈ resets then 0 else s.amountUsed := by
  have hi := h i
  rcases h₀ : db₀.subs i with _ | s
  · rw [h₀] at hi
    rw [hs] at hi
    cases hi
  · rw [h₀] at hi
    obtain ⟨t, ht, htotal, hused⟩ := hi
    rw [hs] at ht
    cases ht
    exact ⟨s, rfl, htotal, hused⟩

/-- One more subscription is visited, and reset or not. -/
theorem AfterResets.visit {db₀ : Db} {id : Int} {s s' : UserSubscription}
    {reset : Bool} (h : AfterResets resets db₀ db) (hid : id ∉ resets) (hs : db₀.subs id = some s)
    (htotal : s'.amountTotal = s.amountTotal)
    (hused : s'.amountUsed = if reset then 0 else s.amountUsed) :
    AfterResets (if reset then id :: resets else resets) db₀ (db.setSub id s') := by
  intro i
  by_cases hi : i = id
  · subst hi
    rw [hs]
    refine ⟨s', Db.setSub_self _ _ _, htotal, ?_⟩
    cases reset with
    | true => simpa using hused
    | false => simpa [hid] using hused
  · have hmem : i ∈ (if reset then id :: resets else resets) ↔ i ∈ resets := by
      cases reset <;> simp [hi]
    have hold := h i
    rcases h₀ : db₀.subs i with _ | t
    · rw [h₀] at hold
      exact (Db.setSub_ne _ _ hi).trans hold
    · rw [h₀] at hold
      obtain ⟨t', ht', htot, hu⟩ := hold
      refine ⟨t', (Db.setSub_ne _ _ hi).trans ht', htot, ?_⟩
      rw [hu]
      simp only [hmem]

/-- What a pre-consume of a new request has done: the subscriptions on the way were
reset if it was time, and one that has the quota was charged and recorded. -/
def NewCharge (requestId : String) (amount : Int) (resets : List Int) (db db' : Db) (id : Int) :
    Prop :=
  ∃ db₁ s, AfterResets resets db db₁ ∧ db₁.record = db.record ∧ db₁.subs id = some s ∧
    (0 < s.amountTotal → s.amountUsed + amount ≤ s.amountTotal) ∧
    db' = (db₁.setSub id { s with amountUsed := s.amountUsed + amount }).setRecord requestId
      ⟨id, amount, false⟩

/-- The loop of the pre-consume, from a database in which the subscriptions on the
list are still as they were. -/
theorem preConsumeFrom_ok {db₀ : Db} {l : List (Int × UserSubscription)}
    {out : PreConsumeResult × Db × List Int} (hrel : AfterResets resets db₀ db)
    (hrec : db.record = db₀.record) (hnodup : (l.map Prod.fst).Nodup)
    (hl : ∀ i s, (i, s) ∈ l → i ∉ resets ∧ db₀.subs i = some s)
    (h : preConsumeFrom cal fuel requestId amount now l db resets = .ok out) :
    NewCharge requestId amount out.2.2 db₀ out.2.1 out.1.userSubscriptionId ∧
      out.1.amountUsedAfter = out.1.amountUsedBefore + amount := by
  induction l generalizing db resets with
  | nil => cases h
  | cons c l ih =>
    obtain ⟨id, sub⟩ := c
    unfold preConsumeFrom at h
    split at h
    · cases h
    split at h
    · cases h
    rename_i sub' reset hreset
    obtain ⟨htotal, hused⟩ := maybeReset_amounts hreset
    obtain ⟨hid, hsub⟩ := hl id sub List.mem_cons_self
    have hrel' := hrel.visit hid hsub htotal hused
    rw [List.map_cons, List.nodup_cons] at hnodup
    dsimp only at h
    split at h
    · refine ih hrel' hrec hnodup.2 (fun i s hi => ?_) h
      obtain ⟨hi', hs⟩ := hl i s (List.mem_cons_of_mem _ hi)
      have hne : i ≠ id := fun hcon => hnodup.1 (List.mem_map.mpr ⟨(i, s), hi, hcon⟩)
      refine ⟨?_, hs⟩
      cases reset <;> simp [hi', hne]
    · rename_i hroom
      cases h
      refine ⟨⟨db.setSub id sub', sub', hrel', hrec, Db.setSub_self _ _ _, fun hpos => ?_, ?_⟩,
        rfl⟩
      · by_contra hcon
        exact hroom ⟨hpos, by omega⟩
      · simp [Db.setSub]

/-- **What a pre-consume does**: it answers from the record, or it charges a
subscription. -/
theorem preConsume_ok {fault : Fault} {userId : Int} {res : PreConsumeResult}
    (h : preConsumeUserSubscription cal fuel fault db requestId userId amount now =
      .ok (res, db', resets)) :
    0 < amount ∧ fault = none ∧
      ((∃ r, db.record requestId = some r ∧ r.refunded = false ∧ db' = db ∧ resets = [] ∧
          res.amountUsedAfter = res.amountUsedBefore) ∨
        (db.record requestId = none ∧
          NewCharge requestId amount resets db db' res.userSubscriptionId ∧
          res.amountUsedAfter = res.amountUsedBefore + amount)) := by
  unfold preConsumeUserSubscription at h
  split at h
  · cases h
  split at h
  · cases h
  split at h
  · cases h
  rename_i hamount
  refine ⟨not_le.mp hamount, ?_⟩
  rcases fault with _ | e
  swap
  · cases h
  refine ⟨rfl, ?_⟩
  rcases hr : db.record requestId with _ | r
  · rw [hr] at h
    dsimp only at h
    split at h
    · cases h
    refine Or.inr ⟨rfl, ?_⟩
    exact preConsumeFrom_ok (AfterResets.refl db) rfl (db.activeSubs_nodup userId now)
      (fun i s hi => ⟨List.not_mem_nil, db.mem_activeSubs hi⟩) h
  · rw [hr] at h
    dsimp only at h
    split at h
    · cases h
    rename_i hrefunded
    split at h
    · cases h
    cases h
    exact Or.inl ⟨r, rfl, by simpa using hrefunded, rfl, rfl, rfl⟩

/-- **What a delta does**: nothing, or the used amount moves, with a clamp at 0. -/
theorem postConsume_ok {id delta : Int}
    (h : postConsumeUserSubscriptionDelta db id delta = .ok db') :
    (delta = 0 ∧ db' = db) ∨
      ∃ s, db.subs id = some s ∧
        (0 < s.amountTotal → max 0 (s.amountUsed + delta) ≤ s.amountTotal) ∧
        db' = db.setSub id { s with amountUsed := max 0 (s.amountUsed + delta) } := by
  unfold postConsumeUserSubscriptionDelta at h
  split at h
  · cases h
  split at h
  · rename_i hd
    cases h
    exact Or.inl ⟨hd, rfl⟩
  rcases hs : db.subs id with _ | s
  · rw [hs] at h
    cases h
  rw [hs] at h
  dsimp only at h
  split at h
  · cases h
  rename_i hroom
  cases h
  refine Or.inr ⟨s, rfl, fun hpos => ?_, rfl⟩
  by_contra hcon
  exact hroom ⟨hpos, not_le.mp hcon⟩

/-- **What a refund does**: nothing, because it returns an error or the record was
refunded already; it marks a record that has nothing to give back; or it gives the
amount of the record back, and marks the record unless the database fails there. -/
theorem refund_cases (fault : RefundFault) (db : Db) (requestId : String) :
    ((refundSubscriptionPreConsume fault db requestId).2 = db ∧
      ((refundSubscriptionPreConsume fault db requestId).1 ≠ none ∨
        ∃ r, db.record requestId = some r ∧ r.refunded = true)) ∨
    ∃ r, GoText.trimSpace requestId ≠ "" ∧ db.record requestId = some r ∧ r.refunded = false ∧
      ((r.preConsumed ≤ 0 ∧ refundSubscriptionPreConsume fault db requestId =
          (none, db.setRecord requestId { r with refunded := true })) ∨
       (0 < r.preConsumed ∧ ∃ db',
        postConsumeUserSubscriptionDelta db r.userSubscriptionId (-r.preConsumed) = .ok db' ∧
        ((∃ e, fault = .mark e ∧
            refundSubscriptionPreConsume fault db requestId = (some e, db')) ∨
          (fault = .none ∧ refundSubscriptionPreConsume fault db requestId =
            (none, db'.setRecord requestId { r with refunded := true }))))) := by
  unfold refundSubscriptionPreConsume
  split
  · exact Or.inl ⟨rfl, Or.inl nofun⟩
  rename_i hid
  cases fault with
  | query e => exact Or.inl ⟨rfl, Or.inl nofun⟩
  | delta e =>
    dsimp only
    rcases hr : db.record requestId with _ | r
    · exact Or.inl ⟨rfl, Or.inl nofun⟩
    dsimp only
    split
    · rename_i href
      exact Or.inl ⟨rfl, Or.inr ⟨r, rfl, href⟩⟩
    rename_i href
    split
    · rename_i hp
      exact Or.inr ⟨r, hid, rfl, by simpa using href, Or.inl ⟨hp, rfl⟩⟩
    · exact Or.inl ⟨rfl, Or.inl nofun⟩
  | none =>
    dsimp only
    rcases hr : db.record requestId with _ | r
    · exact Or.inl ⟨rfl, Or.inl nofun⟩
    dsimp only
    split
    · rename_i href
      exact Or.inl ⟨rfl, Or.inr ⟨r, rfl, href⟩⟩
    rename_i href
    have href' : r.refunded = false := by simpa using href
    split
    · rename_i hp
      exact Or.inr ⟨r, hid, rfl, href', Or.inl ⟨hp, rfl⟩⟩
    rename_i hp
    rcases hd : postConsumeUserSubscriptionDelta db r.userSubscriptionId (-r.preConsumed) with e | d
    · exact Or.inl ⟨rfl, Or.inl nofun⟩
    · exact Or.inr ⟨r, hid, rfl, href', Or.inr ⟨not_le.mp hp, d, hd, Or.inr ⟨rfl, rfl⟩⟩⟩
  | mark e =>
    dsimp only
    rcases hr : db.record requestId with _ | r
    · exact Or.inl ⟨rfl, Or.inl nofun⟩
    dsimp only
    split
    · exact Or.inl ⟨rfl, Or.inl nofun⟩
    rename_i href
    have href' : r.refunded = false := by simpa using href
    split
    · exact Or.inl ⟨rfl, Or.inl nofun⟩
    rename_i hp
    rcases hd : postConsumeUserSubscriptionDelta db r.userSubscriptionId (-r.preConsumed) with
      e' | d
    · exact Or.inl ⟨rfl, Or.inl nofun⟩
    · exact Or.inr ⟨r, hid, rfl, href', Or.inr ⟨not_le.mp hp, d, hd, Or.inl ⟨e, rfl, rfl⟩⟩⟩

/-- **What a refund does when the database does not fail.** -/
theorem refund_none (db : Db) (requestId : String) :
    ((refundSubscriptionPreConsume .none db requestId).1 ≠ none ∧
      (refundSubscriptionPreConsume .none db requestId).2 = db) ∨
    ∃ r, db.record requestId = some r ∧
      (refundSubscriptionPreConsume .none db requestId).1 = none ∧
      ((r.refunded = true ∧ (refundSubscriptionPreConsume .none db requestId).2 = db) ∨
       (r.refunded = false ∧ r.preConsumed ≤ 0 ∧
        (refundSubscriptionPreConsume .none db requestId).2 =
          db.setRecord requestId { r with refunded := true }) ∨
       (r.refunded = false ∧ 0 < r.preConsumed ∧ ∃ db',
        postConsumeUserSubscriptionDelta db r.userSubscriptionId (-r.preConsumed) = .ok db' ∧
        (refundSubscriptionPreConsume .none db requestId).2 =
          db'.setRecord requestId { r with refunded := true })) := by
  rcases refund_cases .none db requestId with ⟨hdb, herr⟩ | ⟨r, -, hr, href, hcases⟩
  · by_cases hok : (refundSubscriptionPreConsume .none db requestId).1 = none
    · obtain ⟨r, hr, href⟩ := herr.resolve_left (not_not.mpr hok)
      exact Or.inr ⟨r, hr, hok, Or.inl ⟨href, hdb⟩⟩
    · exact Or.inl ⟨hok, hdb⟩
  · rcases hcases with ⟨hp, heq⟩ | ⟨hp, db', hd, ⟨e, hcon, -⟩ | ⟨-, heq⟩⟩
    · rw [heq]
      exact Or.inr ⟨r, hr, rfl, Or.inr (Or.inl ⟨href, hp, rfl⟩)⟩
    · cases hcon
    · rw [heq]
      exact Or.inr ⟨r, hr, rfl, Or.inr (Or.inr ⟨href, hp, db', hd, rfl⟩)⟩

/-- **What the reset task does to one subscription.** -/
theorem resetDue_ok {id : Int} (h : resetDueSubscription cal fuel db id now = .ok (db', resets)) :
    AfterResets resets db db' ∧ db'.record = db.record := by
  unfold resetDueSubscription at h
  rcases hs : db.subs id with _ | sub
  · rw [hs] at h
    cases h
    exact ⟨AfterResets.refl db, rfl⟩
  rw [hs] at h
  dsimp only at h
  split at h
  · cases h
    exact ⟨AfterResets.refl db, rfl⟩
  split at h
  · split at h
    · cases h
    rename_i sub' reset hreset
    cases h
    obtain ⟨htotal, hused⟩ := maybeReset_amounts hreset
    exact ⟨(AfterResets.refl db).visit List.not_mem_nil hs htotal hused, rfl⟩
  · cases h
    exact ⟨AfterResets.refl db, rfl⟩

end Spec

/-! ### The ledger -/

/-- The database, and what the requests have outstanding: the requests that were
pre-consumed, the net charge of each, whether it was pre-consumed after the last
reset of its subscription, and for each subscription the net amount that requests
from before its last reset have moved since. -/
structure Ledger where
  db : Db
  requests : List String
  charge : String → Int
  fresh : String → Bool
  oldNet : Int → Int

/-- The calls, each one step. A delta is issued by the session of a request. -/
inductive Event where
  | preConsume (requestId : String) (userId amount now : Int) (fuel : Nat)
  | refund (requestId : String)
  | delta (requestId : String) (delta : Int)
  | resetDue (id now : Int) (fuel : Nat)
deriving DecidableEq

namespace Ledger

/-- A ledger nothing was charged to. -/
def start (db : Db) : Ledger := ⟨db, [], fun _ => 0, fun _ => false, fun _ => 0⟩

/-- The subscription a request is charged to. -/
def chargedTo (x : Ledger) (r : String) : Option Int :=
  (x.db.record r).map PreConsumeRecord.userSubscriptionId

/-- The sum of what the requests of a kind, charged to a subscription, have
outstanding. -/
def outstandingOf (x : Ledger) (p : String → Bool) (id : Int) : Int :=
  tally x.requests fun r => if x.chargedTo r = some id ∧ p r = true then x.charge r else 0

/-- The sum of what the requests charged to a subscription have outstanding. -/
def outstanding (x : Ledger) (id : Int) : Int := x.outstandingOf (fun _ => true) id

/-- The same for the requests pre-consumed after its last reset. -/
def freshOutstanding (x : Ledger) (id : Int) : Int := x.outstandingOf x.fresh id

/-- The ledger after subscriptions were reset. -/
def reset (x : Ledger) (db : Db) (resets : List Int) : Ledger :=
  { x with
    db := db
    fresh := fun r => x.fresh r && !(resets.any fun i => decide (x.chargedTo r = some i))
    oldNet := fun i => if i ∈ resets then 0 else x.oldNet i }

/-- The ledger after a new request was charged. -/
def enter (x : Ledger) (db : Db) (r : String) (amount : Int) : Ledger :=
  { x with
    db := db
    requests := r :: x.requests
    charge := Function.update x.charge r amount
    fresh := Function.update x.fresh r true }

/-- The ledger after a request has moved its charge by `d`. What counts as moved in
`oldNet` is what the used amount was moved by, which the clamp at 0 can make less. -/
def move (x : Ledger) (db : Db) (r : String) (id d : Int) : Ledger :=
  { x with
    db := db
    charge := Function.update x.charge r (x.charge r + d)
    oldNet := if x.fresh r then x.oldNet
      else Function.update x.oldNet id (x.oldNet id + (db.used id - x.db.used id)) }

/-- What a call returns and the database it leaves. -/
def call (cal : Calendar) (db : Db) : Event → Option Failure × Db
  | .preConsume r userId amount now fuel =>
    match preConsumeUserSubscription cal fuel none db r userId amount now with
    | .error e => (some e, db)
    | .ok (_, db', _) => (none, db')
  | .refund r =>
    ((refundSubscriptionPreConsume .none db r).1.map Failure.error,
      (refundSubscriptionPreConsume .none db r).2)
  | .delta r d =>
    match db.record r with
    | none => (none, db)
    | some rec =>
      match postConsumeUserSubscriptionDelta db rec.userSubscriptionId d with
      | .error e => (some (.error e), db)
      | .ok db' => (none, db')
  | .resetDue id now fuel =>
    match resetDueSubscription cal fuel db id now with
    | .error e => (some e, db)
    | .ok (db', _) => (none, db')

/-- One call, with what it does to the outstanding charges. -/
def step (cal : Calendar) (x : Ledger) : Event → Ledger
  | .preConsume r userId amount now fuel =>
    match preConsumeUserSubscription cal fuel none x.db r userId amount now with
    | .error _ => x
    | .ok (_, db', resets) =>
      if x.db.record r = none then (x.reset db' resets).enter db' r amount
      else { x with db := db' }
  | .refund r =>
    match refundSubscriptionPreConsume .none x.db r with
    | (some _, _) => x
    | (none, db') =>
      match x.db.record r with
      | some rec =>
        if rec.refunded = false ∧ 0 < rec.preConsumed then
          x.move db' r rec.userSubscriptionId (-rec.preConsumed)
        else { x with db := db' }
      | none => { x with db := db' }
  | .delta r d =>
    match x.db.record r with
    | none => x
    | some rec =>
      match postConsumeUserSubscriptionDelta x.db rec.userSubscriptionId d with
      | .error _ => x
      | .ok db' => x.move db' r rec.userSubscriptionId d
  | .resetDue id now fuel =>
    match resetDueSubscription cal fuel x.db id now with
    | .error _ => x
    | .ok (db', resets) => x.reset db' resets

end Ledger

section Step

variable {cal : Calendar} {x y : Ledger} {e : Event}

/-- The database of the ledger is the one the call leaves. -/
theorem step_db (cal : Calendar) (x : Ledger) (e : Event) :
    (x.step cal e).db = (Ledger.call cal x.db e).2 := by
  cases e with
  | preConsume r userId amount now fuel =>
    simp only [Ledger.step, Ledger.call]
    rcases preConsumeUserSubscription cal fuel none x.db r userId amount now with
      e | ⟨res, db', resets⟩
    · rfl
    · dsimp only
      split <;> rfl
  | refund r =>
    have hcases := refund_none x.db r
    simp only [Ledger.step, Ledger.call]
    rcases hr : refundSubscriptionPreConsume .none x.db r with ⟨_ | e, db'⟩
    · dsimp only
      split
      · split <;> rfl
      · rfl
    · rw [hr] at hcases
      rcases hcases with ⟨-, hdb⟩ | ⟨rec, -, hcon, -⟩
      · exact hdb.symm
      · cases hcon
  | delta r d =>
    simp only [Ledger.step, Ledger.call]
    rcases x.db.record r with _ | rec
    · rfl
    · dsimp only
      rcases postConsumeUserSubscriptionDelta x.db rec.userSubscriptionId d with e | db'
      · rfl
      · rfl
  | resetDue id now fuel =>
    simp only [Ledger.step, Ledger.call]
    rcases resetDueSubscription cal fuel x.db id now with e | ⟨db', resets⟩
    · rfl
    · rfl

/-- The subscriptions in `resets` were reset, and nothing else has changed that the
ledger is about. -/
structure Cleared (x y : Ledger) (resets : List Int) : Prop where
  subs : AfterResets resets x.db y.db
  chargedTo : ∀ q, y.chargedTo q = x.chargedTo q
  requests : y.requests = x.requests
  charge : y.charge = x.charge
  fresh : ∀ q, y.fresh q = (x.fresh q && !(resets.any fun i => decide (x.chargedTo q = some i)))
  oldNet : ∀ i, y.oldNet i = if i ∈ resets then 0 else x.oldNet i

/-- The new request `r` was charged `amount` on subscription `id`. -/
structure Entered (x y : Ledger) (r : String) (amount id : Int) : Prop where
  new : x.chargedTo r = none
  target : y.chargedTo r = some id
  others : ∀ q, q ≠ r → y.chargedTo q = x.chargedTo q
  subs : ∃ s, x.db.subs id = some s ∧
    (0 < s.amountTotal → s.amountUsed + amount ≤ s.amountTotal) ∧
    y.db.subs = Function.update x.db.subs id (some { s with amountUsed := s.amountUsed + amount })
  requests : y.requests = r :: x.requests
  charge : y.charge = Function.update x.charge r amount
  fresh : y.fresh = Function.update x.fresh r true
  oldNet : y.oldNet = x.oldNet

/-- Request `r` has moved the used amount of subscription `id` by `d`, with the clamp
at 0, and nothing else has changed. -/
structure Moved (x y : Ledger) (r : String) (id d : Int) : Prop where
  target : x.chargedTo r = some id
  others : ∀ q, y.chargedTo q = x.chargedTo q
  subs : ∃ s, x.db.subs id = some s ∧
    (0 < s.amountTotal → max 0 (s.amountUsed + d) ≤ s.amountTotal) ∧
    y.db.subs = Function.update x.db.subs id
      (some { s with amountUsed := max 0 (s.amountUsed + d) })
  requests : y.requests = x.requests
  charge : y.charge = Function.update x.charge r (x.charge r + d)
  fresh : y.fresh = x.fresh
  oldNet : y.oldNet = if x.fresh r then x.oldNet
    else Function.update x.oldNet id (x.oldNet id + (y.db.used id - x.db.used id))

theorem Cleared.of_same (hsubs : y.db.subs = x.db.subs) (hto : ∀ q, y.chargedTo q = x.chargedTo q)
    (hreq : y.requests = x.requests) (hcharge : y.charge = x.charge) (hfresh : y.fresh = x.fresh)
    (hold : y.oldNet = x.oldNet) : Cleared x y [] := by
  refine ⟨?_, hto, hreq, hcharge, ?_, ?_⟩
  · intro i
    have hi := AfterResets.refl x.db i
    rw [hsubs]
    exact hi
  · intro q
    simp [hfresh]
  · intro i
    simp [hold]

theorem Cleared.refl (x : Ledger) : Cleared x x [] :=
  Cleared.of_same rfl (fun _ => rfl) rfl rfl rfl rfl

theorem cleared_reset {db : Db} {resets : List Int} (hsubs : AfterResets resets x.db db)
    (hrec : db.record = x.db.record) : Cleared x (x.reset db resets) resets := by
  refine ⟨hsubs, fun q => ?_, rfl, rfl, fun _ => rfl, fun _ => rfl⟩
  simp [Ledger.chargedTo, Ledger.reset, hrec]

variable {r : String}

/-- Marking a record does not change where it is charged. -/
theorem chargedTo_setRecord {db : Db} {rec : PreConsumeRecord}
    (h : db.record r = some rec) (q : String) (b : Bool) :
    ((db.setRecord r { rec with refunded := b }).record q).map
      PreConsumeRecord.userSubscriptionId =
      (db.record q).map PreConsumeRecord.userSubscriptionId := by
  by_cases hq : q = r
  · subst hq
    rw [Db.setRecord_self, h]
    rfl
  · rw [Db.setRecord_ne _ _ hq]

/-- A new charge resets what is due on the way and enters the request. -/
theorem entered_of_newCharge {amount id : Int} {resets : List Int} {db' : Db}
    (hrec : x.db.record r = none) (h : NewCharge r amount resets x.db db' id) :
    ∃ z, Cleared x z resets ∧ Entered z ((x.reset db' resets).enter db' r amount) r amount id := by
  obtain ⟨db₁, s, hafter, hrec₁, hs, hroom, rfl⟩ := h
  refine ⟨x.reset db₁ resets, cleared_reset hafter hrec₁, ?_⟩
  refine ⟨?_, ?_, ?_, ⟨s, hs, hroom, rfl⟩, rfl, rfl, rfl, rfl⟩
  · simp [Ledger.chargedTo, Ledger.reset, hrec₁, hrec]
  · simp [Ledger.chargedTo, Ledger.enter]
  · intro q hq
    simp [Ledger.chargedTo, Ledger.enter, Ledger.reset, Db.setRecord_ne _ _ hq]

/-- A delta that was accepted moves the charge, or it is 0. -/
theorem moved_of_postConsume {rec : PreConsumeRecord} {d : Int} {db' : Db} (db : Db)
    (hrec : x.db.record r = some rec)
    (h : postConsumeUserSubscriptionDelta x.db rec.userSubscriptionId d = .ok db')
    (hsubs : db.subs = db'.subs)
    (hto : ∀ q, (db.record q).map PreConsumeRecord.userSubscriptionId = x.chargedTo q) :
    Cleared x (x.move db r rec.userSubscriptionId d) [] ∨
      Moved x (x.move db r rec.userSubscriptionId d) r rec.userSubscriptionId d := by
  have htarget : x.chargedTo r = some rec.userSubscriptionId := by
    simp [Ledger.chargedTo, hrec]
  rcases postConsume_ok h with ⟨rfl, rfl⟩ | ⟨s, hs, hroom, rfl⟩
  · have hused : db.used rec.userSubscriptionId - x.db.used rec.userSubscriptionId = 0 := by
      simp [Db.used, hsubs]
    refine Or.inl (Cleared.of_same hsubs hto rfl ?_ rfl ?_)
    · simp [Ledger.move]
    · simp [Ledger.move, hused]
  · exact Or.inr ⟨htarget, hto, ⟨s, hs, hroom, hsubs⟩, rfl, rfl, rfl, rfl⟩

theorem postConsume_record {db db' : Db} {id d : Int}
    (h : postConsumeUserSubscriptionDelta db id d = .ok db') : db'.record = db.record := by
  rcases postConsume_ok h with ⟨-, rfl⟩ | ⟨s, -, -, rfl⟩
  · rfl
  · rfl

/-- The subscriptions a call resets. -/
def resetsOf (cal : Calendar) (db : Db) : Event → List Int
  | .preConsume r userId amount now fuel =>
    match preConsumeUserSubscription cal fuel none db r userId amount now with
    | .error _ => []
    | .ok (_, _, resets) => resets
  | .resetDue id now fuel =>
    match resetDueSubscription cal fuel db id now with
    | .error _ => []
    | .ok (_, resets) => resets
  | _ => []

/-- **What a call does to the ledger**: it resets subscriptions, possibly none; it
resets subscriptions and then charges a new request; or a request moves its charge. -/
theorem step_cases (cal : Calendar) (x : Ledger) (e : Event) :
    Cleared x (x.step cal e) (resetsOf cal x.db e) ∨
    (∃ r amount id z, 0 < amount ∧ Cleared x z (resetsOf cal x.db e) ∧
      Entered z (x.step cal e) r amount id) ∨
    (∃ r rec, e = .refund r ∧ x.db.record r = some rec ∧ rec.refunded = false ∧
      Moved x (x.step cal e) r rec.userSubscriptionId (-rec.preConsumed)) ∨
    (∃ r rec d, e = .delta r d ∧ x.db.record r = some rec ∧
      Moved x (x.step cal e) r rec.userSubscriptionId d) := by
  cases e with
  | preConsume r userId amount now fuel =>
    rcases hp : preConsumeUserSubscription cal fuel none x.db r userId amount now with
      e | ⟨res, db', resets⟩
    · simp only [Ledger.step, resetsOf, hp]
      exact Or.inl (Cleared.refl x)
    obtain ⟨hpos, -, ⟨rec, hrec, -, rfl, rfl, -⟩ | ⟨hrec, hnew, -⟩⟩ := preConsume_ok hp
    · simp only [Ledger.step, resetsOf, hp, hrec]
      exact Or.inl (Cleared.refl x)
    · obtain ⟨z, hz, hent⟩ := entered_of_newCharge hrec hnew
      simp only [Ledger.step, resetsOf, hp, if_pos hrec]
      exact Or.inr (Or.inl ⟨r, amount, res.userSubscriptionId, z, hpos, hz, hent⟩)
  | refund r =>
    rcases hr : refundSubscriptionPreConsume .none x.db r with ⟨_ | e, db'⟩
    swap
    · simp only [Ledger.step, resetsOf, hr]
      exact Or.inl (Cleared.refl x)
    have hcases := refund_none x.db r
    rw [hr] at hcases
    rcases hcases with ⟨hcon, -⟩ | ⟨rec, hrec, -, hcases⟩
    · exact absurd rfl hcon
    rcases hcases with ⟨href, hdb⟩ | ⟨href, hp, hdb⟩ | ⟨href, hp, d, hd, hdb⟩
    · obtain rfl : db' = x.db := hdb
      simp only [Ledger.step, resetsOf, hr, hrec, href]
      exact Or.inl (Cleared.refl x)
    · obtain rfl : db' = _ := hdb
      have hno : ¬ (rec.refunded = false ∧ 0 < rec.preConsumed) := by omega
      simp only [Ledger.step, resetsOf, hr, hrec, if_neg hno]
      exact Or.inl (Cleared.of_same rfl (fun q => chargedTo_setRecord hrec q true) rfl rfl rfl rfl)
    · obtain rfl : db' = _ := hdb
      simp only [Ledger.step, resetsOf, hr, hrec, if_pos (And.intro href hp)]
      have hsame := postConsume_record hd
      rcases moved_of_postConsume (d.setRecord r { rec with refunded := true }) hrec hd rfl
        (fun q => (chargedTo_setRecord (hsame ▸ hrec) q true).trans (by rw [hsame]; rfl)) with h | h
      · exact Or.inl h
      · exact Or.inr (Or.inr (Or.inl ⟨r, rec, rfl, hrec, href, h⟩))
  | delta r d =>
    rcases hrec : x.db.record r with _ | rec
    · simp only [Ledger.step, resetsOf, hrec]
      exact Or.inl (Cleared.refl x)
    rcases hd : postConsumeUserSubscriptionDelta x.db rec.userSubscriptionId d with e | db'
    · simp only [Ledger.step, resetsOf, hrec, hd]
      exact Or.inl (Cleared.refl x)
    simp only [Ledger.step, resetsOf, hrec, hd]
    rcases moved_of_postConsume db' hrec hd rfl
      (fun q => by rw [postConsume_record hd]; rfl) with h | h
    · exact Or.inl h
    · exact Or.inr (Or.inr (Or.inr ⟨r, rec, d, rfl, hrec, h⟩))
  | resetDue id now fuel =>
    rcases hr : resetDueSubscription cal fuel x.db id now with e | ⟨db', resets⟩
    · simp only [Ledger.step, resetsOf, hr]
      exact Or.inl (Cleared.refl x)
    · simp only [Ledger.step, resetsOf, hr]
      obtain ⟨hafter, hrec⟩ := resetDue_ok hr
      exact Or.inl (cleared_reset hafter hrec)

end Step

/-! ### The sums -/

/-- Every request that has a record is entered, once. -/
structure Tracked (x : Ledger) : Prop where
  nodup : x.requests.Nodup
  mem : ∀ r, r ∈ x.requests ↔ (x.chargedTo r).isSome = true

section Sums

variable {x y z : Ledger} {r : String} {amount id d : Int} {resets : List Int}

theorem Tracked.cleared (h : Tracked x) (hc : Cleared x y resets) : Tracked y := by
  refine ⟨hc.requests ▸ h.nodup, fun q => ?_⟩
  rw [hc.requests, hc.chargedTo]
  exact h.mem q

theorem Tracked.moved (h : Tracked x) (hm : Moved x y r id d) : Tracked y := by
  refine ⟨hm.requests ▸ h.nodup, fun q => ?_⟩
  rw [hm.requests, hm.others]
  exact h.mem q

theorem Tracked.not_mem (h : Tracked x) (he : Entered x y r amount id) : r ∉ x.requests := by
  intro hr
  have := (h.mem r).mp hr
  rw [he.new] at this
  cases this

theorem Tracked.entered (h : Tracked x) (he : Entered x y r amount id) : Tracked y := by
  refine ⟨?_, fun q => ?_⟩
  · rw [he.requests]
    exact List.nodup_cons.mpr ⟨h.not_mem he, h.nodup⟩
  · rw [he.requests, List.mem_cons]
    by_cases hq : q = r
    · subst hq
      simp [he.target]
    · rw [he.others q hq, ← h.mem q]
      simp [hq]

theorem Tracked.moved_mem (h : Tracked x) (hm : Moved x y r id d) : r ∈ x.requests := by
  rw [h.mem, hm.target]
  rfl

theorem outstandingOf_cleared (hc : Cleared x y resets) (p : String → Bool) (i : Int) :
    y.outstandingOf p i = x.outstandingOf p i := by
  unfold Ledger.outstandingOf
  simp only [hc.requests, hc.charge, hc.chargedTo]

/-- After a reset no request of the subscription is fresh. -/
theorem freshOutstanding_cleared (hc : Cleared x y resets) (i : Int) :
    y.freshOutstanding i = if i ∈ resets then 0 else x.freshOutstanding i := by
  have hsum : y.freshOutstanding i = x.outstandingOf y.fresh i :=
    outstandingOf_cleared hc y.fresh i
  rw [hsum]
  unfold Ledger.freshOutstanding Ledger.outstandingOf
  split
  · rename_i hi
    have hzero : tally x.requests (fun _ => (0 : Int)) = 0 := by simp [tally]
    refine Eq.trans (tally_congr fun q _ => if_neg ?_) hzero
    rintro ⟨hto, hf⟩
    rw [hc.fresh] at hf
    have hany : (resets.any fun j => decide (x.chargedTo q = some j)) = true :=
      List.any_eq_true.mpr ⟨i, hi, by simp [hto]⟩
    simp [hany] at hf
  · rename_i hi
    refine tally_congr fun q _ => ?_
    by_cases hto : x.chargedTo q = some i
    · have hany : (resets.any fun j => decide (x.chargedTo q = some j)) = false := by
        rw [List.any_eq_false]
        intro j hj
        simp only [hto, Option.some.injEq, decide_eq_true_eq]
        rintro rfl
        exact hi hj
      rw [hc.fresh, hany]
      simp
    · rw [if_neg (fun h => hto h.1), if_neg (fun h => hto h.1)]

/-- A request that moves its charge moves the sums it counts in. -/
theorem outstandingOf_moved (h : Tracked x) (hm : Moved x y r id d) (p : String → Bool) (i : Int) :
    y.outstandingOf p i = x.outstandingOf p i + if i = id ∧ p r = true then d else 0 := by
  unfold Ledger.outstandingOf
  rw [hm.requests, tally_change h.nodup (h.moved_mem hm) (a := r)
    (f := fun q => if x.chargedTo q = some i ∧ p q = true then x.charge q else 0)]
  · have hid : some id = some i ↔ i = id := by simp [eq_comm]
    simp only [hm.others, hm.target, hm.charge, Function.update_self, hid]
    split <;> omega
  · intro q _ hq
    simp only [hm.others, hm.charge, Function.update_of_ne hq]

/-- A new request adds its charge to the sums it counts in. -/
theorem outstandingOf_entered (h : Tracked x) (he : Entered x y r amount id) (p p' : String → Bool)
    (hp : ∀ q, q ≠ r → p' q = p q) (i : Int) :
    y.outstandingOf p' i = x.outstandingOf p i + if i = id ∧ p' r = true then amount else 0 := by
  have hid : some id = some i ↔ i = id := by simp [eq_comm]
  unfold Ledger.outstandingOf
  rw [he.requests, tally_cons]
  have hold : tally x.requests (fun q => if y.chargedTo q = some i ∧ p' q = true then y.charge q
      else 0) = tally x.requests (fun q => if x.chargedTo q = some i ∧ p q = true then x.charge q
      else 0) := by
    refine tally_congr fun q hq => ?_
    have hne : q ≠ r := fun hcon => h.not_mem he (hcon ▸ hq)
    rw [he.others q hne, he.charge, Function.update_of_ne hne, hp q hne]
  rw [hold, he.target, he.charge, Function.update_self]
  simp only [hid]
  omega

end Sums

end NewApiPool.Subscription
