import NewApiPool.Subscription.Ledger

/-!
# The sum law and the reset periods

Two laws of the ledger of `NewApiPool.Subscription.Ledger`, over every sequence of
calls.

Without a reset, the used amount of a subscription is the sum of what its requests
have outstanding (`NewApiPool.Subscription.sumLaw_of_orderly`). The one thing a
caller has to see to is that a refund, which gives back the amount of the record,
comes while the request still has that much outstanding.

With resets, the used amount covers what was pre-consumed in the current period
(`NewApiPool.Subscription.isolated_of_keepsPeriods`) only as long as the requests of
earlier periods take nothing out of it. Neither the record nor the delta says which
period it belongs to, so nothing in the store sees to that: a refund from before the
reset gives its amount back in the new period.
-/

namespace NewApiPool.Subscription

open EventSystem Tally Billing

variable {cal : Calendar} {x y : Ledger} {e : Event} {r : String} {amount id d : Int}
  {resets : List Int}

/-! ### The sum law -/

/-- Subscriptions nothing was charged to. -/
structure Fresh (db : Db) : Prop where
  used : ∀ id s, db.subs id = some s → s.amountUsed = 0
  records : ∀ r, db.record r = none

/-- No reset, and a delta comes from a session that has pre-consumed and gives back at
most what it has outstanding. -/
def Permitted (cal : Calendar) (x : Ledger) (e : Event) : Prop :=
  resetsOf cal x.db e = [] ∧
    match e with
    | .delta r d => (x.db.record r).isSome = true ∧ -x.charge r ≤ d
    | _ => True

/-- **The calls the sum law is about**: permitted ones, and a refund only while the
request has the amount of its record outstanding. -/
def Orderly (cal : Calendar) (x : Ledger) (e : Event) : Prop :=
  Permitted cal x e ∧
    match e with
    | .refund r => ∀ rec ∈ x.db.record r, rec.refunded = false → rec.preConsumed ≤ x.charge r
    | _ => True

instance decidablePermitted (cal : Calendar) (x : Ledger) : ∀ e, Decidable (Permitted cal x e)
  | .preConsume _ _ _ _ _ => inferInstanceAs (Decidable (_ ∧ True))
  | .refund _ => inferInstanceAs (Decidable (_ ∧ True))
  | .delta r d => inferInstanceAs (Decidable (_ ∧ (x.db.record r).isSome = true ∧ -x.charge r ≤ d))
  | .resetDue _ _ _ => inferInstanceAs (Decidable (_ ∧ True))

instance decidableOrderly (cal : Calendar) (x : Ledger) : ∀ e, Decidable (Orderly cal x e)
  | .preConsume _ _ _ _ _ => inferInstanceAs (Decidable (_ ∧ True))
  | .refund r => inferInstanceAs (Decidable (_ ∧ ∀ rec ∈ x.db.record r, _ → _ ≤ _))
  | .delta _ _ => inferInstanceAs (Decidable (_ ∧ True))
  | .resetDue _ _ _ => inferInstanceAs (Decidable (_ ∧ True))

/-- **The sum law**, and what it says of the calls to come. -/
structure SumLaw (cal : Calendar) (x : Ledger) : Prop where
  nonneg : ∀ id s, x.db.subs id = some s → 0 ≤ s.amountUsed
  capped : ∀ id s, x.db.subs id = some s → 0 < s.amountTotal → s.amountUsed ≤ s.amountTotal
  sum : ∀ id s, x.db.subs id = some s → s.amountUsed = x.outstanding id
  /-- The clamp at 0 never takes effect. -/
  noClamp : ∀ r rec s d, x.db.record r = some rec → x.db.subs rec.userSubscriptionId = some s →
    -x.charge r ≤ d → max 0 (s.amountUsed + d) = s.amountUsed + d
  /-- A pre-consume of a request that has one adds nothing. -/
  repeats : ∀ r userId amount now fuel, x.db.record r ≠ none →
    (Ledger.call cal x.db (.preConsume r userId amount now fuel)).2 = x.db
  /-- A call that returns an error leaves the rows as they are. -/
  unchanged : ∀ e, (Ledger.call cal x.db e).1 ≠ none → (Ledger.call cal x.db e).2 = x.db

theorem call_error {db : Db} (h : (Ledger.call cal db e).1 ≠ none) :
    (Ledger.call cal db e).2 = db := by
  cases e with
  | preConsume r userId amount now fuel =>
    revert h
    simp only [Ledger.call]
    split
    · intro _
      rfl
    · intro h
      exact absurd rfl h
  | refund r =>
    rcases refund_none db r with ⟨-, hdb⟩ | ⟨rec, -, hok, -⟩
    · simp only [Ledger.call]
      exact hdb
    · simp [Ledger.call, hok] at h
  | delta r d =>
    revert h
    simp only [Ledger.call]
    split
    · intro _
      rfl
    · split
      · intro _
        rfl
      · intro h
        exact absurd rfl h
  | resetDue id now fuel =>
    revert h
    simp only [Ledger.call]
    split
    · intro _
      rfl
    · intro h
      exact absurd rfl h

/-- A pre-consume of a request that has a record answers from it. -/
theorem call_repeat {db : Db} {userId now : Int} {fuel : Nat} (h : db.record r ≠ none) :
    (Ledger.call cal db (.preConsume r userId amount now fuel)).2 = db := by
  simp only [Ledger.call]
  split
  · rfl
  · rename_i db' resets hp
    obtain ⟨-, -, ⟨rec, -, -, hdb, -, -⟩ | ⟨hrec, -, -⟩⟩ := preConsume_ok hp
    · exact hdb
    · exact absurd hrec h

/-- The invariant behind the sum law. -/
structure InBalance (x : Ledger) : Prop where
  tracked : Tracked x
  charges : ∀ r ∈ x.requests, 0 ≤ x.charge r
  sum : ∀ id s, x.db.subs id = some s → s.amountUsed = x.outstanding id
  capped : ∀ id s, x.db.subs id = some s → 0 < s.amountTotal → s.amountUsed ≤ s.amountTotal

theorem inBalance_start {db : Db} (h : Fresh db) : InBalance (.start db) := by
  refine ⟨⟨List.nodup_nil, fun q => ?_⟩, nofun, h.used, fun id s hs hpos => ?_⟩
  · simp [Ledger.start, Ledger.chargedTo, h.records]
  · rw [h.used id s hs]
    omega

theorem InBalance.summand_nonneg (h : InBalance x) (i : Int) :
    ∀ q ∈ x.requests, 0 ≤ if x.chargedTo q = some i ∧ true = true then x.charge q else 0 := by
  intro q hq
  split
  · exact h.charges q hq
  · exact le_refl 0

theorem InBalance.outstanding_nonneg (h : InBalance x) (i : Int) : 0 ≤ x.outstanding i :=
  tally_nonneg (h.summand_nonneg i)

/-- No request has more outstanding than all of them together. -/
theorem InBalance.charge_le (h : InBalance x) (hto : x.chargedTo r = some id) :
    x.charge r ≤ x.outstanding id := by
  have hr : r ∈ x.requests := by
    rw [h.tracked.mem, hto]
    rfl
  have hle : (if x.chargedTo r = some id ∧ true = true then x.charge r else 0) ≤
      x.outstanding id := le_tally (h.summand_nonneg id) hr
  rwa [if_pos ⟨hto, rfl⟩] at hle

/-- A request that gives back no more than it has outstanding finds that much used. -/
theorem InBalance.used_add_nonneg (h : InBalance x) {rec : PreConsumeRecord}
    {s : UserSubscription} (hrec : x.db.record r = some rec) (hd : -x.charge r ≤ d)
    (hs : x.db.subs rec.userSubscriptionId = some s) : 0 ≤ s.amountUsed + d := by
  have hto : x.chargedTo r = some rec.userSubscriptionId := by simp [Ledger.chargedTo, hrec]
  have hle := h.charge_le hto
  have hused := h.sum _ s hs
  omega

theorem InBalance.cleared (h : InBalance x) (hc : Cleared x y []) : InBalance y := by
  refine ⟨h.tracked.cleared hc, ?_, ?_, ?_⟩
  · rw [hc.requests, hc.charge]
    exact h.charges
  · intro i s' hs'
    obtain ⟨s, hs, -, hused⟩ := hc.subs.origin hs'
    rw [hused, if_neg List.not_mem_nil, h.sum i s hs]
    exact (outstandingOf_cleared hc _ i).symm
  · intro i s' hs' hpos
    obtain ⟨s, hs, htotal, hused⟩ := hc.subs.origin hs'
    rw [hused, if_neg List.not_mem_nil, htotal]
    exact h.capped i s hs (htotal ▸ hpos)

theorem InBalance.entered (h : InBalance x) (he : Entered x y r amount id) (hpos : 0 < amount) :
    InBalance y := by
  obtain ⟨s, hs, hroom, hsubs⟩ := he.subs
  have hsum : ∀ i, y.outstanding i = x.outstanding i + if i = id then amount else 0 := by
    intro i
    have := outstandingOf_entered h.tracked he (fun _ => true) (fun _ => true)
      (fun _ _ => rfl) i
    simpa [Ledger.outstanding] using this
  refine ⟨h.tracked.entered he, fun q hq => ?_, fun i t ht => ?_, fun i t ht htot => ?_⟩
  · rw [he.charge]
    by_cases hqr : q = r
    · subst hqr
      rw [Function.update_self]
      omega
    · rw [Function.update_of_ne hqr]
      rw [he.requests] at hq
      exact h.charges q ((List.mem_cons.mp hq).resolve_left hqr)
  · rw [hsubs] at ht
    rw [hsum]
    rcases update_eq_some ht with ⟨rfl, rfl⟩ | ⟨hi, ht⟩
    · rw [if_pos rfl, ← h.sum i s hs]
    · rw [if_neg hi, h.sum i t ht]
      omega
  · rw [hsubs] at ht
    rcases update_eq_some ht with ⟨-, rfl⟩ | ⟨-, ht⟩
    · exact hroom htot
    · exact h.capped i t ht htot

theorem InBalance.moved (h : InBalance x) (hm : Moved x y r id d) (hd : -x.charge r ≤ d) :
    InBalance y := by
  obtain ⟨s, hs, hroom, hsubs⟩ := hm.subs
  have hsum : ∀ i, y.outstanding i = x.outstanding i + if i = id then d else 0 := by
    intro i
    have := outstandingOf_moved h.tracked hm (fun _ => true) i
    simpa [Ledger.outstanding] using this
  have hle := h.charge_le hm.target
  refine ⟨h.tracked.moved hm, fun q hq => ?_, fun i t ht => ?_, fun i t ht htot => ?_⟩
  · rw [hm.requests] at hq
    have hold := h.charges q hq
    rw [hm.charge]
    by_cases hqr : q = r
    · subst hqr
      rw [Function.update_self]
      omega
    · rw [Function.update_of_ne hqr]
      exact hold
  · rw [hsubs] at ht
    rw [hsum]
    rcases update_eq_some ht with ⟨rfl, rfl⟩ | ⟨hi, ht⟩
    · -- what is given back is outstanding, so the clamp has nothing to do
      have hused := h.sum i s hs
      have hmax : max 0 (s.amountUsed + d) = s.amountUsed + d := max_eq_right (by omega)
      rw [if_pos rfl, ← hused]
      exact hmax
    · rw [if_neg hi, h.sum i t ht]
      omega
  · rw [hsubs] at ht
    rcases update_eq_some ht with ⟨-, rfl⟩ | ⟨-, ht⟩
    · exact hroom htot
    · exact h.capped i t ht htot

/-- **An orderly call keeps the balance.** -/
theorem InBalance.step (h : InBalance x) (hc : Orderly cal x e) : InBalance (x.step cal e) := by
  obtain ⟨⟨hno, hdelta⟩, hrefund⟩ := hc
  rcases step_cases cal x e with hcl | ⟨r, amount, id, z, hpos, hcl, hent⟩ |
      ⟨r, rec, rfl, hrec, href, hm⟩ | ⟨r, rec, d, rfl, hrec, hm⟩
  · rw [hno] at hcl
    exact h.cleared hcl
  · rw [hno] at hcl
    exact (h.cleared hcl).entered hent hpos
  · have hle := hrefund rec hrec href
    exact h.moved hm (by omega)
  · exact h.moved hm hdelta.2

theorem InBalance.sumLaw (h : InBalance x) : SumLaw cal x := by
  refine ⟨fun id s hs => ?_, h.capped, h.sum, fun r rec s d hrec hs hd => ?_,
    fun r userId amount now fuel hrec => call_repeat hrec, fun e he => call_error he⟩
  · rw [h.sum id s hs]
    exact h.outstanding_nonneg id
  · exact max_eq_right (h.used_add_nonneg hrec hd hs)

/-- **The used amount is the sum of the outstanding charges**, after every orderly
sequence of calls on subscriptions nothing was charged to. -/
theorem sumLaw_of_orderly {db : Db} {es : List Event} (hdb : Fresh db)
    (h : Along (Ledger.step cal) (Orderly cal) (.start db) es) :
    SumLaw cal (run (Ledger.step cal) (.start db) es) :=
  (inv_run (fun _ _ hx hc => InBalance.step hx hc) (inBalance_start hdb) h).sumLaw

section Sample

/-- A calendar without time zones, with months of thirty days. -/
def sampleCalendar : Calendar where
  nextDay t := (t / 86400 + 1) * 86400
  nextWeek t := ((t / 86400 + 3) / 7 + 1) * 604800 - 259200
  nextMonth t := (t / 2592000 + 1) * 2592000
  addDate t years months := t + (12 * years + months) * 2592000

/-- A subscription of 1000 units an hour, bought at 1000 seconds. -/
def hourlySub : UserSubscription where
  userId := 7
  planId := 1
  amountTotal := 1000
  amountUsed := 0
  startTime := 1000
  endTime := 100000
  status := .active
  lastResetTime := 1000
  nextResetTime := 4600
  upgradeGroup := ""
  prevUserGroup := ""

/-- The plan it was bought on. -/
def hourlyPlan : SubscriptionPlan where
  id := 1
  durationUnit := "custom"
  durationValue := 0
  customSeconds := 99000
  maxPurchasePerUser := 0
  upgradeGroup := ""
  totalAmount := 1000
  quotaResetPeriod := "custom"
  quotaResetCustomSeconds := 3600

/-- A database with this one subscription. -/
def sampleDb : Db where
  ids := [1]
  nodup := by decide
  subs i := if i = 1 then some hourlySub else none
  subs_ids := by
    intro i s hs
    by_cases hi : i = 1
    · exact hi ▸ List.mem_cons_self
    · rw [if_neg hi] at hs
      cases hs
  plans i := if i = 1 then some hourlyPlan else none
  record _ := none
  groups u := if u = 7 then some "default" else none

theorem sampleDb_fresh : Fresh sampleDb := by
  refine ⟨fun id s hs => ?_, fun _ => rfl⟩
  simp only [sampleDb] at hs
  split at hs
  · cases hs
    rfl
  · cases hs

/-- One request is settled twice, the other refunded and then tried again. -/
def settledRun : List Event :=
  [.preConsume "a" 7 100 2000 9, .preConsume "b" 7 200 2001 9, .delta "a" 50, .refund "b",
    .delta "a" (-30), .preConsume "b" 7 200 2002 9]

/-- The sum law holds of it. -/
theorem sumLaw_settledRun :
    Along (Ledger.step sampleCalendar) (Orderly sampleCalendar) (.start sampleDb) settledRun ∧
      SumLaw sampleCalendar
        (run (Ledger.step sampleCalendar) (.start sampleDb) settledRun) :=
  ⟨by decide +kernel, sumLaw_of_orderly sampleDb_fresh (by decide +kernel)⟩

/-- A request is settled at 40 of its 100 units and refunded after that. -/
def refundedAfterSettlement : List Event :=
  [.preConsume "a" 7 100 2000 9, .delta "a" (-60), .refund "a"]

/-- **A refund after a settlement hits the clamp**: the used amount is 0, while the
charges come to -60. -/
theorem refund_after_settlement_clamps :
    Fresh sampleDb ∧
      Along (Ledger.step sampleCalendar) (Permitted sampleCalendar) (.start sampleDb)
        refundedAfterSettlement ∧
      ¬ SumLaw sampleCalendar
        (run (Ledger.step sampleCalendar) (.start sampleDb) refundedAfterSettlement) := by
  refine ⟨sampleDb_fresh, by decide +kernel, fun h => ?_⟩
  have hsum := h.sum 1 hourlySub (by decide +kernel)
  revert hsum
  decide +kernel

end Sample

/-! ### The reset periods -/

/-- **The used amount covers the current period**: it is at least what the requests
pre-consumed since the last reset have outstanding, and the requests from before it
have not given back more than they have been charged since. -/
structure Isolated (x : Ledger) : Prop where
  covered : ∀ id s, x.db.subs id = some s → x.freshOutstanding id ≤ s.amountUsed
  kept : ∀ id, 0 ≤ x.oldNet id

/-- **The calls that keep to their period.** A refund or a delta of a request from
before the last reset lowers the used amount by no more than such requests have raised
it since. -/
def KeepsPeriods (x : Ledger) : Event → Prop
  | .refund r => ∀ rec ∈ x.db.record r, rec.refunded = false → x.fresh r = false →
    min rec.preConsumed (x.db.used rec.userSubscriptionId) ≤ x.oldNet rec.userSubscriptionId
  | .delta r d => ∀ rec ∈ x.db.record r, x.fresh r = false →
    min (-d) (x.db.used rec.userSubscriptionId) ≤ x.oldNet rec.userSubscriptionId
  | _ => True

instance decidableKeepsPeriods (x : Ledger) : ∀ e, Decidable (KeepsPeriods x e)
  | .preConsume _ _ _ _ _ => inferInstanceAs (Decidable True)
  | .refund r => inferInstanceAs (Decidable (∀ rec ∈ x.db.record r, _ → _ → _ ≤ _))
  | .delta r _ => inferInstanceAs (Decidable (∀ rec ∈ x.db.record r, _ → _ ≤ _))
  | .resetDue _ _ _ => inferInstanceAs (Decidable True)

/-- The invariant behind it: the used amount has room for the charges of the current
period and for what the requests of earlier ones have moved in it. -/
structure InPeriod (x : Ledger) : Prop where
  tracked : Tracked x
  room : ∀ id s, x.db.subs id = some s → x.freshOutstanding id + x.oldNet id ≤ s.amountUsed
  kept : ∀ id, 0 ≤ x.oldNet id

theorem inPeriod_start {db : Db} (hused : ∀ id s, db.subs id = some s → 0 ≤ s.amountUsed)
    (hrec : ∀ r, db.record r = none) : InPeriod (.start db) := by
  refine ⟨⟨List.nodup_nil, fun q => ?_⟩, fun id s hs => ?_, fun id => le_refl 0⟩
  · simp [Ledger.start, Ledger.chargedTo, hrec]
  · simpa [Ledger.start, Ledger.freshOutstanding, Ledger.outstandingOf] using hused id s hs

theorem InPeriod.cleared (h : InPeriod x) (hc : Cleared x y resets) : InPeriod y := by
  refine ⟨h.tracked.cleared hc, fun i s' hs' => ?_, fun i => ?_⟩
  · obtain ⟨s, hs, -, hused⟩ := hc.subs.origin hs'
    rw [freshOutstanding_cleared hc, hc.oldNet, hused]
    split
    · omega
    · exact h.room i s hs
  · rw [hc.oldNet]
    split
    · exact le_refl 0
    · exact h.kept i

theorem InPeriod.entered (h : InPeriod x) (he : Entered x y r amount id) : InPeriod y := by
  obtain ⟨s, hs, -, hsubs⟩ := he.subs
  have hsum : ∀ i, y.freshOutstanding i = x.freshOutstanding i + if i = id then amount else 0 := by
    intro i
    have := outstandingOf_entered h.tracked he x.fresh y.fresh
      (fun q hq => by rw [he.fresh, Function.update_of_ne hq]) i
    simpa [Ledger.freshOutstanding, he.fresh] using this
  refine ⟨h.tracked.entered he, fun i t ht => ?_, fun i => ?_⟩
  · rw [hsubs] at ht
    rw [hsum, he.oldNet]
    rcases update_eq_some ht with ⟨rfl, rfl⟩ | ⟨hi, ht⟩
    · have hroom := h.room i s hs
      rw [if_pos rfl]
      dsimp only
      omega
    · have hroom := h.room i t ht
      rw [if_neg hi]
      omega
  · rw [he.oldNet]
    exact h.kept i

/-- A request moves its charge. If it is one of an earlier period, what it takes out
of the current one is bounded. -/
theorem InPeriod.moved (h : InPeriod x) (hm : Moved x y r id d)
    (hkeep : x.fresh r = false → min (-d) (x.db.used id) ≤ x.oldNet id) : InPeriod y := by
  obtain ⟨s, hs, -, hsubs⟩ := hm.subs
  have hsum : ∀ i, y.freshOutstanding i =
      x.freshOutstanding i + if i = id ∧ x.fresh r = true then d else 0 := by
    intro i
    have := outstandingOf_moved h.tracked hm x.fresh i
    simpa [Ledger.freshOutstanding, hm.fresh] using this
  have hx : x.db.used id = s.amountUsed := by simp [Db.used, hs]
  have hy : y.db.used id = max 0 (s.amountUsed + d) := by simp [Db.used, hsubs]
  have hroom := h.room id s hs
  have hkept := h.kept id
  cases hf : x.fresh r with
  | true =>
    have hold : y.oldNet = x.oldNet := by rw [hm.oldNet, hf, if_pos rfl]
    refine ⟨h.tracked.moved hm, fun i t ht => ?_, fun i => hold ▸ h.kept i⟩
    rw [hsubs] at ht
    rw [hsum, hold]
    rcases update_eq_some ht with ⟨rfl, rfl⟩ | ⟨hi, ht⟩
    · simp only [hf, and_self, if_true]
      omega
    · have := h.room i t ht
      rw [if_neg (fun hcon => hi hcon.1)]
      omega
  | false =>
    have hold : y.oldNet = Function.update x.oldNet id
        (x.oldNet id + (max 0 (s.amountUsed + d) - s.amountUsed)) := by
      rw [hm.oldNet, hf, if_neg (by decide), hx, hy]
    have hmin := hkeep hf
    rw [hx] at hmin
    refine ⟨h.tracked.moved hm, fun i t ht => ?_, fun i => ?_⟩
    · rw [hsubs] at ht
      rw [hsum, hold]
      rcases update_eq_some ht with ⟨rfl, rfl⟩ | ⟨hi, ht⟩
      · rw [Function.update_self, if_neg (fun hcon => by simp [hf] at hcon)]
        dsimp only
        omega
      · have := h.room i t ht
        rw [Function.update_of_ne hi, if_neg (fun hcon => hi hcon.1)]
        omega
    · rw [hold]
      by_cases hi : i = id
      · subst hi
        rw [Function.update_self]
        omega
      · rw [Function.update_of_ne hi]
        exact h.kept i

/-- **A call that keeps to its period keeps the invariant**, resets included. -/
theorem InPeriod.step (h : InPeriod x) (hc : KeepsPeriods x e) : InPeriod (x.step cal e) := by
  rcases step_cases cal x e with hcl | ⟨r, amount, id, z, -, hcl, hent⟩ |
      ⟨r, rec, rfl, hrec, href, hm⟩ | ⟨r, rec, d, rfl, hrec, hm⟩
  · exact h.cleared hcl
  · exact (h.cleared hcl).entered hent
  · refine h.moved hm fun hf => ?_
    rw [neg_neg]
    exact hc rec hrec href hf
  · exact h.moved hm fun hf => hc rec hrec hf

/-- **The requests of a period keep their quota** as long as those of earlier periods
keep theirs. -/
theorem isolated_of_keepsPeriods {db : Db} {es : List Event}
    (hused : ∀ id s, db.subs id = some s → 0 ≤ s.amountUsed) (hrec : ∀ r, db.record r = none)
    (h : Along (Ledger.step cal) KeepsPeriods (.start db) es) :
    Isolated (run (Ledger.step cal) (.start db) es) := by
  have hinv : InPeriod (run (Ledger.step cal) (.start db) es) :=
    inv_run (fun _ _ hx hc => InPeriod.step hx hc) (inPeriod_start hused hrec) h
  refine ⟨fun id s hs => ?_, hinv.kept⟩
  have hroom := hinv.room id s hs
  have hkept := hinv.kept id
  omega

/-- A request from before a reset is settled after it, in two steps. -/
def settledAcrossReset : List Event :=
  [.preConsume "old" 7 100 2000 9, .resetDue 1 5000 9, .delta "old" 40,
    .preConsume "new" 7 300 5001 9, .delta "old" (-30), .refund "new"]

/-- The requests of the new period keep their quota in it. -/
theorem isolated_settledAcrossReset :
    Along (Ledger.step sampleCalendar) KeepsPeriods (.start sampleDb) settledAcrossReset ∧
      Isolated (run (Ledger.step sampleCalendar) (.start sampleDb) settledAcrossReset) :=
  ⟨by decide +kernel, isolated_of_keepsPeriods
    (fun id s hs => (sampleDb_fresh.used id s hs).ge) sampleDb_fresh.records (by decide +kernel)⟩

/-- **The refund of a request from before a reset takes quota of the new period**: 300
units are pre-consumed after the reset, and the used amount is 200. -/
theorem old_refund_lowers_new_period :
    Fresh sampleDb ∧
      ¬ Isolated (run (Ledger.step sampleCalendar) (.start sampleDb)
        [.preConsume "old" 7 100 2000 9, .preConsume "new" 7 300 5000 9, .refund "old"]) := by
  refine ⟨sampleDb_fresh, fun h => ?_⟩
  have hcovered := h.covered 1
    { hourlySub with amountUsed := 200, lastResetTime := 4600, nextResetTime := 8200 }
    (by decide +kernel)
  revert hcovered
  decide +kernel

end NewApiPool.Subscription
