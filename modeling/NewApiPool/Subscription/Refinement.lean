import NewApiPool.Billing.Session
import NewApiPool.Subscription.Balance

/-!
# The accounts of a billing session are a view of the store

A billing session is modelled over `NewApiPool.Billing.Accounts`, where the
subscription primitives add an amount to, or take it from, the amount used, and fail
when they are hit by a fault. What the functions of `model/subscription.go` do to the
tables is in `NewApiPool.Subscription.Store`. Here the two are put together: the
accounts are what `NewApiPool.Subscription.Db.view` shows of a database, a function of
the store that returns an error is the primitive hit by a fault, and one that returns
is the primitive hit by none – provided that no reset clears the amount used on the way
and that the clamp at 0 does nothing.

Both provisos hold along an orderly run, so every orderly run of the store is a run of
the accounts (`NewApiPool.Subscription.accountRuns_of_orderly`).
-/

namespace NewApiPool.Subscription

open EventSystem Billing

/-! ### The view -/

/-- The accounts a billing session sees: the amounts used and the records are those of
the database, the users and the tokens are not its concern. -/
def Db.view (db : Db) (w : Accounts) : Accounts :=
  { w with amountUsed := db.used, record := db.record }

section View

variable {db db' : Db} {w : Accounts} {id d : Int} {s : UserSubscription}

theorem used_of_subs (hs : db.subs id = some s) : db.used id = s.amountUsed := by
  simp [Db.used, hs]

/-- Two databases with the same amounts and records look the same. -/
theorem view_congr (hused : db'.used = db.used) (hrec : db'.record = db.record) :
    db'.view w = db.view w := by
  simp [Db.view, hused, hrec]

theorem view_setSub (hs : s.amountUsed = db.used id + d) :
    (db.setSub id s).view w = (db.view w).addUsed id d := by
  have hused : (db.setSub id s).used = Function.update db.used id (db.used id + d) := by
    funext i
    by_cases hi : i = id
    · subst hi
      rw [Function.update_self, used_of_subs (db.setSub_self i s), hs]
    · rw [Function.update_of_ne hi, Db.used, Db.used, db.setSub_ne s hi]
  simp [Db.view, Accounts.addUsed, hused]

theorem view_setRecord (requestId : String) (r : PreConsumeRecord) :
    (db.setRecord requestId r).view w = (db.view w).setRecord requestId r := rfl

theorem AfterResets.used_eq (h : AfterResets [] db db') : db'.used = db.used := by
  funext i
  rcases hs : db'.subs i with _ | t
  · rcases hi : db.subs i with _ | t₀
    · simp [Db.used, hs, hi]
    · have := h i
      rw [hi] at this
      obtain ⟨t, ht, -⟩ := this
      rw [hs] at ht
      cases ht
  · obtain ⟨t₀, ht₀, -, hused⟩ := h.origin hs
    rw [used_of_subs hs, used_of_subs ht₀, hused, if_neg List.not_mem_nil]

end View

/-! ### The functions of the store are the primitives -/

section Primitives

variable {db db' : Db} (w : Accounts) {requestId : String}

/-- A delta on the subscription does not go below 0, so the clamp does nothing. -/
def NoClamp (db : Db) (id delta : Int) : Prop :=
  ∀ s, db.subs id = some s → 0 ≤ s.amountUsed + delta

/-- A delta that returns has added its amount, if the clamp does nothing. -/
theorem view_of_postConsume {id delta : Int} (hclamp : NoClamp db id delta)
    (h : postConsumeUserSubscriptionDelta db id delta = .ok db') :
    db'.view w = (db.view w).addUsed id delta := by
  rcases postConsume_ok h with ⟨rfl, rfl⟩ | ⟨s, hs, -, rfl⟩
  · simp [Accounts.addUsed]
  · refine view_setSub ?_
    rw [used_of_subs hs]
    exact max_eq_right (hclamp s hs)

/-- **`PostConsumeUserSubscriptionDelta` is the primitive**, if the clamp does nothing. -/
theorem view_postConsume {id delta : Int} (hclamp : NoClamp db id delta) :
    ∃ f, Billing.postConsumeUserSubscriptionDelta f (db.view w) id delta =
      (postConsumeUserSubscriptionDelta db id delta).map (Db.view · w) := by
  by_cases hid : id ≤ 0
  · exact ⟨none, by simp [postConsumeUserSubscriptionDelta,
      Billing.postConsumeUserSubscriptionDelta, hid, Except.map]⟩
  by_cases hd : delta = 0
  · exact ⟨none, by simp [postConsumeUserSubscriptionDelta,
      Billing.postConsumeUserSubscriptionDelta, hid, hd, Except.map]⟩
  rcases hpost : postConsumeUserSubscriptionDelta db id delta with e | db'
  · exact ⟨some e, by simp [Billing.postConsumeUserSubscriptionDelta, hid, hd, Except.map]⟩
  · refine ⟨none, ?_⟩
    rw [postConsumeUserSubscriptionDelta_none (not_le.mp hid)]
    exact congrArg Except.ok (view_of_postConsume w hclamp hpost).symm

/-- What a refund returns, as an outcome of the primitive. -/
def refundOutcome (w : Accounts) : Option String × Db → Except String Accounts
  | (some e, _) => .error e
  | (none, db) => .ok (db.view w)

/-- **`RefundSubscriptionPreConsume` is the primitive**, if the clamp does nothing and
the database does not fail between the two commits. -/
theorem view_refund {fault : RefundFault} (hmark : ∀ e, fault ≠ .mark e)
    (hclamp : ∀ r, db.record requestId = some r → r.refunded = false →
      NoClamp db r.userSubscriptionId (-r.preConsumed)) :
    ∃ f, Billing.refundSubscriptionPreConsume f (db.view w) requestId =
      refundOutcome w (refundSubscriptionPreConsume fault db requestId) := by
  unfold refundSubscriptionPreConsume Billing.refundSubscriptionPreConsume
  by_cases hid : GoText.trimSpace requestId = ""
  · exact ⟨none, by simp [hid, refundOutcome]⟩
  simp only [if_neg hid]
  have hrec : (db.view w).record requestId = db.record requestId := rfl
  cases fault with
  | query e => exact ⟨some e, rfl⟩
  | mark e => exact absurd rfl (hmark e)
  | delta e =>
    rcases hr : db.record requestId with _ | r
    · exact ⟨none, by simp only [hrec, hr]; rfl⟩
    by_cases href : r.refunded = true
    · exact ⟨none, by simp only [hrec, hr, if_pos href]; rfl⟩
    by_cases hp : r.preConsumed ≤ 0
    · exact ⟨none, by simp only [hrec, hr, if_neg href, if_pos hp]; rfl⟩
    · exact ⟨some e, by simp only [if_neg href, if_neg hp]; rfl⟩
  | none =>
    rcases hr : db.record requestId with _ | r
    · exact ⟨none, by simp only [hrec, hr]; rfl⟩
    by_cases href : r.refunded = true
    · exact ⟨none, by simp only [hrec, hr, if_pos href]; rfl⟩
    by_cases hp : r.preConsumed ≤ 0
    · exact ⟨none, by simp only [hrec, hr, if_neg href, if_pos hp]; rfl⟩
    have hclamp := hclamp r hr (by simpa using href)
    simp only [if_neg href, if_neg hp]
    rcases hpost : postConsumeUserSubscriptionDelta db r.userSubscriptionId (-r.preConsumed) with
      e | db'
    · exact ⟨some e, rfl⟩
    · refine ⟨none, ?_⟩
      simp only [hrec, hr, if_neg href, if_neg hp]
      rw [← view_of_postConsume w hclamp hpost]
      rfl

/-- **The result of a pre-consume is what the database says after it**: the record of
the request, and the subscription it is charged to. -/
def Reports (requestId : String) (res : PreConsumeResult) (db : Db) : Prop :=
  db.record requestId = some ⟨res.userSubscriptionId, res.preConsumed, false⟩ ∧
    ∃ s, db.subs res.userSubscriptionId = some s ∧ res.amountTotal = s.amountTotal ∧
      res.amountUsedAfter = s.amountUsed

variable {cal : Calendar} {fuel : Nat}

theorem reports_preConsumeFrom {amount now : Int}
    {l : List (Int × UserSubscription)} {resets : List Int} {out : PreConsumeResult × Db × List Int}
    (h : preConsumeFrom cal fuel requestId amount now l db resets = .ok out) :
    Reports requestId out.1 out.2.1 ∧ out.1.preConsumed = amount := by
  induction l generalizing db resets with
  | nil => cases h
  | cons c l ih =>
    obtain ⟨id, sub⟩ := c
    unfold preConsumeFrom at h
    split at h
    · cases h
    split at h
    · cases h
    dsimp only at h
    split at h
    · exact ih h
    · cases h
      exact ⟨⟨Db.setRecord_self _ _ _, _, Db.setSub_self _ _ _, rfl, rfl⟩, rfl⟩

variable {fault : Fault}

theorem reports_preConsume {userId amount now : Int} {res : PreConsumeResult} {resets : List Int}
    (h : preConsumeUserSubscription cal fuel fault db requestId userId amount now =
      .ok (res, db', resets)) : Reports requestId res db' := by
  unfold preConsumeUserSubscription at h
  split at h
  · cases h
  split at h
  · cases h
  split at h
  · cases h
  split at h
  · cases h
  split at h
  · rename_i existing hrec
    split at h
    · cases h
    rename_i href
    split at h
    · cases h
    rename_i sub hsub
    cases h
    obtain ⟨id, pre, refunded⟩ := existing
    have hfalse : refunded = false := by simpa using href
    exact ⟨by rw [hrec, hfalse], sub, hsub, rfl, rfl⟩
  · split at h
    · cases h
    · exact (reports_preConsumeFrom h).1

/-- What a billing session gets of the result of a pre-consume. -/
def sessionResult (res : PreConsumeResult) (planInfo : Option (Int × String)) :
    SubscriptionPreConsumeResult :=
  ⟨res.userSubscriptionId, res.preConsumed, res.amountTotal, res.amountUsedAfter, planInfo⟩

/-- **`PreConsumeUserSubscription` is the primitive** on the subscription it settles on, if
it resets none on the way. -/
theorem view_preConsume {userId amount now : Int} {res : PreConsumeResult}
    (h : preConsumeUserSubscription cal fuel fault db requestId userId amount now =
      .ok (res, db', []))
    (hpos : 0 < res.userSubscriptionId) (planInfo : Option (Int × String)) :
    Billing.preConsumeUserSubscription (db.view w)
        (.ok ⟨res.userSubscriptionId, res.amountTotal, planInfo, hpos⟩) requestId userId amount =
      .ok (sessionResult res planInfo, db'.view w) := by
  obtain ⟨hamount, -, hcases⟩ := preConsume_ok h
  obtain ⟨hrec', s', hs', -, hafter⟩ := reports_preConsume h
  obtain ⟨hu, hid⟩ : ¬userId ≤ 0 ∧ GoText.trimSpace requestId ≠ "" := by
    unfold preConsumeUserSubscription at h
    split at h
    · cases h
    split at h
    · cases h
    exact ⟨‹_›, ‹_›⟩
  simp only [Billing.preConsumeUserSubscription, if_neg hu, if_neg hid, if_neg hamount.not_ge]
  have hview : (db.view w).record requestId = db.record requestId := rfl
  rcases hcases with ⟨r, hr, href, rfl, -, -⟩ | ⟨hr, ⟨db₁, s, hrel, hrec₁, hs₁, -, rfl⟩, -⟩
  · simp only [hview, hrec', Bool.false_eq_true, if_false, sessionResult]
    rw [hafter, ← used_of_subs hs']
    rfl
  · have hused := hrel.used_eq
    simp only [Db.setRecord_subs, Db.setSub_self, Option.some.injEq] at hs'
    subst hs'
    simp only [Db.setRecord_self, Option.some.injEq, PreConsumeRecord.mk.injEq] at hrec'
    have hold : s.amountUsed = db.used res.userSubscriptionId := by
      rw [← hused, used_of_subs hs₁]
    simp only [hview, hr, sessionResult, view_setRecord, ← hrec'.2.1, hafter]
    rw [view_setSub (d := amount) (by rw [hused, ← hold]), view_congr hused hrec₁, hold]
    rfl

/-- A pre-consume that returns an error is the primitive that ends with it. -/
theorem view_preConsume_error {userId amount now : Int} {e : String}
    (h : preConsumeUserSubscription cal fuel fault db requestId userId amount now =
      .error (.error e)) :
    Billing.preConsumeUserSubscription (db.view w) (.error e) requestId userId amount =
      .error e := by
  unfold preConsumeUserSubscription at h
  unfold Billing.preConsumeUserSubscription
  by_cases hu : userId ≤ 0
  · rw [if_pos hu] at h ⊢
    cases h
    rfl
  rw [if_neg hu] at h ⊢
  by_cases hid : GoText.trimSpace requestId = ""
  · rw [if_pos hid] at h ⊢
    cases h
    rfl
  rw [if_neg hid] at h ⊢
  by_cases ha : amount ≤ 0
  · rw [if_pos ha] at h ⊢
    cases h
    rfl
  · rw [if_neg ha]

end Primitives

/-! ### Runs -/

/-- What a call may do to the accounts: a primitive is called, with any subscription it
may settle on and any fault. A delta is issued on the subscription of the record, and a
reset that is not due is none of the accounts' business. -/
inductive AccountStep : Accounts → Event → Accounts → Prop
  | preConsume (w : Accounts) (r : String) (userId amount now : Int) (fuel : Nat)
      (o : Except String ChosenSubscription) :
    AccountStep w (.preConsume r userId amount now fuel)
      (logged w ((Billing.preConsumeUserSubscription w o r userId amount).map Prod.snd))
  | refund (w : Accounts) (r : String) (f : Fault) :
    AccountStep w (.refund r) (logged w (Billing.refundSubscriptionPreConsume f w r))
  | delta (w : Accounts) (r : String) (d : Int) (f : Fault) (rec : PreConsumeRecord)
      (hrec : w.record r = some rec) :
    AccountStep w (.delta r d)
      (logged w (Billing.postConsumeUserSubscriptionDelta f w rec.userSubscriptionId d))
  | noSession (w : Accounts) (r : String) (d : Int) (hrec : w.record r = none) :
    AccountStep w (.delta r d) w
  | resetDue (w : Accounts) (id now : Int) (fuel : Nat) : AccountStep w (.resetDue id now fuel) w

/-- The ids of the subscriptions are primary keys, hence positive. -/
def KeysPositive (db : Db) : Prop := ∀ i s, db.subs i = some s → 0 < i

section Runs

variable {cal : Calendar} {x : Ledger} {e : Event}

theorem KeysPositive.step (h : KeysPositive x.db) (cal : Calendar) (e : Event) :
    KeysPositive (x.step cal e).db := by
  have hupdate : ∀ {db db' : Db} {id : Int} {s s' : UserSubscription}, KeysPositive db →
      db.subs id = some s → db'.subs = Function.update db.subs id (some s') →
      KeysPositive db' := by
    intro db db' id s s' hdb hs hsubs i t ht
    rw [hsubs] at ht
    rcases update_eq_some ht with ⟨rfl, -⟩ | ⟨-, ht⟩
    · exact hdb i s hs
    · exact hdb i t ht
  have hcleared : ∀ {z : Ledger} {resets : List Int}, Cleared x z resets → KeysPositive z.db := by
    intro z resets hc i t ht
    obtain ⟨t₀, ht₀, -⟩ := hc.subs.origin ht
    exact h i t₀ ht₀
  rcases step_cases cal x e with hcl | ⟨r, amount, id, z, -, hcl, hent⟩ |
      ⟨r, rec, -, -, -, hm⟩ | ⟨r, rec, d, -, -, hm⟩
  · exact hcleared hcl
  · obtain ⟨s, hs, -, hsubs⟩ := hent.subs
    exact hupdate (hcleared hcl) hs hsubs
  · obtain ⟨s, hs, -, hsubs⟩ := hm.subs
    exact hupdate h hs hsubs
  · obtain ⟨s, hs, -, hsubs⟩ := hm.subs
    exact hupdate h hs hsubs

variable {r : String}

theorem accountStep_preConsume (w : Accounts) (hkeys : KeysPositive x.db)
    {userId amount now : Int} {fuel : Nat}
    (hno : resetsOf cal x.db (.preConsume r userId amount now fuel) = []) :
    AccountStep (x.db.view w) (.preConsume r userId amount now fuel)
      ((Ledger.call cal x.db (.preConsume r userId amount now fuel)).2.view w) := by
  have hstep := AccountStep.preConsume (x.db.view w) r userId amount now fuel
  rcases hp : preConsumeUserSubscription cal fuel none x.db r userId amount now with
    (m | _) | ⟨res, db', resets⟩
  · have ho := hstep (.error m)
    rw [view_preConsume_error w hp] at ho
    simp only [Ledger.call, hp]
    exact ho
  · -- a call that does not return is one the primitive declines, for any reason
    have ho := hstep (.error "")
    have hdeclined : logged (x.db.view w) ((Billing.preConsumeUserSubscription (x.db.view w)
        (.error "") r userId amount).map Prod.snd) = x.db.view w := by
      unfold Billing.preConsumeUserSubscription
      split_ifs <;> rfl
    rw [hdeclined] at ho
    simpa only [Ledger.call, hp] using ho
  · have hnil : resets = [] := by simpa only [resetsOf, hp] using hno
    subst hnil
    obtain ⟨-, s, hs, -⟩ := reports_preConsume hp
    have hpos : 0 < res.userSubscriptionId := by
      have hkeys' := hkeys.step cal (.preConsume r userId amount now fuel)
      rw [step_db] at hkeys'
      simp only [Ledger.call, hp] at hkeys'
      exact hkeys' _ s hs
    have ho := hstep (.ok ⟨res.userSubscriptionId, res.amountTotal, none, hpos⟩)
    rw [view_preConsume w hp hpos none] at ho
    simp only [Ledger.call, hp]
    exact ho

theorem accountStep_refund (w : Accounts) {db : Db}
    (hclamp : ∀ rec, db.record r = some rec → rec.refunded = false →
      NoClamp db rec.userSubscriptionId (-rec.preConsumed)) :
    AccountStep (db.view w) (.refund r) ((Ledger.call cal db (.refund r)).2.view w) := by
  have hmark : ∀ e, RefundFault.none ≠ .mark e := nofun
  obtain ⟨f, hf⟩ := view_refund w hmark hclamp
  have hstep := AccountStep.refund (db.view w) r f
  rw [hf] at hstep
  have hout : logged (db.view w) (refundOutcome w (refundSubscriptionPreConsume .none db r)) =
      (refundSubscriptionPreConsume .none db r).2.view w := by
    rcases hr : refundSubscriptionPreConsume .none db r with ⟨_ | e, db'⟩
    · rfl
    · rcases refund_none db r with ⟨-, hdb⟩ | ⟨rec, -, hok, -⟩
      · rw [hr] at hdb
        rw [hdb]
        rfl
      · rw [hr] at hok
        cases hok
  simp only [Ledger.call]
  rw [hout] at hstep
  exact hstep

theorem accountStep_delta (w : Accounts) {db : Db} {d : Int}
    (hclamp : ∀ rec, db.record r = some rec → NoClamp db rec.userSubscriptionId d) :
    AccountStep (db.view w) (.delta r d) ((Ledger.call cal db (.delta r d)).2.view w) := by
  rcases hrec : db.record r with _ | rec
  · simp only [Ledger.call, hrec]
    exact AccountStep.noSession _ r d hrec
  obtain ⟨f, hf⟩ := view_postConsume w (hclamp rec hrec)
  have hstep := AccountStep.delta (db.view w) r d f rec hrec
  rw [hf] at hstep
  rcases hpost : postConsumeUserSubscriptionDelta db rec.userSubscriptionId d with e | db'
  all_goals
    rw [hpost] at hstep
    simp only [Ledger.call, hrec, hpost]
    exact hstep

/-- **An orderly call is a step of the accounts.** -/
theorem accountStep_of_orderly (w : Accounts) (h : InBalance x) (hkeys : KeysPositive x.db)
    (hc : Orderly cal x e) :
    AccountStep (x.db.view w) e ((x.step cal e).db.view w) := by
  obtain ⟨⟨hno, hdelta⟩, hrefund⟩ := hc
  rw [step_db]
  cases e with
  | preConsume r userId amount now fuel => exact accountStep_preConsume w hkeys hno
  | refund r =>
    refine accountStep_refund w fun rec hrec href s hs => ?_
    have hle := hrefund rec hrec href
    exact h.used_add_nonneg hrec (by omega) hs
  | delta r d =>
    exact accountStep_delta w fun rec hrec s hs => h.used_add_nonneg hrec hdelta.2 hs
  | resetDue id now fuel =>
    have hview : (Ledger.call cal x.db (.resetDue id now fuel)).2.view w = x.db.view w := by
      rcases hr : resetDueSubscription cal fuel x.db id now with e | ⟨db', resets⟩
      · simp only [Ledger.call, hr]
      · have hnil : resets = [] := by simpa only [resetsOf, hr] using hno
        subst hnil
        obtain ⟨hrel, hrec⟩ := resetDue_ok hr
        simp only [Ledger.call, hr]
        exact view_congr hrel.used_eq hrec
    rw [hview]
    exact AccountStep.resetDue _ id now fuel

/-- **Every orderly run of the store is a run of the accounts.** -/
theorem accountRuns_of_orderly (w : Accounts) {db : Db} {es : List Event} (hdb : Fresh db)
    (hkeys : KeysPositive db) (h : Along (Ledger.step cal) (Orderly cal) (.start db) es) :
    Runs AccountStep (db.view w) es ((run (Ledger.step cal) (.start db) es).db.view w) :=
  refines_run (I := fun x => InBalance x ∧ KeysPositive x.db) (fun x : Ledger => x.db.view w)
    (fun _ e hx hc => ⟨hx.1.step hc, hx.2.step cal e⟩)
    (fun _ _ hx hc => accountStep_of_orderly w hx.1 hx.2 hc)
    ⟨inBalance_start hdb, hkeys⟩ h

end Runs

end NewApiPool.Subscription
