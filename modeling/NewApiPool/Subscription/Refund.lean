import NewApiPool.Subscription.Balance

/-!
# Refunds that are tried again

`RefundSubscriptionPreConsume` is documented as idempotent, and `refundWithRetry` calls
it up to three times on the strength of that. It is two transactions: the one that
lowers the used amount runs, and commits, on a connection of its own, and the one that
marks the record as refunded may still fail after it. An attempt that fails there leaves
a record that looks untouched, and the next attempt gives the amount back a second time.

The book of `NewApiPool.Subscription.RefundBook` keeps, for each request, what the
pre-consume has added to the used amount, what its refunds have subtracted, and whether
an attempt has failed between the two commits. Over every run of the three functions,
with any fault in any of their statements, no request is given back more than was taken
for it as long as no attempt reaches the balance after one that failed between the
commits (`NewApiPool.Subscription.subtracted_le_added`).
-/

namespace NewApiPool.Subscription

open EventSystem Billing

-- the proofs below go by `refund_cases` and never look into the call itself
attribute [local irreducible] refundSubscriptionPreConsume

/-! ### The book -/

/-- The attempt gets as far as the transaction that changes the balance. -/
def RefundFault.reachesBalance : RefundFault → Bool
  | .none => true
  | .query _ => false
  | .delta _ => false
  | .mark _ => true

/-- **The attempt fails between the two commits**: the balance is changed, and the mark
on the record is lost. -/
def failsHalfway (fault : RefundFault) (db : Db) (requestId : String) : Bool :=
  match fault, db.record requestId with
  | .mark _, some record =>
    decide (GoText.trimSpace requestId ≠ "") && !record.refunded &&
      decide (0 < record.preConsumed) &&
      (postConsumeUserSubscriptionDelta db record.userSubscriptionId (-record.preConsumed)).isOk
  | _, _ => false

/-- The database, and what happened to the used amounts for each request. -/
structure RefundBook where
  db : Db
  added : String → Int
  subtracted : String → Int
  halfway : String → Bool

/-- The calls, with the faults that hit them. -/
inductive RefundEvent where
  | preConsume (requestId : String) (userId amount now : Int) (fuel : Nat) (fault : Fault)
  | refund (requestId : String) (fault : RefundFault)
  | refundWithRetry (requestId : String) (fault₁ fault₂ fault₃ : RefundFault)
deriving DecidableEq

namespace RefundBook

/-- A book without entries. -/
def start (db : Db) : RefundBook := ⟨db, fun _ => 0, fun _ => 0, fun _ => false⟩

/-- By how much the used amount of the subscription of a request is lower in `db`. -/
def lowered (x : RefundBook) (db : Db) (r : String) : Int :=
  match x.db.record r with
  | none => 0
  | some record => x.db.used record.userSubscriptionId - db.used record.userSubscriptionId

/-- One attempt to refund a request. -/
def attempt (x : RefundBook) (r : String) (fault : RefundFault) : Option String × RefundBook :=
  ((refundSubscriptionPreConsume fault x.db r).1,
    { x with
      db := (refundSubscriptionPreConsume fault x.db r).2
      subtracted := Function.update x.subtracted r
        (x.subtracted r + x.lowered (refundSubscriptionPreConsume fault x.db r).2 r)
      halfway := Function.update x.halfway r (x.halfway r || failsHalfway fault x.db r) })

/-- The attempts of `refundWithRetry`. -/
def retry (x : RefundBook) (r : String) : List RefundFault → Option String × RefundBook
  | [] => (none, x)
  | [f] => x.attempt r f
  | f :: fs =>
    match x.attempt r f with
    | (none, y) => (none, y)
    | (some _, y) => retry y r fs

/-- One call. A pre-consume reports the used amount before and after it. -/
def step (cal : Calendar) (x : RefundBook) : RefundEvent → RefundBook
  | .preConsume r userId amount now fuel fault =>
    match preConsumeUserSubscription cal fuel fault x.db r userId amount now with
    | .error _ => x
    | .ok (res, db', _) =>
      { x with
        db := db'
        added := Function.update x.added r
          (x.added r + (res.amountUsedAfter - res.amountUsedBefore)) }
  | .refund r fault => (x.attempt r fault).2
  | .refundWithRetry r f₁ f₂ f₃ => (x.retry r [f₁, f₂, f₃]).2

end RefundBook

/-! ### The condition -/

/-- An attempt that comes after one that has failed between the commits does not reach
the balance. -/
def Separate (x : RefundBook) (r : String) (fault : RefundFault) : Prop :=
  x.halfway r = true → fault.reachesBalance = false

/-- The same for the attempts of `refundWithRetry` that are made. -/
def SeparateRetry (x : RefundBook) (r : String) : List RefundFault → Prop
  | [] => True
  | f :: fs => Separate x r f ∧
    ((x.attempt r f).1 ≠ none → SeparateRetry (x.attempt r f).2 r fs)

/-- **No attempt reaches the balance after one that has failed between the commits.** -/
def NoSecondGiveBack (x : RefundBook) : RefundEvent → Prop
  | .preConsume _ _ _ _ _ _ => True
  | .refund r fault => Separate x r fault
  | .refundWithRetry r f₁ f₂ f₃ => SeparateRetry x r [f₁, f₂, f₃]

instance decidableSeparate (x : RefundBook) (r : String) (fault : RefundFault) :
    Decidable (Separate x r fault) :=
  inferInstanceAs (Decidable (x.halfway r = true → fault.reachesBalance = false))

instance decidableSeparateRetry : ∀ (x : RefundBook) (r : String) (fs : List RefundFault),
    Decidable (SeparateRetry x r fs)
  | _, _, [] => inferInstanceAs (Decidable True)
  | x, r, f :: fs =>
    @instDecidableAnd _ _ _ (@instDecidableForall _ _ _
      (decidableSeparateRetry (x.attempt r f).2 r fs))

instance decidableNoSecondGiveBack (x : RefundBook) : ∀ e, Decidable (NoSecondGiveBack x e)
  | .preConsume _ _ _ _ _ _ => inferInstanceAs (Decidable True)
  | .refund r fault => inferInstanceAs (Decidable (Separate x r fault))
  | .refundWithRetry r f₁ f₂ f₃ => inferInstanceAs (Decidable (SeparateRetry x r [f₁, f₂, f₃]))

/-! ### What is given back -/

/-- **Where a request stands.** Without a record nothing has happened to it. With one,
its amount was added; and nothing was subtracted if the record is neither marked nor
left behind by an attempt that failed between the commits. -/
def InOrder (x : RefundBook) (r : String) : Prop :=
  match x.db.record r with
  | none => x.added r = 0 ∧ x.subtracted r = 0
  | some record => x.added r = record.preConsumed ∧ 0 < record.preConsumed ∧
      x.subtracted r ≤ record.preConsumed ∧
      (record.refunded = false → x.halfway r = false → x.subtracted r = 0)

section Inv

variable {cal : Calendar} {x y : RefundBook} {r q : String} {fault : RefundFault}

theorem inOrder_none (h : x.db.record r = none) :
    InOrder x r ↔ x.added r = 0 ∧ x.subtracted r = 0 := by
  unfold InOrder
  rw [h]

theorem inOrder_some {record : PreConsumeRecord} (h : x.db.record r = some record) :
    InOrder x r ↔ x.added r = record.preConsumed ∧ 0 < record.preConsumed ∧
      x.subtracted r ≤ record.preConsumed ∧
      (record.refunded = false → x.halfway r = false → x.subtracted r = 0) := by
  unfold InOrder
  rw [h]

/-- A request in order is never given back more than was taken for it. -/
theorem InOrder.subtracted_le (h : InOrder x r) : x.subtracted r ≤ x.added r := by
  rcases hr : x.db.record r with _ | record
  · obtain ⟨hadd, hsub⟩ := (inOrder_none hr).mp h
    omega
  · obtain ⟨hadd, -, hsub, -⟩ := (inOrder_some hr).mp h
    omega

/-- What a call does to one request does not touch the others. -/
theorem InOrder.frame (h : InOrder x q) (hrec : y.db.record q = x.db.record q)
    (hadd : y.added q = x.added q) (hsub : y.subtracted q = x.subtracted q)
    (hhalf : y.halfway q = x.halfway q) : InOrder y q := by
  unfold InOrder at h ⊢
  rw [hrec, hadd, hsub, hhalf]
  exact h

theorem InOrder.attempt_same (h : InOrder x r)
    (hdb : (refundSubscriptionPreConsume fault x.db r).2 = x.db) :
    InOrder (x.attempt r fault).2 r := by
  have hlow : x.lowered x.db r = 0 := by
    unfold RefundBook.lowered
    split
    · rfl
    · exact Int.sub_self _
  have hrec : (x.attempt r fault).2.db.record r = x.db.record r := by
    simp only [RefundBook.attempt, hdb]
  have hsub : (x.attempt r fault).2.subtracted r = x.subtracted r := by
    simp [RefundBook.attempt, hdb, hlow]
  have hhalf : (x.attempt r fault).2.halfway r = false → x.halfway r = false := by
    simp only [RefundBook.attempt, Function.update_self, Bool.or_eq_false_iff]
    exact fun hh => hh.1
  unfold InOrder at h ⊢
  rw [hrec, hsub]
  split
  · rename_i hr
    rw [hr] at h
    exact h
  · rename_i record hr
    rw [hr] at h
    obtain ⟨hadd, hpos, hle, hzero⟩ := h
    exact ⟨hadd, hpos, hle, fun href hh => hzero href (hhalf hh)⟩

/-- What a delta lowers the used amount by, when it gives `p` back. -/
theorem lowered_le {record : PreConsumeRecord} {db' : Db} (hr : x.db.record r = some record)
    (hd : postConsumeUserSubscriptionDelta x.db record.userSubscriptionId (-record.preConsumed) =
      .ok db') (hpos : 0 < record.preConsumed) : x.lowered db' r ≤ record.preConsumed := by
  rcases postConsume_ok hd with ⟨hzero, -⟩ | ⟨s, hs, -, rfl⟩
  · omega
  · simp only [RefundBook.lowered, hr, Db.used, hs, Db.setSub_self, Option.map_some,
      Option.getD_some]
    omega

/-- **One attempt keeps the request in order.** -/
theorem InOrder.attempt (h : InOrder x r) (hsep : Separate x r fault) :
    InOrder (x.attempt r fault).2 r := by
  rcases refund_cases fault x.db r with ⟨hdb, -⟩ | ⟨record, hid, hr, href, hcases⟩
  · exact h.attempt_same hdb
  obtain ⟨hadd, hpos, -, hzero⟩ := (inOrder_some hr).mp h
  rcases hcases with ⟨hp, -⟩ | ⟨-, db', hd, hcases⟩
  · omega
  have hlow := lowered_le hr hd hpos
  -- in the two cases that are left the attempt has reached the balance, so it is the first
  have hfirst : fault.reachesBalance = true → x.subtracted r = 0 := by
    intro hreach
    refine hzero href ?_
    by_contra hhalf
    have := hsep (by simpa using hhalf)
    rw [hreach] at this
    cases this
  rcases hcases with ⟨e, rfl, hout⟩ | ⟨rfl, hout⟩
  · have hhalf : failsHalfway (.mark e) x.db r = true := by
      simp [failsHalfway, hr, hid, href, hpos, hd, Except.isOk, Except.toBool]
    have hr' : (x.attempt r (.mark e)).2.db.record r = some record := by
      simp only [RefundBook.attempt, hout, postConsume_record hd, hr]
    refine (inOrder_some hr').mpr ⟨hadd, hpos, ?_, fun _ hcon => ?_⟩
    · simp only [RefundBook.attempt, hout, Function.update_self, hfirst rfl]
      omega
    · simp [RefundBook.attempt, hhalf] at hcon
  · have hr' : (x.attempt r .none).2.db.record r = some { record with refunded := true } := by
      simp only [RefundBook.attempt, hout, Db.setRecord_self]
    refine (inOrder_some hr').mpr ⟨hadd, hpos, ?_, fun hcon => by cases hcon⟩
    simp only [RefundBook.attempt, hout, Function.update_self, hfirst rfl]
    have : x.lowered (db'.setRecord r { record with refunded := true }) r = x.lowered db' r := rfl
    omega

/-- An attempt touches the record of its request only. -/
theorem attempt_record_ne (hq : q ≠ r) :
    (x.attempt r fault).2.db.record q = x.db.record q := by
  simp only [RefundBook.attempt]
  rcases refund_cases fault x.db r with ⟨hdb, -⟩ | ⟨record, -, -, -, hcases⟩
  · rw [hdb]
  rcases hcases with ⟨-, hout⟩ | ⟨-, db', hd, ⟨e, -, hout⟩ | ⟨-, hout⟩⟩
  · rw [hout]
    exact Db.setRecord_ne _ _ hq
  · rw [hout, postConsume_record hd]
  · rw [hout]
    exact (Db.setRecord_ne _ _ hq).trans (by rw [postConsume_record hd])

theorem InOrder.attempt_ne (h : InOrder x q) (hq : q ≠ r) : InOrder (x.attempt r fault).2 q :=
  h.frame (attempt_record_ne hq) rfl (Function.update_of_ne hq _ _) (Function.update_of_ne hq _ _)

/-- Every request is in order after an attempt, if it was before. -/
theorem inOrder_attempt (h : ∀ q, InOrder x q) (hsep : Separate x r fault) :
    ∀ q, InOrder (x.attempt r fault).2 q := by
  intro q
  by_cases hq : q = r
  · subst hq
    exact (h q).attempt hsep
  · exact (h q).attempt_ne hq

/-- The attempts of `refundWithRetry`, one after the other. -/
theorem inOrder_retry {fs : List RefundFault} (h : ∀ q, InOrder x q)
    (hsep : SeparateRetry x r fs) : ∀ q, InOrder (x.retry r fs).2 q := by
  induction fs generalizing x with
  | nil => exact h
  | cons f fs ih =>
    obtain ⟨hf, hrest⟩ := hsep
    have hone := inOrder_attempt h hf
    cases fs with
    | nil => exact hone
    | cons f' fs =>
      rcases hout : x.attempt r f with ⟨_ | e, y⟩
      · rw [hout] at hone
        simpa only [RefundBook.retry, hout] using hone
      · rw [hout] at hone hrest
        simpa only [RefundBook.retry, hout] using ih hone (hrest nofun)

theorem inOrder_preConsume {userId amount now : Int} {fuel : Nat} {f : Fault}
    (h : ∀ q, InOrder x q) :
    ∀ q, InOrder (x.step cal (.preConsume r userId amount now fuel f)) q := by
  rcases hp : preConsumeUserSubscription cal fuel f x.db r userId amount now with
    e | ⟨res, db', resets⟩
  · simpa only [RefundBook.step, hp] using h
  intro q
  simp only [RefundBook.step, hp]
  obtain ⟨hpos, -, ⟨rec, hrec, -, rfl, -, hres⟩ | ⟨hrec, hnew, hres⟩⟩ := preConsume_ok hp
  · refine (h q).frame rfl ?_ rfl rfl
    by_cases hq : q = r
    · subst hq
      simp [hres]
    · exact Function.update_of_ne hq _ _
  · obtain ⟨db₁, s, -, hrec₁, -, -, rfl⟩ := hnew
    by_cases hq : q = r
    · subst hq
      obtain ⟨hadd, hsub⟩ := (inOrder_none hrec).mp (h q)
      refine (inOrder_some (Db.setRecord_self _ _ _)).mpr ⟨?_, hpos, ?_, fun _ _ => hsub⟩
      · simp [hadd, hres]
      · exact hsub.trans_le hpos.le
    · refine (h q).frame ?_ (Function.update_of_ne hq _ _) rfl rfl
      exact (Db.setRecord_ne _ _ hq).trans (by rw [Db.setSub_record, hrec₁])

/-- **A call keeps every request in order.** -/
theorem inOrder_step (e : RefundEvent) (h : ∀ q, InOrder x q) (hc : NoSecondGiveBack x e) :
    ∀ q, InOrder (x.step cal e) q := by
  cases e with
  | preConsume r userId amount now fuel f => exact inOrder_preConsume h
  | refund r fault => exact inOrder_attempt h hc
  | refundWithRetry r f₁ f₂ f₃ => exact inOrder_retry h hc

end Inv

/-- **No request is given back more than was taken for it**, in every run in which no
attempt reaches the balance after one that has failed between the commits. -/
theorem subtracted_le_added {cal : Calendar} {db : Db} {es : List RefundEvent}
    (hdb : ∀ r, db.record r = none)
    (h : Along (RefundBook.step cal) NoSecondGiveBack (.start db) es) (r : String) :
    (run (RefundBook.step cal) (.start db) es).subtracted r ≤
      (run (RefundBook.step cal) (.start db) es).added r := by
  have hstart : ∀ q, InOrder (.start db) q := fun q => (inOrder_none (hdb q)).mpr ⟨rfl, rfl⟩
  have hinv : ∀ q, InOrder (run (RefundBook.step cal) (.start db) es) q :=
    inv_run (I := fun x => ∀ q, InOrder x q) (fun _ e hx hc => inOrder_step e hx hc) hstart h
  exact (hinv r).subtracted_le

/-- One request is refunded by the third attempt, after a query and a delta that failed;
the refund of the other fails between the commits and does not get through again. -/
def faultyRun : List RefundEvent :=
  [.preConsume "a" 7 100 2000 9 none, .preConsume "b" 7 100 2001 9 none,
    .refundWithRetry "a" (.query "timeout") (.delta "deadlock") .none,
    .refundWithRetry "b" (.mark "timeout") (.query "timeout") (.delta "timeout"), .refund "a" .none]

/-- Both are given back what was taken for them. -/
theorem subtracted_le_added_faultyRun :
    Along (RefundBook.step sampleCalendar) NoSecondGiveBack (.start sampleDb) faultyRun ∧
      ∀ r, (run (RefundBook.step sampleCalendar) (.start sampleDb) faultyRun).subtracted r ≤
        (run (RefundBook.step sampleCalendar) (.start sampleDb) faultyRun).added r :=
  ⟨by decide +kernel, subtracted_le_added (fun _ => rfl) (by decide +kernel)⟩

/-- **A retry after a lost mark gives back twice**: 100 units were taken for the request
and 200 are given back, the other 100 out of the quota of another request. -/
theorem retry_gives_back_twice :
    ¬ ((run (RefundBook.step sampleCalendar) (.start sampleDb)
        [.preConsume "a" 7 100 2000 9 none, .preConsume "b" 7 100 2001 9 none,
          .refundWithRetry "a" (.mark "timeout") .none .none]).subtracted "a" ≤
      (run (RefundBook.step sampleCalendar) (.start sampleDb)
        [.preConsume "a" 7 100 2000 9 none, .preConsume "b" 7 100 2001 9 none,
          .refundWithRetry "a" (.mark "timeout") .none .none]).added "a") := by
  decide +kernel

end NewApiPool.Subscription
