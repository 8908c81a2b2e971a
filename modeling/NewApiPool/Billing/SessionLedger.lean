import NewApiPool.Lib.Runs
import NewApiPool.Billing.Session

/-!
# What a billing session charges

A billing session is for one thing: to end with its request having paid exactly
once for what it used. That is `NewApiPool.Billing.Charge`, the abstract life of a
charge – an amount is *held*, then the charge is *settled* at the actual cost or
*refunded* – and this file proves that the session keeps two sets of books, the
funding source and the token, that both agree with it
(`NewApiPool.Billing.books_exec`), whatever calls of the database fail on the way.

The agreement starts at `NewBillingSession`, and there is one input for which it
does not: a wallet session that is not trusted, opened with a negative amount,
takes nothing from the wallet but records the negative amount as pre-consumed, so
that `Settle` then charges the difference on top. `NewApiPool.Billing.ledgerLaw_iff`
says that this, and a request id that was used before, are the only ways to miss
the law.
-/

namespace NewApiPool.Billing

open EventSystem GoText

/-! ### The parties to a charge -/

/-- The account of a funding source. -/
def FundingSource.account : FundingSource → FundingAccount
  | .wallet wf => (.wallet, wf.userId)
  | .subscription sf => (.subscription, sf.subscriptionId)

/-- What a session never changes: whom it charges, and under which terms. -/
structure Party where
  account : FundingAccount
  tokenId : Int
  isPlayground : Bool
  tokenUnlimited : Bool
  trusted : Bool
deriving DecidableEq

/-- The party of a session. -/
def BillingSession.party (s : BillingSession) : Party :=
  ⟨s.funding.account, s.relayInfo.tokenId, s.relayInfo.isPlayground, s.relayInfo.tokenUnlimited,
    s.trusted⟩

/-- What the token of a party owes when the funding source owes `n`. -/
def Party.tokenShare (p : Party) (n : Int) : Int := if p.isPlayground then 0 else n

/-- The accounts with `d` charged to the token, in playground mode nothing. -/
def Accounts.chargeToken (w : Accounts) (p : Party) (d : Int) : Accounts :=
  if p.isPlayground then w else w.addToken p.tokenId (-d)

section Charging

variable (w₀ w : Accounts) (a : FundingAccount) (p : Party) (d : Int)

@[simp] theorem fundingDebit_chargeToken :
    fundingDebit w₀ (w.chargeToken p d) a = fundingDebit w₀ w a := by
  unfold fundingDebit Accounts.chargeToken
  by_cases hp : p.isPlayground = true <;> rcases a with ⟨_ | _, i⟩ <;> simp [hp]

@[simp] theorem tokenDebit_chargeToken :
    tokenDebit w₀ (w.chargeToken p d) p.tokenId = tokenDebit w₀ w p.tokenId + p.tokenShare d := by
  unfold tokenDebit Accounts.chargeToken Party.tokenShare
  by_cases hp : p.isPlayground = true
  · simp [hp]
  · simp [hp]
    omega

@[simp] theorem chargeToken_record : (w.chargeToken p d).record = w.record := by
  unfold Accounts.chargeToken
  split <;> simp

theorem chargeToken_cancel : (w.chargeToken p d).chargeToken p (-d) = w := by
  unfold Accounts.chargeToken
  by_cases hp : p.isPlayground = true
  · simp [hp]
  · simpa [hp] using w.addToken_cancel p.tokenId d

theorem tokenShare_add (m n : Int) : p.tokenShare (m + n) = p.tokenShare m + p.tokenShare n := by
  unfold Party.tokenShare
  split <;> simp

@[simp] theorem tokenShare_zero : p.tokenShare 0 = 0 := by
  simp [Party.tokenShare]

end Charging

/-! ### The calls on a session and the charge they stand for -/

/-- A call on a session, with what the database answers to it. A rollback and the
refund goroutine are not hit by faults. -/
inductive Call where
  /-- `Reserve(targetQuota)` -/
  | reserve (targetQuota : Int) (funding : Fault) (tokenByKey : Except String Int) (token : Fault)
  /-- `Settle(actualQuota)` -/
  | settle (actualQuota : Int) (funding token : Fault)
  /-- `Refund` -/
  | refund

/-- One call on the session, with the accounts it leaves. -/
def exec (cfg : Config) (x : BillingSession × Accounts) : Call → BillingSession × Accounts
  | .reserve t f r g => (x.1.reserve cfg t ⟨f, r, g, none⟩ x.2).2
  | .settle a f g => (x.1.settle a f g x.2).2
  | .refund => x.1.refund .ok x.2

/-- The life of a charge. -/
inductive Charge where
  /-- An amount is held: what was pre-consumed and reserved. -/
  | held (amount : Int)
  /-- The charge is settled at the actual cost; the flag says whether the token
  was adjusted too. -/
  | settled (actualQuota : Int) (tokenOk : Bool)
  /-- The charge is given back. -/
  | refunded
deriving DecidableEq

namespace Charge

/-- What the charge comes to. -/
def amount : Charge → Int
  | .held n => n
  | .settled a _ => a
  | .refunded => 0

/-- Whether the token has followed the funding source. -/
def tokenOk : Charge → Bool
  | .settled _ ok => ok
  | _ => true

/-- Whether the charge is settled or refunded. -/
def final : Charge → Bool
  | .held _ => false
  | _ => true

end Charge

/-- Whether the token lets `delta` more be reserved: it is found, it has the quota
or is unlimited, and the call that takes it does not fail. -/
def Party.tokenAccepts (p : Party) (delta : Int) (tokenByKey : Except String Int) (f : Fault) :
    Bool :=
  p.isPlayground || match tokenByKey with
    | .error _ => false
    | .ok remainQuota => (p.tokenUnlimited || delta ≤ remainQuota) && f.isNone

/-- **What a call does to a charge.** A reserve raises the amount held, if both
books accept it; the first settlement whose funding adjustment succeeds – or needs
none – fixes the charge; a refund of a non-zero amount gives it back; and nothing
happens to a charge that is settled or refunded. -/
def Charge.step (p : Party) : Charge → Call → Charge
  | .held n, .reserve t f r g =>
    if p.trusted = false ∧ n < t ∧ f = none ∧ p.tokenAccepts (t - n) r g then .held t else .held n
  | .held n, .settle a f g =>
    if a = n ∨ f = none then .settled a (decide (a = n ∨ p.isPlayground = true ∨ g = none))
    else .held n
  | .held n, .refund => if 0 < n then .refunded else .held n
  | c, _ => c

/-- The calls the law is about: a settlement does not come after a refund that
took effect. -/
def Allowed (x : BillingSession × Accounts) : Call → Prop
  | .settle _ _ _ => x.1.refunded = false
  | _ => True

/-- **The law of a session** opened on the accounts `w₀`, standing at `s` with the
accounts `w₁`: after any calls, both books say what the charge says, a final
charge is not touched again, and a reserve that fails leaves everything as it
was. -/
def LedgerLaw (cfg : Config) (w₀ : Accounts) (s : BillingSession) (w₁ : Accounts) : Prop :=
  ∀ calls : List Call, Along (exec cfg) Allowed (s, w₁) calls →
    let x := run (exec cfg) (s, w₁) calls
    let c := run (Charge.step s.party) (.held s.preConsumedQuota) calls
    fundingDebit w₀ x.2 s.party.account = c.amount ∧
    (c.tokenOk = true → tokenDebit w₀ x.2 s.party.tokenId = s.party.tokenShare c.amount) ∧
    (c.final = true → ∀ call, Allowed x call → exec cfg x call = x) ∧
    ∀ t f r g, (x.1.reserve cfg t ⟨f, r, g, none⟩ x.2).1 ≠ none →
      exec cfg x (.reserve t f r g) = x

/-! ### What each call does

One lemma for each function of the source, in terms of `Accounts.charge` and
`Accounts.chargeToken`: the proofs below never look inside them again. -/

/-- The subscription of a funding source, if it has one, is a row. -/
def FundingSource.IdPos : FundingSource → Prop
  | .wallet _ => True
  | .subscription sf => 0 < sf.subscriptionId

section Calls

variable {cfg : Config} {s : BillingSession} {w : Accounts} {f g : Fault} {delta : Int}
  {F : FundingSource}

theorem FundingSource.settle_none (hF : F.IdPos) (hd : delta ≠ 0) :
    F.settle none delta w = .ok (w.charge F.account delta) := by
  cases F with
  | wallet wf =>
    simp only [FundingSource.settle, if_neg hd, FundingSource.account, Accounts.charge]
    by_cases hpos : delta > 0
    · rw [if_pos hpos]
      exact quotaPrimitive_none hpos.le
    · rw [if_neg hpos]
      exact quotaPrimitive_none (by omega)
  | subscription sf =>
    simp only [FundingSource.settle, if_neg hd, FundingSource.account, Accounts.charge]
    exact postConsumeUserSubscriptionDelta_none hF delta

theorem FundingSource.settle_some (hF : F.IdPos) (hd : delta ≠ 0)
    (e : String) : F.settle (some e) delta w = .error e := by
  cases F with
  | wallet wf =>
    simp only [FundingSource.settle, if_neg hd, decreaseUserQuota, increaseUserQuota,
      quotaPrimitive]
    by_cases hpos : delta > 0
    · rw [if_pos hpos, if_neg (by omega)]
    · rw [if_neg hpos, if_neg (by omega)]
  | subscription sf =>
    have hid : ¬ sf.subscriptionId ≤ 0 := not_le.mpr hF
    simp only [FundingSource.settle, if_neg hd, postConsumeUserSubscriptionDelta, if_neg hid]

/-- The token step of a settlement follows the funding source unless it is hit by
a fault. -/
theorem settleToken_of_ok (hok : s.relayInfo.isPlayground = true ∨ f = none) :
    s.settleToken f delta w = (none, w.chargeToken s.party delta) := by
  unfold BillingSession.settleToken Accounts.chargeToken
  by_cases hp : s.relayInfo.isPlayground = true
  · simp [hp, BillingSession.party]
  · have hf : f = none := hok.resolve_left hp
    subst hf
    simp only [hp, BillingSession.party]
    by_cases hpos : delta > 0
    · simp [hpos, decreaseTokenQuota, quotaPrimitive_none hpos.le]
    · simp [hpos, increaseTokenQuota, quotaPrimitive_none (show 0 ≤ -delta by omega)]

theorem settleToken_account (a : FundingAccount) (w₀ : Accounts) :
    fundingDebit w₀ (s.settleToken f delta w).2 a = fundingDebit w₀ w a := by
  by_cases hok : s.relayInfo.isPlayground = true ∨ f = none
  · rw [settleToken_of_ok hok]
    simp
  · obtain ⟨hp, e, rfl⟩ : s.relayInfo.isPlayground = false ∧ ∃ e, f = some e := by
      rcases f with _ | e <;> simp_all
    unfold BillingSession.settleToken
    by_cases hpos : delta > 0
    · simp [hp, hpos, decreaseTokenQuota, quotaPrimitive, not_lt.mpr hpos.le]
    · simp [hp, hpos, increaseTokenQuota, quotaPrimitive]

/-- The session after a reserve of `delta` that both books accepted. -/
def BillingSession.raise (s : BillingSession) (delta : Int) : BillingSession :=
  BillingSession.syncRelayInfo { s with
    funding := match s.funding with
      | .wallet wf => .wallet { wf with consumed := wf.consumed + delta }
      | .subscription sf => .subscription sf
    preConsumedQuota := s.preConsumedQuota + delta
    tokenConsumed := s.tokenConsumed + delta
    extraReserved := s.extraReserved + delta }

theorem reserveToken_of_accepts (hd : 0 < delta) {r : Except String Int}
    (h : s.party.tokenAccepts delta r g = true) :
    s.reserveToken cfg delta r g w = .ok (w.chargeToken s.party delta) := by
  unfold BillingSession.reserveToken Accounts.chargeToken
  by_cases hp : s.relayInfo.isPlayground = true
  · simp [hp, BillingSession.party]
  · rcases r with e | remain
    · simp [Party.tokenAccepts, BillingSession.party, hp] at h
    · obtain ⟨hquota, rfl⟩ : (s.relayInfo.tokenUnlimited = true ∨ delta ≤ remain) ∧ g = none := by
        simpa [Party.tokenAccepts, BillingSession.party, hp] using h
      have hguard : ¬ ((!s.relayInfo.tokenUnlimited && decide (remain < delta)) = true) := by
        rcases hquota with hu | hr
        · simp [hu]
        · simp [hr]
      simp only [hp, BillingSession.party, preConsumeTokenQuota, if_neg (show ¬ delta < 0 by omega),
        if_neg hguard, decreaseTokenQuota, quotaPrimitive_none hd.le,
        show ¬ delta ≤ 0 by omega, decide_false, Bool.or_false, Bool.false_eq_true, if_false]

theorem reserveToken_of_not_accepts (cfg : Config) (hd : 0 < delta) {r : Except String Int}
    (h : s.party.tokenAccepts delta r g = false) :
    ∃ e, s.reserveToken cfg delta r g w = .error e := by
  have hp : s.relayInfo.isPlayground = false := by
    cases hp : s.relayInfo.isPlayground
    · rfl
    · simp [Party.tokenAccepts, BillingSession.party, hp] at h
  unfold BillingSession.reserveToken preConsumeTokenQuota
  rw [if_neg (by simp [hp, show ¬ delta ≤ 0 by omega]), if_neg (by omega : ¬ delta < 0)]
  rcases r with e | remain
  · simp [hp]
  · by_cases hguard : (!s.relayInfo.tokenUnlimited && decide (remain < delta)) = true
    · simp only [hp, hguard, if_true, Bool.false_eq_true, if_false]
      exact ⟨_, rfl⟩
    · have hquota : s.relayInfo.tokenUnlimited = true ∨ delta ≤ remain := by
        simpa [or_iff_not_imp_left] using hguard
      have hg : ∃ e, g = some e := by
        rcases g with _ | e
        · rcases hquota with hu | hr
          · simp [Party.tokenAccepts, BillingSession.party, hp, hu] at h
          · simp [Party.tokenAccepts, BillingSession.party, hp, hr] at h
        · exact ⟨e, rfl⟩
      obtain ⟨e, rfl⟩ := hg
      simp only [hp, hguard, decreaseTokenQuota, quotaPrimitive,
        if_neg (show ¬ delta < 0 by omega), Bool.false_eq_true, if_false]
      exact ⟨_, rfl⟩

/-- **What a reserve does**: nothing is due; or it fails, with the session and the
accounts as they were; or both books are charged. -/
theorem reserve_cases (cfg : Config) (hs : s.settled = false) (hr : s.refunded = false)
    (hF : s.funding.IdPos) (t : Int) (f : Fault) (r : Except String Int) (g : Fault)
    (w : Accounts) :
    (s.reserve cfg t ⟨f, r, g, none⟩ w = (none, s, w) ∧
        (s.trusted = true ∨ t ≤ s.preConsumedQuota)) ∨
    ((∃ e, s.reserve cfg t ⟨f, r, g, none⟩ w = (some e, s, w)) ∧
        ¬ (f = none ∧ s.party.tokenAccepts (t - s.preConsumedQuota) r g = true)) ∨
    (s.reserve cfg t ⟨f, r, g, none⟩ w = (none, s.raise (t - s.preConsumedQuota),
        (w.charge s.party.account (t - s.preConsumedQuota)).chargeToken s.party
          (t - s.preConsumedQuota)) ∧
      s.trusted = false ∧ s.preConsumedQuota < t ∧ f = none ∧
        s.party.tokenAccepts (t - s.preConsumedQuota) r g = true) := by
  by_cases hdue : s.trusted = true ∨ t ≤ s.preConsumedQuota
  · refine Or.inl ⟨?_, hdue⟩
    rcases hdue with h | h <;> simp [BillingSession.reserve, h]
  obtain ⟨htr, hlt⟩ : s.trusted = false ∧ s.preConsumedQuota < t := by
    simpa using hdue
  have hd : 0 < t - s.preConsumedQuota := by omega
  have hguard : ¬ ((s.settled || s.refunded || s.trusted ||
      decide (t ≤ s.preConsumedQuota)) = true) := by
    simp [hs, hr, htr, hlt]
  -- the funding step: it fails on a fault, and otherwise charges the account
  rcases f with _ | e
  · have hfund : s.reserveFunding none (t - s.preConsumedQuota) w =
        .ok ((s.raise (t - s.preConsumedQuota)).funding,
          w.charge s.party.account (t - s.preConsumedQuota)) := by
      unfold BillingSession.reserveFunding
      cases hfun : s.funding with
      | wallet wf =>
        simp [decreaseUserQuota, quotaPrimitive_none hd.le, BillingSession.raise,
          BillingSession.syncRelayInfo, BillingSession.party, hfun, FundingSource.account,
          Accounts.charge]
      | subscription sf =>
        have hid : 0 < sf.subscriptionId := by simpa [hfun, FundingSource.IdPos] using hF
        simp [postConsumeUserSubscriptionDelta_none hid, BillingSession.raise,
          BillingSession.syncRelayInfo, BillingSession.party, hfun, FundingSource.account,
          Accounts.charge]
    rcases hacc : s.party.tokenAccepts (t - s.preConsumedQuota) r g with _ | _
    · -- the token refuses: the funding step is rolled back
      obtain ⟨e, he⟩ := reserveToken_of_not_accepts cfg
        (w := w.charge s.party.account (t - s.preConsumedQuota)) hd hacc
      have hroll : BillingSession.rollbackFundingReserve none (t - s.preConsumedQuota)
          (w.charge s.party.account (t - s.preConsumedQuota))
          (s.raise (t - s.preConsumedQuota)).funding = (s.funding, w) := by
        have hcancel := charge_cancel w s.party.account (t - s.preConsumedQuota)
        cases hfun : s.funding with
        | wallet wf =>
          simp only [BillingSession.party, hfun, FundingSource.account, Accounts.charge,
            neg_neg] at hcancel
          simp [BillingSession.rollbackFundingReserve, BillingSession.raise,
            BillingSession.syncRelayInfo, hfun, increaseUserQuota, quotaPrimitive_none hd.le,
            BillingSession.party, FundingSource.account, Accounts.charge]
          simpa using hcancel
        | subscription sf =>
          have hid : 0 < sf.subscriptionId := by simpa [hfun, FundingSource.IdPos] using hF
          simp only [BillingSession.party, hfun, FundingSource.account, Accounts.charge]
            at hcancel
          simp [BillingSession.rollbackFundingReserve, BillingSession.raise,
            BillingSession.syncRelayInfo, hfun, postConsumeUserSubscriptionDelta_none hid,
            BillingSession.party, FundingSource.account, Accounts.charge]
          simpa using hcancel
      refine Or.inr (Or.inl ⟨⟨e, ?_⟩, by simp⟩)
      simp only [BillingSession.reserve, if_neg hguard, hfund, he, hroll]
    · refine Or.inr (Or.inr ⟨?_, htr, hlt, rfl, rfl⟩)
      simp only [BillingSession.reserve, if_neg hguard, hfund,
        reserveToken_of_accepts hd hacc]
      simp [BillingSession.raise, BillingSession.syncRelayInfo]
  · -- the funding source fails before the token is asked
    refine Or.inr (Or.inl ⟨?_, by simp⟩)
    have hneg : ¬ (t - s.preConsumedQuota < 0) := by omega
    cases hfun : s.funding with
    | wallet wf =>
      simp only [BillingSession.reserve, if_neg hguard,
        BillingSession.reserveFunding, hfun, decreaseUserQuota, quotaPrimitive, if_neg hneg]
      exact ⟨_, rfl⟩
    | subscription sf =>
      have hid : ¬ sf.subscriptionId ≤ 0 := by
        simpa [hfun, FundingSource.IdPos] using hF
      have hne : ¬ (t - s.preConsumedQuota = 0) := by omega
      simp only [BillingSession.reserve, if_neg hguard,
        BillingSession.reserveFunding, hfun, postConsumeUserSubscriptionDelta, if_neg hid,
        if_neg hne]
      exact ⟨_, rfl⟩

/-- **What a settlement does** to a session that is not settled: the charge is
right already; or the funding source refuses, and nothing has changed; or the
funding source is adjusted, the token step is tried, and the session is settled
whatever came of it. -/
theorem settle_cases (hs : s.settled = false) (hfs : s.fundingSettled = false)
    (hF : s.funding.IdPos) (a : Int) (f g : Fault) (w : Accounts) :
    (a = s.preConsumedQuota ∧ (s.settle a f g w).2 = ({ s with settled := true }, w)) ∨
    (a ≠ s.preConsumedQuota ∧ f ≠ none ∧ (s.settle a f g w).2 = (s, w)) ∨
    (a ≠ s.preConsumedQuota ∧ f = none ∧ (s.settle a f g w).2.1.settled = true ∧
      (s.settle a f g w).2.1.party = s.party ∧
      (s.settle a f g w).2.2 = (s.settleToken g (a - s.preConsumedQuota)
        (w.charge s.party.account (a - s.preConsumedQuota))).2) := by
  by_cases ha : a = s.preConsumedQuota
  · exact Or.inl ⟨ha, by simp [BillingSession.settle, hs, ha]⟩
  have hd : a - s.preConsumedQuota ≠ 0 := by omega
  rcases f with _ | e
  · refine Or.inr (Or.inr ⟨ha, rfl, ?_⟩)
    simp only [BillingSession.settle, hs, hfs, if_neg hd, FundingSource.settle_none hF hd,
      Bool.false_eq_true, if_false]
    refine ⟨trivial, ?_, rfl⟩
    by_cases hsub : s.funding.source = .subscription
    · simp [hsub, BillingSession.party]
    · simp [hsub, BillingSession.party]
  · refine Or.inr (Or.inl ⟨ha, by simp, ?_⟩)
    simp only [BillingSession.settle, hs, hfs, if_neg hd, FundingSource.settle_some hF hd,
      Bool.false_eq_true, if_false]

/-! ### The books of a session -/

/-- How the funding source accounts for the amount `n` held: a wallet remembers
it, a subscription splits it between the record of the request and the extra
reserve. -/
def Backed (n : Int) (s : BillingSession) (w : Accounts) : Prop :=
  match s.funding with
  | .wallet wf => wf.consumed = n
  | .subscription sf =>
    0 < sf.subscriptionId ∧ 0 < sf.preConsumed ∧ 0 ≤ s.extraReserved ∧
      sf.preConsumed + s.extraReserved = n ∧ s.relayInfo.subscriptionId = sf.subscriptionId ∧
      trimSpace sf.requestId ≠ "" ∧
      w.record sf.requestId = some ⟨sf.subscriptionId, sf.preConsumed, false⟩

/-- A session that holds `n`, taken from the accounts `w₀`. -/
structure Held (w₀ : Accounts) (n : Int) (s : BillingSession) (w : Accounts) : Prop where
  settled : s.settled = false
  refunded : s.refunded = false
  fundingSettled : s.fundingSettled = false
  amount : s.preConsumedQuota = n
  tokenConsumed : s.tokenConsumed = n
  nonneg : 0 ≤ n
  backed : Backed n s w
  funding : fundingDebit w₀ w s.party.account = n
  token : tokenDebit w₀ w s.party.tokenId = s.party.tokenShare n

/-- **The books agree with the charge.** -/
def Books (w₀ : Accounts) (c : Charge) (s : BillingSession) (w : Accounts) : Prop :=
  match c with
  | .held n => Held w₀ n s w
  | .settled a tokenOk => s.settled = true ∧ fundingDebit w₀ w s.party.account = a ∧
      (tokenOk = true → tokenDebit w₀ w s.party.tokenId = s.party.tokenShare a)
  | .refunded => s.settled = false ∧ s.refunded = true ∧
      fundingDebit w₀ w s.party.account = 0 ∧ tokenDebit w₀ w s.party.tokenId = 0

variable {w₀ : Accounts} {n : Int}

theorem Held.idPos (h : Held w₀ n s w) : s.funding.IdPos := by
  have hb := h.backed
  unfold Backed at hb
  cases hfun : s.funding with
  | wallet wf => trivial
  | subscription sf =>
    rw [hfun] at hb
    exact hb.1

@[simp] theorem raise_party (s : BillingSession) (delta : Int) :
    (s.raise delta).party = s.party := by
  cases hfun : s.funding <;>
    simp [BillingSession.raise, BillingSession.syncRelayInfo, BillingSession.party, hfun,
      FundingSource.account]

/-- A reserve both books accepted raises the amount held. -/
theorem Held.raise (h : Held w₀ n s w) (hd : 0 < delta) :
    Held w₀ (n + delta) (s.raise delta)
      ((w.charge s.party.account delta).chargeToken s.party delta) where
  settled := h.settled
  refunded := h.refunded
  fundingSettled := h.fundingSettled
  amount := by rw [← h.amount]; rfl
  tokenConsumed := by rw [← h.tokenConsumed]; rfl
  nonneg := by have := h.nonneg; omega
  backed := by
    have hb := h.backed
    unfold Backed at hb ⊢
    cases hfun : s.funding with
    | wallet wf =>
      rw [hfun] at hb
      simpa [BillingSession.raise, BillingSession.syncRelayInfo, hfun] using hb
    | subscription sf =>
      rw [hfun] at hb
      obtain ⟨hid, hpre, hextra, hsum, -, hreq, hrec⟩ := hb
      simp only [BillingSession.raise, BillingSession.syncRelayInfo, hfun, chargeToken_record,
        charge_record]
      exact ⟨hid, hpre, by omega, by omega, trivial, hreq, hrec⟩
  funding := by
    rw [raise_party, fundingDebit_chargeToken, fundingDebit_charge, h.funding]
  token := by
    rw [raise_party, tokenDebit_chargeToken, tokenDebit_charge, h.token, tokenShare_add]

/-- The funding half of a refund: what was held goes back, in one call for a
wallet and in two for a subscription with an extra reserve. -/
theorem Held.refundFunding (h : Held w₀ n s w) :
    fundingDebit w₀ (s.refundFunding .ok w) s.party.account = 0 := by
  have hb := h.backed
  have hdebit := h.funding
  have hn := h.nonneg
  unfold Backed at hb
  unfold BillingSession.refundFunding
  cases hfun : s.funding with
  | wallet wf =>
    rw [hfun] at hb
    simp only [BillingSession.party, hfun, FundingSource.account] at hdebit ⊢
    simp only [FundingSource.source, reduceCtorEq, false_and, and_false, if_false,
      FundingSource.refund, RefundFaults.ok]
    by_cases hc : wf.consumed ≤ 0
    · simp only [if_pos hc, logged]
      omega
    · simp only [if_neg hc, increaseUserQuota, quotaPrimitive_none (not_le.mp hc).le, logged]
      simp only [fundingDebit, Accounts.addQuota_quota_self] at hdebit ⊢
      omega
  | subscription sf =>
    rw [hfun] at hb
    obtain ⟨hid, hpre, hextra, hsum, hrel, hreq, hrec⟩ := hb
    simp only [BillingSession.party, hfun, FundingSource.account] at hdebit ⊢
    simp only [FundingSource.source, true_and, FundingSource.refund, if_neg (not_le.mpr hpre),
      refundWithRetry, refundSubscriptionPreConsume, if_neg hreq, hrec, Bool.false_eq_true,
      if_false, RefundFaults.ok, logged]
    -- the record covers the pre-consume only, the extra reserve has a call of its own
    by_cases hex : s.extraReserved > 0
    · rw [if_pos ⟨hex, by omega⟩, hrel]
      simp only [postConsumeUserSubscriptionDelta_none hid]
      simp only [fundingDebit, Accounts.addUsed_amountUsed_self,
        Accounts.setRecord_amountUsed] at hdebit ⊢
      omega
    · rw [if_neg (fun hcon => hex hcon.1)]
      simp only [fundingDebit, Accounts.addUsed_amountUsed_self,
        Accounts.setRecord_amountUsed] at hdebit ⊢
      omega

/-- The refund of a pre-consume record leaves the tokens alone. -/
theorem refundSubscriptionPreConsume_token {q : String} {u : Accounts}
    (h : refundSubscriptionPreConsume f w q = .ok u) : u.token = w.token := by
  unfold refundSubscriptionPreConsume at h
  split at h
  · cases h
  rcases f with _ | e
  · dsimp only at h
    cases hrec : w.record q with
    | none => simp [hrec] at h
    | some r =>
      simp only [hrec] at h
      split at h
      · cases h
        rfl
      split at h <;> cases h <;> rfl
  · cases h

theorem FundingSource.refund_token {u : Accounts}
    (h : F.refund .ok w = .ok u) : u.token = w.token := by
  cases F with
  | wallet wf =>
    simp only [FundingSource.refund, RefundFaults.ok] at h
    split at h
    · cases h
      rfl
    · obtain ⟨-, -, rfl⟩ := quotaPrimitive_eq_ok.mp h
      rfl
  | subscription sf =>
    simp only [FundingSource.refund, RefundFaults.ok, refundWithRetry] at h
    split at h
    · cases h
      rfl
    · cases hr : refundSubscriptionPreConsume none w sf.requestId with
      | ok v =>
        rw [hr] at h
        cases h
        exact refundSubscriptionPreConsume_token hr
      | error e => simp [hr] at h

/-- The funding calls of a refund leave the tokens alone. -/
theorem refundFunding_token (s : BillingSession) (w : Accounts) :
    (s.refundFunding .ok w).token = w.token := by
  have h₁ : (logged w (s.funding.refund .ok w)).token = w.token := by
    cases hr : s.funding.refund .ok w with
    | ok u => exact FundingSource.refund_token hr
    | error e => rfl
  unfold BillingSession.refundFunding
  dsimp only
  split
  · rename_i hc
    rw [show RefundFaults.ok.extra = none from rfl,
      postConsumeUserSubscriptionDelta_none hc.2.2]
    simpa [logged] using h₁
  · exact h₁

/-- The token half of a refund gives back what the session consumed. -/
theorem refundToken_eq (s : BillingSession) (w : Accounts) (h : 0 ≤ s.tokenConsumed) :
    s.refundToken .ok w = w.chargeToken s.party (-s.tokenConsumed) := by
  unfold BillingSession.refundToken Accounts.chargeToken
  by_cases hp : s.relayInfo.isPlayground = true
  · rw [if_neg (by simp [hp]), if_pos (show s.party.isPlayground = true from hp)]
  · rw [if_neg (show ¬ s.party.isPlayground = true from hp)]
    rcases h.lt_or_eq with hpos | hzero
    · rw [if_pos ⟨hpos, by simpa using hp⟩]
      simp [increaseTokenQuota, RefundFaults.ok, quotaPrimitive_none h, logged,
        BillingSession.party]
    · rw [if_neg (by omega), ← hzero]
      simp [Accounts.addToken]

/-- **A refund takes effect exactly when something is held**, and then both books
are back where they were. -/
theorem Held.refund (h : Held w₀ n s w) :
    (n = 0 ∧ s.refund .ok w = (s, w)) ∨
    (0 < n ∧ (s.refund .ok w).1 = { s with refunded := true } ∧
      fundingDebit w₀ (s.refund .ok w).2 s.party.account = 0 ∧
      tokenDebit w₀ (s.refund .ok w).2 s.party.tokenId = 0) := by
  have hn := h.nonneg
  rcases hn.lt_or_eq with hpos | hzero
  · have hneeds : s.needsRefundLocked = true := by
      simp [BillingSession.needsRefundLocked, h.settled, h.refunded, h.fundingSettled,
        h.tokenConsumed, hpos]
    have heq : s.refund .ok w = ({ s with refunded := true },
        s.refundToken .ok (s.refundFunding .ok w)) := by
      simp [BillingSession.refund, h.settled, h.refunded, hneeds]
    refine Or.inr ⟨hpos, ?_⟩
    rw [heq, refundToken_eq _ _ (by rw [h.tokenConsumed]; exact hn)]
    refine ⟨rfl, ?_, ?_⟩
    · rw [fundingDebit_chargeToken, h.refundFunding]
    · have htok : tokenDebit w₀ (s.refundFunding .ok w) s.party.tokenId =
          tokenDebit w₀ w s.party.tokenId := by
        unfold tokenDebit
        rw [refundFunding_token]
      rw [tokenDebit_chargeToken, htok, h.token, h.tokenConsumed, ← tokenShare_add]
      simp
  · refine Or.inl ⟨hzero.symm, ?_⟩
    -- nothing held means nothing pre-consumed, so the refund is not started
    have hneeds : s.needsRefundLocked = false := by
      have hb := h.backed
      unfold Backed at hb
      cases hfun : s.funding with
      | wallet wf =>
        simp [BillingSession.needsRefundLocked, h.tokenConsumed, ← hzero, hfun]
      | subscription sf =>
        rw [hfun] at hb
        omega
    simp [BillingSession.refund, hneeds]

/-! ### The session simulates the charge -/

variable {c : Charge}

theorem exec_final (h : Books w₀ c s w) (hc : c.final = true) (call : Call)
    (hall : Allowed (s, w) call) : exec cfg (s, w) call = (s, w) := by
  cases c with
  | held n => cases hc
  | settled a ok =>
    have hs : s.settled = true := h.1
    cases call with
    | reserve t f r g => simp [exec, BillingSession.reserve, hs]
    | settle a f g => simp [exec, BillingSession.settle, hs]
    | refund => simp [exec, BillingSession.refund, hs]
  | refunded =>
    have hr : s.refunded = true := h.2.1
    cases call with
    | reserve t f r g => simp [exec, BillingSession.reserve, hr]
    | settle a f g => simp [Allowed, hr] at hall
    | refund => simp [exec, BillingSession.refund, hr]

theorem Charge.step_final {p : Party} (hc : c.final = true) (call : Call) :
    c.step p call = c := by
  cases c with
  | held n => cases hc
  | settled a ok => cases call <;> rfl
  | refunded => cases call <;> rfl

theorem Charge.held_of_not_final (hc : ¬ c.final = true) : ∃ n, c = .held n := by
  cases c with
  | held n => exact ⟨n, rfl⟩
  | settled a ok => exact absurd rfl hc
  | refunded => exact absurd rfl hc

/-- **One call, in both models**: the books still agree, and the session charges
the same party. -/
theorem books_exec (cfg : Config) (h : Books w₀ c s w) (call : Call) (hall : Allowed (s, w) call) :
    Books w₀ (c.step s.party call) (exec cfg (s, w) call).1 (exec cfg (s, w) call).2 ∧
      (exec cfg (s, w) call).1.party = s.party := by
  by_cases hc : c.final = true
  · rw [exec_final h hc call hall, Charge.step_final hc]
    exact ⟨h, rfl⟩
  obtain ⟨n, rfl⟩ := Charge.held_of_not_final hc
  have hheld : Held w₀ n s w := h
  have hn := hheld.amount
  cases call with
  | reserve t f r g =>
    simp only [Charge.step, exec]
    rcases reserve_cases cfg hheld.settled hheld.refunded hheld.idPos t f r g w with
      ⟨heq, hdue⟩ | ⟨⟨e, heq⟩, hno⟩ | ⟨heq, htr, hlt, hf, hacc⟩
    · rw [heq, if_neg]
      · exact ⟨h, rfl⟩
      · rintro ⟨htr, hlt, -⟩
        rcases hdue with hd | hd
        · exact absurd hd (by simpa [BillingSession.party] using htr)
        · omega
    · rw [heq, if_neg]
      · exact ⟨h, rfl⟩
      · rintro ⟨-, -, hf, hacc⟩
        exact hno ⟨hf, by rw [hn]; exact hacc⟩
    · rw [heq, if_pos ⟨htr, by omega, hf, by rw [← hn]; exact hacc⟩]
      refine ⟨?_, raise_party s _⟩
      have hraise := hheld.raise (show 0 < t - s.preConsumedQuota by omega)
      rw [show n + (t - s.preConsumedQuota) = t by omega] at hraise
      exact hraise
  | settle a f g =>
    simp only [Charge.step, exec]
    rcases settle_cases hheld.settled hheld.fundingSettled hheld.idPos a f g w with
      ⟨ha, heq⟩ | ⟨ha, hf, heq⟩ | ⟨ha, rfl, hset, hparty, hw⟩
    · rw [heq, if_pos (Or.inl (ha.trans hn))]
      refine ⟨⟨rfl, ?_, fun _ => ?_⟩, rfl⟩
      · rw [ha, hn]
        exact hheld.funding
      · rw [ha, hn]
        exact hheld.token
    · rw [heq, if_neg (by rw [not_or]; exact ⟨fun hcon => ha (hcon.trans hn.symm), hf⟩)]
      exact ⟨h, rfl⟩
    · rw [if_pos (Or.inr rfl)]
      refine ⟨⟨hset, ?_, fun hok => ?_⟩, hparty⟩
      · rw [hparty, hw, settleToken_account, fundingDebit_charge, hheld.funding]
        omega
      · have hok' : s.relayInfo.isPlayground = true ∨ g = none := by
          rcases of_decide_eq_true hok with hcon | hok'
          · exact absurd (hcon.trans hn.symm) ha
          · exact hok'
        rw [hparty, hw, settleToken_of_ok hok', tokenDebit_chargeToken, tokenDebit_charge,
          hheld.token, ← tokenShare_add]
        congr 1
        omega
  | refund =>
    simp only [Charge.step, exec]
    rcases hheld.refund with ⟨rfl, heq⟩ | ⟨hpos, heq, hfund, htok⟩
    · rw [heq, if_neg (lt_irrefl 0)]
      exact ⟨h, rfl⟩
    · rw [if_pos hpos, heq]
      exact ⟨⟨hheld.settled, rfl, hfund, htok⟩, rfl⟩

/-- **A session that holds what it says keeps the law.** -/
theorem Held.ledgerLaw (h : Held w₀ n s w) : LedgerLaw cfg w₀ s w := by
  intro calls halong
  -- the session and the charge are fed with the same calls
  have hrun := sim_run (exec cfg) (Charge.step s.party) (C := Allowed)
    (R := fun c x => Books w₀ c x.1 x.2 ∧ x.1.party = s.party)
    (fun c x call hR hall => by
      obtain ⟨hbooks, hparty⟩ := books_exec cfg hR.1 call hall
      rw [hR.2] at hbooks hparty
      exact ⟨hbooks, hparty⟩)
    (a := .held s.preConsumedQuota) ⟨by rw [h.amount]; exact h, rfl⟩ halong
  obtain ⟨hbooks, hparty⟩ := hrun
  generalize run (exec cfg) (s, w) calls = x at hbooks hparty
  generalize run (Charge.step s.party) (.held s.preConsumedQuota) calls = c at hbooks
  refine ⟨?_, fun hok => ?_, fun hfin call hall => exec_final hbooks hfin call hall, ?_⟩
  · rw [← hparty]
    cases c with
    | held m => exact hbooks.funding
    | settled a ok => exact hbooks.2.1
    | refunded => exact hbooks.2.2.1
  · rw [← hparty]
    cases c with
    | held m => exact hbooks.token
    | settled a ok => exact hbooks.2.2 hok
    | refunded => simpa [Charge.amount] using hbooks.2.2.2
  · intro t f r g hfail
    by_cases hc : c.final = true
    · exact exec_final hbooks hc _ trivial
    obtain ⟨m, rfl⟩ := Charge.held_of_not_final hc
    have hheld : Held w₀ m x.1 x.2 := hbooks
    rcases reserve_cases cfg hheld.settled hheld.refunded hheld.idPos t f r g x.2 with
      ⟨heq, -⟩ | ⟨⟨e, heq⟩, -⟩ | ⟨heq, -⟩
    · exact absurd (by rw [heq]) hfail
    · simp only [exec, heq]
    · exact absurd (by rw [heq]) hfail

end Calls

/-! ### Opening a session -/

section Open

variable {cfg : Config} {info : RelayInfo} {q : Int} {w w' : Accounts} {s : BillingSession}

/-- What the token lost when it was asked for `q` and did not refuse. -/
theorem preConsumeTokenQuota_ok {r : Except String Int} {f : Fault}
    (h : preConsumeTokenQuota cfg s.relayInfo q r f w = .ok w') :
    w' = w.chargeToken s.party q := by
  unfold preConsumeTokenQuota at h
  unfold Accounts.chargeToken
  split at h
  · cases h
  split at h
  · rename_i hp
    rw [if_pos (show s.party.isPlayground = true from hp)]
    cases h
    rfl
  rename_i hp
  rcases r with e | remain
  · cases h
  dsimp only at h
  split at h
  · cases h
  obtain ⟨-, -, rfl⟩ := quotaPrimitive_eq_ok.mp h
  rw [if_neg (show ¬ s.party.isPlayground = true from hp)]
  rfl

/-- The amount `preConsume` asks both books for. -/
def BillingSession.effectiveQuota (cfg : Config) (s : BillingSession) (q : Int) : Int :=
  if s.shouldTrust cfg then 0 else q

/-- The session `preConsume` returns. -/
def openedSession (info : RelayInfo) (F : FundingSource) (trusted : Bool) (n : Int) :
    BillingSession :=
  BillingSession.syncRelayInfo { newSession info F with
    trusted := trusted, tokenConsumed := max n 0, preConsumedQuota := n }

theorem openedSession_party (info : RelayInfo) (F : FundingSource) (tr : Bool) (n : Int) :
    (openedSession info F tr n).party =
      ⟨F.account, info.tokenId, info.isPlayground, info.tokenUnlimited, tr⟩ := by
  cases F <;> rfl

/-- An opened session holds `n` when its funding source accounts for it and both
books were charged. -/
theorem held_openedSession {F : FundingSource} {tr : Bool} {n : Int} {p : Party}
    (hp : (openedSession info F tr n).party = p) (hn : 0 ≤ n)
    (hb : Backed n (openedSession info F tr n) w')
    (hf : fundingDebit w w' p.account = n) (ht : tokenDebit w w' p.tokenId = p.tokenShare n) :
    Held w n (openedSession info F tr n) w' where
  settled := rfl
  refunded := rfl
  fundingSettled := rfl
  amount := rfl
  tokenConsumed := max_eq_left hn
  nonneg := hn
  backed := hb
  funding := by rw [hp]; exact hf
  token := by rw [hp]; exact ht

/-- **What pre-consuming does**: it fails and leaves the accounts as they were; or
the token was charged, if there was something to charge, and the funding source
then accepted. -/
theorem preConsume_cases (cfg : Config) (info : RelayInfo) (F : FundingSource) (q : Int)
    (env : BillingSession.PreConsumeEnv) (henv : env.rollback = none) (w : Accounts) :
    let s := newSession info F
    let n := s.effectiveQuota cfg q
    (∃ e, s.preConsume cfg q env w = (.error e, w)) ∨
    ∃ F' w', F.preConsume env.wallet env.subscription n (w.chargeToken s.party (max n 0)) =
        .ok (F', w') ∧
      s.preConsume cfg q env w = (.ok (openedSession info F' (s.shouldTrust cfg) n), w') := by
  intro s n
  have hn : (if s.shouldTrust cfg = true then 0 else q) = n := rfl
  -- the token step charges the positive part of the amount
  have htoken : ∀ w₁, (if n > 0 then
      preConsumeTokenQuota cfg s.relayInfo n env.tokenByKey env.token w else .ok w) = .ok w₁ →
      w₁ = w.chargeToken s.party (max n 0) := by
    intro w₁ h
    by_cases hpos : n > 0
    · rw [if_pos hpos] at h
      rw [max_eq_left hpos.le]
      exact preConsumeTokenQuota_ok h
    · rw [if_neg hpos] at h
      cases h
      rw [max_eq_right (not_lt.mp hpos)]
      simp [Accounts.chargeToken, Accounts.addToken]
  have hcons : (if n > 0 then n else s.tokenConsumed) = max n 0 := by
    by_cases hpos : n > 0
    · rw [if_pos hpos, max_eq_left hpos.le]
    · rw [if_neg hpos, max_eq_right (not_lt.mp hpos)]
      rfl
  simp only [BillingSession.preConsume, hn, hcons]
  rcases ht : (if n > 0 then preConsumeTokenQuota cfg s.relayInfo n env.tokenByKey env.token w
      else .ok w) with e | w₁
  · exact Or.inl ⟨_, rfl⟩
  obtain rfl := htoken w₁ ht
  rcases hf : F.preConsume env.wallet env.subscription n (w.chargeToken s.party (max n 0)) with
    e | ⟨F', w'⟩
  · -- the funding source refuses: the token is given back
    have hback : (if max n 0 > 0 ∧ s.relayInfo.isPlayground = false then
        logged (w.chargeToken s.party (max n 0)) (increaseTokenQuota none
          (w.chargeToken s.party (max n 0)) s.relayInfo.tokenId (max n 0))
        else w.chargeToken s.party (max n 0)) = w :=
      (refundToken_eq { s with tokenConsumed := max n 0 } (w.chargeToken s.party (max n 0))
        (le_max_right n 0)).trans (chargeToken_cancel w s.party (max n 0))
    simp only [show s.funding = F from rfl, hf, henv, hback]
    refine Or.inl ?_
    split
    · exact ⟨_, rfl⟩
    · exact ⟨_, rfl⟩
  · simp only [show s.funding = F from rfl, hf]
    exact Or.inr ⟨F', w', rfl, rfl⟩

/-- The compensations of `NewBillingSession` – the two token rollbacks – are not
hit by faults. -/
def NewEnv.Compensates (env : NewEnv) : Prop :=
  env.wallet.rollback = none ∧ env.subscription.rollback = none

variable {env : NewEnv}

/-- A wallet session is refused for want of quota, or it pre-consumes. -/
theorem tryWallet_cases (cfg : Config) (info : RelayInfo) (q : Int) (env : NewEnv)
    (w : Accounts) :
    (∃ e, tryWallet cfg info q env w = (.error e, w)) ∨
    ∃ userQuota, tryWallet cfg info q env w = (newSession { info with userQuota := userQuota }
      (.wallet ⟨info.userId, 0⟩)).preConsume cfg q env.wallet w := by
  unfold tryWallet
  rcases env.userQuota with e | userQuota
  · exact Or.inl ⟨_, rfl⟩
  dsimp only
  split
  · exact Or.inl ⟨_, rfl⟩
  split
  · exact Or.inl ⟨_, rfl⟩
  · exact Or.inr ⟨userQuota, rfl⟩

variable {e : NewAPIError}

theorem tryWallet_error (henv : env.Compensates)
    (h : tryWallet cfg info q env w = (.error e, w')) : w' = w := by
  rcases tryWallet_cases cfg info q env w with ⟨e', heq⟩ | ⟨userQuota, heq⟩
  · rw [heq] at h
    cases h
    rfl
  rcases preConsume_cases cfg { info with userQuota := userQuota }
    (.wallet ⟨info.userId, 0⟩) q env.wallet henv.1 w with ⟨e', heq'⟩ | ⟨F', u, -, heq'⟩
  · rw [heq, heq'] at h
    cases h
    rfl
  · rw [heq, heq'] at h
    cases h

theorem trySubscription_error (henv : env.Compensates)
    (h : trySubscription cfg info q env w = (.error e, w')) : w' = w := by
  unfold trySubscription at h
  dsimp only at h
  rcases preConsume_cases cfg info
    (.subscription ⟨info.requestId, info.userId, if q ≤ 0 then 1 else q, 0, 0, 0, 0, 0, ""⟩)
    (if q ≤ 0 then 1 else q) env.subscription henv.2 w with ⟨e', heq⟩ | ⟨F', u, -, heq⟩
  · rw [heq] at h
    cases h
    rfl
  · rw [heq] at h
    cases h

/-- The fallback tries the second way on the accounts it found. -/
theorem orElseInsufficient_cases {r : Except NewAPIError BillingSession × Accounts}
    (next : Accounts → Except NewAPIError BillingSession × Accounts)
    (hr : ∀ e w', r = (.error e, w') → w' = w) :
    orElseInsufficient r next = r ∨ orElseInsufficient r next = next w := by
  rcases r with ⟨e | s, u⟩
  · obtain rfl := hr e u rfl
    unfold orElseInsufficient
    dsimp only
    split
    · exact Or.inr rfl
    · exact Or.inl rfl
  · exact Or.inl rfl

/-- Whatever the preference, a session is opened by one of the two closures, on
the accounts as they were. -/
theorem newBillingSession_cases (cfg : Config) (info : RelayInfo) (q : Int) (w : Accounts)
    (henv : env.Compensates) :
    newBillingSession cfg info q env w = tryWallet cfg info q env w ∨
    newBillingSession cfg info q env w = trySubscription cfg info q env w ∨
    ∃ e, newBillingSession cfg info q env w = (.error e, w) := by
  unfold newBillingSession
  rcases normalizeBillingPreference info.billingPreference with _ | _ | _ | _
  · dsimp only
    rcases env.hasSub with e | _ | _
    · exact Or.inr (Or.inr ⟨_, rfl⟩)
    · exact Or.inl rfl
    · rcases orElseInsufficient_cases (w := w) (tryWallet cfg info q env)
        (fun e w' h => trySubscription_error henv h) with h | h
      · exact Or.inr (Or.inl h)
      · exact Or.inl h
  · rcases orElseInsufficient_cases (w := w) (trySubscription cfg info q env)
      (fun e w' h => tryWallet_error henv h) with h | h
    · exact Or.inl h
    · exact Or.inr (Or.inl h)
  · exact Or.inr (Or.inl rfl)
  · exact Or.inl rfl

/-- A source of money keeps its kind, and a wallet its owner. -/
theorem preConsume_account {F F' : FundingSource} {f : Fault} {o : Except String ChosenSubscription}
    {n : Int} (h : F.preConsume f o n w = .ok (F', w')) :
    F'.source = F.source ∧ (F.source = .wallet → F'.account = F.account) := by
  cases F with
  | wallet wf =>
    simp only [FundingSource.preConsume] at h
    split at h
    · cases h
      exact ⟨rfl, fun _ => rfl⟩
    · rcases hd : decreaseUserQuota f w wf.userId n with e | v <;> rw [hd] at h <;> cases h
      exact ⟨rfl, fun _ => rfl⟩
  | subscription sf =>
    simp only [FundingSource.preConsume] at h
    rcases hd : preConsumeUserSubscription w o sf.requestId sf.userId sf.amount with e | v <;>
      rw [hd] at h <;> cases h
    exact ⟨rfl, nofun⟩

/-- A session was opened by `preConsume`, and if on a wallet, then on that of the user and with what
was asked for. -/
theorem exists_preConsume (henv : env.Compensates)
    (h : newBillingSession cfg info q env w = (.ok s, w')) :
    ∃ info' F₀ F n f o, (F₀.source = .wallet → F₀.account = (.wallet, info'.userId) ∧ n = q) ∧
      let s₀ := newSession info' F₀
      let quota := s₀.effectiveQuota cfg n
      F₀.preConsume f o quota (w.chargeToken s₀.party (max quota 0)) = .ok (F, w') ∧
        s = openedSession info' F (s₀.shouldTrust cfg) quota := by
  rcases newBillingSession_cases cfg info q w henv with heq | heq | ⟨e, heq⟩
  · rw [heq] at h
    rcases tryWallet_cases cfg info q env w with ⟨e, heq⟩ | ⟨userQuota, heq⟩
    · cases heq.symm.trans h
    rcases preConsume_cases cfg { info with userQuota := userQuota } (.wallet ⟨info.userId, 0⟩) q
      env.wallet henv.1 w with ⟨e, hp⟩ | ⟨F, u, hF, hp⟩
    · cases (heq.trans hp).symm.trans h
    · cases (heq.trans hp).symm.trans h
      exact ⟨_, _, F, q, _, _, fun _ => ⟨rfl, rfl⟩, hF, rfl⟩
  · rw [heq] at h
    rcases preConsume_cases cfg info (.subscription ⟨info.requestId, info.userId,
      if q ≤ 0 then 1 else q, 0, 0, 0, 0, 0, ""⟩) (if q ≤ 0 then 1 else q) env.subscription henv.2
      w with ⟨e, hp⟩ | ⟨F, u, hF, hp⟩
    · cases hp.symm.trans h
    · cases hp.symm.trans h
      exact ⟨_, _, F, _, _, _, (fun hsource => by cases hsource), hF, rfl⟩
  · cases heq.symm.trans h

/-- The condition under which a session keeps its books: a wallet session that is
not trusted was opened with a non-negative amount, and a subscription session
with a request id that has no record yet. -/
def LedgerReady (w₀ : Accounts) (q : Int) (s : BillingSession) : Prop :=
  match s.funding with
  | .wallet _ => s.trusted = false → 0 ≤ q
  | .subscription sf => w₀.record sf.requestId = none

theorem effectiveQuota_of_not_trusted (h : s.shouldTrust cfg = false) :
    s.effectiveQuota cfg q = q := by
  simp [BillingSession.effectiveQuota, h]

theorem effectiveQuota_of_trusted (h : s.shouldTrust cfg = true) :
    s.effectiveQuota cfg q = 0 := by
  simp [BillingSession.effectiveQuota, h]

/-- **A wallet session holds what it says**, or it was opened with a negative
amount, has recorded it and has taken nothing. -/
theorem tryWallet_ok (henv : env.Compensates) (h : tryWallet cfg info q env w = (.ok s, w')) :
    (LedgerReady w q s ∧ Held w s.preConsumedQuota s w') ∨
    (¬ LedgerReady w q s ∧ s.preConsumedQuota ≠ 0 ∧
      fundingDebit w w' s.party.account = 0) := by
  rcases tryWallet_cases cfg info q env w with ⟨e', heq⟩ | ⟨userQuota, heq⟩
  · rw [heq] at h
    cases h
  rw [heq] at h
  generalize hi : ({ info with userQuota := userQuota } : RelayInfo) = info' at h
  rcases preConsume_cases cfg info' (.wallet ⟨info.userId, 0⟩) q env.wallet henv.1 w with
    ⟨e', heq'⟩ | ⟨F', u, hF, heq'⟩
  · rw [heq'] at h
    cases h
  rw [heq'] at h
  cases h
  generalize htr : (newSession info' (.wallet ⟨info.userId, 0⟩)).shouldTrust cfg = tr
  have hn : tr = false → (newSession info' (.wallet ⟨info.userId, 0⟩)).effectiveQuota cfg q = q :=
    fun h => effectiveQuota_of_not_trusted (htr.trans h)
  have hn' : tr = true → (newSession info' (.wallet ⟨info.userId, 0⟩)).effectiveQuota cfg q = 0 :=
    fun h => effectiveQuota_of_trusted (htr.trans h)
  generalize (newSession info' (.wallet ⟨info.userId, 0⟩)).effectiveQuota cfg q = n at *
  generalize hp : (newSession info' (.wallet ⟨info.userId, 0⟩)).party = p at hF
  have htid : p.tokenId = info'.tokenId := by rw [← hp]; rfl
  have hpg : p.isPlayground = info'.isPlayground := by rw [← hp]; rfl
  simp only [FundingSource.preConsume] at hF
  rcases le_or_gt n 0 with hle | hpos
  · rw [if_pos hle] at hF
    cases hF
    have hw : w.chargeToken p (max n 0) = w := by
      simp [Accounts.chargeToken, Accounts.addToken, max_eq_right hle]
    rw [hw]
    rcases hle.lt_or_eq with hneg | hzero
    · -- a negative amount is recorded and not taken; a trusted session would have recorded 0
      refine Or.inr ⟨fun hready => ?_, hneg.ne, by simp⟩
      rcases tr with _ | _
      · have := hready rfl
        have := hn rfl
        omega
      · have := hn' rfl
        omega
    · subst hzero
      refine Or.inl ⟨fun h => (hn h).le, ?_⟩
      change Held w 0 (openedSession info' (.wallet ⟨info.userId, 0⟩) tr 0) w
      exact held_openedSession (openedSession_party _ _ _ _) le_rfl rfl (by simp) (by simp)
  · rw [if_neg (not_le.mpr hpos), max_eq_left hpos.le] at hF
    rcases hd : decreaseUserQuota env.wallet.wallet (w.chargeToken p n) info.userId n with e | v
    · rw [hd] at hF
      cases hF
    rw [hd] at hF
    cases hF
    obtain ⟨-, -, rfl⟩ := quotaPrimitive_eq_ok.mp hd
    refine Or.inl ⟨fun h => by have := hn h; omega, ?_⟩
    change Held w n (openedSession info' (.wallet ⟨info.userId, n⟩) tr n) _
    refine held_openedSession (openedSession_party _ _ _ _) hpos.le rfl ?_ ?_
    · have := fundingDebit_charge w (w.chargeToken p n) (.wallet, info.userId) n
      simpa [Accounts.charge, FundingSource.account] using this
    · have := tokenDebit_charge w (w.chargeToken p n) (.wallet, info.userId) n p.tokenId
      rw [tokenDebit_chargeToken, tokenDebit_self, zero_add, htid] at this
      simpa [Accounts.charge, Party.tokenShare, hpg] using this

/-- **A subscription session holds what it says**, or its request had a record and
it has taken nothing from the subscription. -/
theorem trySubscription_ok (henv : env.Compensates)
    (h : trySubscription cfg info q env w = (.ok s, w')) :
    (LedgerReady w q s ∧ Held w s.preConsumedQuota s w') ∨
    (¬ LedgerReady w q s ∧ s.preConsumedQuota ≠ 0 ∧
      fundingDebit w w' s.party.account = 0) := by
  unfold trySubscription at h
  dsimp only at h
  have hpos : 0 < (if q ≤ 0 then 1 else q) := by split <;> omega
  generalize (if q ≤ 0 then 1 else q) = n at h hpos
  generalize hsf : (⟨info.requestId, info.userId, n, 0, 0, 0, 0, 0, ""⟩ : SubscriptionFunding) = sf
    at h
  rcases preConsume_cases cfg info (.subscription sf) n env.subscription henv.2 w with
    ⟨e', heq⟩ | ⟨F', u, hF, heq⟩
  · rw [heq] at h
    cases h
  rw [heq] at h
  cases h
  have htr : (newSession info (.subscription sf)).shouldTrust cfg = false := by
    unfold BillingSession.shouldTrust
    split
    · rfl
    split
    · rfl
    split
    · rfl
    · rfl
  rw [effectiveQuota_of_not_trusted htr, max_eq_left hpos.le] at hF
  rw [effectiveQuota_of_not_trusted htr]
  generalize hp : (newSession info (.subscription sf)).party = p at hF
  have htid : p.tokenId = info.tokenId := by rw [← hp]; rfl
  have hpg : p.isPlayground = info.isPlayground := by rw [← hp]; rfl
  simp only [FundingSource.preConsume] at hF
  rcases hpre : preConsumeUserSubscription (w.chargeToken p n) env.subscription.subscription
    sf.requestId sf.userId sf.amount with e | ⟨res, v⟩
  · rw [hpre] at hF
    cases hF
  rw [hpre] at hF
  cases hF
  have hamount : sf.amount = n := by rw [← hsf]
  unfold preConsumeUserSubscription at hpre
  split at hpre
  · cases hpre
  split at hpre
  · cases hpre
  rename_i htrim
  split at hpre
  · cases hpre
  rcases hsub : env.subscription.subscription with e | sub
  · rw [hsub] at hpre
    cases hpre
  rw [hsub] at hpre
  dsimp only at hpre
  rw [chargeToken_record] at hpre
  rcases hrec : w.record sf.requestId with _ | existing
  · -- a request that is new: the subscription is charged and the record written
    rw [hrec] at hpre
    cases hpre
    refine Or.inl ⟨?_, ?_⟩
    · change w.record (sf.applyResult _).requestId = none
      rw [applyResult_requestId]
      exact hrec
    · rw [show (openedSession info (.subscription (sf.applyResult ⟨sub.id, sf.amount,
        sub.amountTotal, (w.chargeToken p n).amountUsed sub.id + sf.amount, sub.planInfo⟩))
        ((newSession info (.subscription sf)).shouldTrust cfg) n).preConsumedQuota = n from rfl]
      refine held_openedSession (openedSession_party _ _ _ _) hpos.le ?_ ?_ ?_
      · refine ⟨?_, ?_, le_rfl, ?_, rfl, ?_, ?_⟩
        · rw [applyResult_subscriptionId]
          exact sub.id_pos
        · rw [applyResult_preConsumed, hamount]
          exact hpos
        · rw [applyResult_preConsumed, hamount]
          exact add_zero n
        · rw [applyResult_requestId]
          exact htrim
        · simp
      · have := fundingDebit_charge w (w.chargeToken p n) (.subscription, sub.id) n
        simpa [Accounts.charge, FundingSource.account, hamount] using this
      · have := tokenDebit_charge w (w.chargeToken p n) (.subscription, sub.id) n p.tokenId
        rw [tokenDebit_chargeToken, tokenDebit_self, zero_add, htid] at this
        simpa [Accounts.charge, Party.tokenShare, hpg, hamount] using this
  · -- a request that was seen before: it is answered from the record, and nothing is added
    rw [hrec] at hpre
    dsimp only at hpre
    split at hpre
    · cases hpre
    cases hpre
    refine Or.inr ⟨fun hready => ?_, hpos.ne', ?_⟩
    · have hready' : w.record (sf.applyResult _).requestId = none := hready
      rw [applyResult_requestId, hrec] at hready'
      cases hready'
    · simp

/-- **An opened session holds what it says**, or it has taken nothing and says
otherwise. -/
theorem newBillingSession_ok (henv : env.Compensates)
    (h : newBillingSession cfg info q env w = (.ok s, w')) :
    (LedgerReady w q s ∧ Held w s.preConsumedQuota s w') ∨
    (¬ LedgerReady w q s ∧ s.preConsumedQuota ≠ 0 ∧
      fundingDebit w w' s.party.account = 0) := by
  rcases newBillingSession_cases cfg info q w henv with
    heq | heq | ⟨e', heq⟩
  · exact tryWallet_ok henv (heq.symm.trans h)
  · exact trySubscription_ok henv (heq.symm.trans h)
  · rw [heq] at h
    cases h

/-- A refused session leaves the accounts as they were. -/
theorem newBillingSession_error (henv : env.Compensates)
    (h : newBillingSession cfg info q env w = (.error e, w')) : w' = w := by
  rcases newBillingSession_cases cfg info q w henv with
    heq | heq | ⟨e', heq⟩
  · exact tryWallet_error henv (heq.symm.trans h)
  · exact trySubscription_error henv (heq.symm.trans h)
  · rw [heq] at h
    cases h
    rfl

/-- What the code must do for a request: a session that is opened keeps the law,
and a session that is refused leaves the accounts as they were. -/
def MeetsLedger (cfg : Config) (info : RelayInfo) (q : Int) (env : NewEnv) (w₀ : Accounts) :
    Prop :=
  match newBillingSession cfg info q env w₀ with
  | (.ok s, w) => LedgerLaw cfg w₀ s w
  | (.error _, w) => w = w₀

/-- **The session ledger.** Whatever the database answers, with its compensations
succeeding: a refused session leaves the accounts as they were, and an opened
session keeps the law exactly when it is not a wallet session, not trusted and
opened with a negative amount, nor a subscription session for a request that has
a record already. -/
theorem ledgerLaw_iff (henv : env.Compensates) :
    MeetsLedger cfg info q env w ↔
      ∀ s, (newBillingSession cfg info q env w).1 = .ok s → LedgerReady w q s := by
  unfold MeetsLedger
  rcases hnew : newBillingSession cfg info q env w with ⟨e | s, w'⟩
  · exact ⟨fun _ s hs => (by cases hs), fun _ => newBillingSession_error henv hnew⟩
  · have hs : (∀ s', (Except.ok s : Except NewAPIError BillingSession) = .ok s' →
        LedgerReady w q s') ↔ LedgerReady w q s :=
      ⟨fun h => h s rfl, fun h s' hs' => by cases hs'; exact h⟩
    rw [hs]
    rcases newBillingSession_ok henv hnew with ⟨hready, hheld⟩ | ⟨hnot, hne, hzero⟩
    · exact ⟨fun _ => hready, fun _ => hheld.ledgerLaw⟩
    · -- a session that missed its books fails the law before any call is made
      refine ⟨fun hlaw => absurd ?_ hne, fun hready => absurd hready hnot⟩
      exact (hlaw [] (along_nil _)).1.symm.trans hzero

end Open

/-! ### A wallet opened with a negative amount -/

section Sample

/-- A configuration without trust. -/
def sampleConfig : Config := ⟨0, fun n => toString n⟩

/-- A request of user 1 with token 2 that pays from the wallet. -/
def sampleInfo : RelayInfo :=
  { userId := 1, tokenId := 2, requestId := "r", billingPreference := "wallet_only",
    tokenQuota := 100, tokenUnlimited := false, isPlayground := false, forcePreConsume := false,
    userQuota := 0, finalPreConsumedQuota := 0, billingSource := .wallet, subscriptionId := 0,
    subscriptionPreConsumed := 0, subscriptionPostDelta := 0, subscriptionAmountTotal := 0,
    subscriptionAmountUsedAfterPreConsume := 0, subscriptionPlanId := 0,
    subscriptionPlanTitle := "" }

/-- A database that answers every call of a wallet session. -/
def sampleEnv : NewEnv :=
  { userQuota := .ok 100
    hasSub := .ok false
    wallet := ⟨.ok 100, none, none, .error "", none⟩
    subscription := ⟨.ok 100, none, none, .error "no active subscription", none⟩ }

/-- Accounts with 100 on every wallet and token, and no subscription. -/
def sampleAccounts : Accounts := ⟨fun _ => 100, fun _ => ⟨100, 0⟩, fun _ => 0, fun _ => none⟩

/-- A request for 40 is opened with both books in order. -/
theorem ledgerLaw_iff_forty : sampleEnv.Compensates ∧
    MeetsLedger sampleConfig sampleInfo 40 sampleEnv sampleAccounts := by
  have henv : sampleEnv.Compensates := ⟨rfl, rfl⟩
  refine ⟨henv, ?_⟩
  rw [ledgerLaw_iff henv]
  intro s _
  unfold LedgerReady
  split
  · exact fun _ => by decide
  · rfl

/-- **A wallet opened with −5 and settled at 10 loses 15.** -/
theorem negative_preConsume_overcharges :
    ¬ MeetsLedger sampleConfig sampleInfo (-5) sampleEnv sampleAccounts := by
  have hpref : normalizeBillingPreference sampleInfo.billingPreference = .walletOnly := by decide
  have hnew : newBillingSession sampleConfig sampleInfo (-5) sampleEnv sampleAccounts =
      (.ok (openedSession { sampleInfo with userQuota := 100 } (.wallet ⟨1, 0⟩) false (-5)),
        sampleAccounts) := by
    unfold newBillingSession
    rw [hpref]
    rfl
  unfold MeetsLedger
  rw [hnew]
  intro h
  have hsettle := (h [.settle 10 none none] ⟨rfl, trivial⟩).1
  revert hsettle
  decide

end Sample

end NewApiPool.Billing
