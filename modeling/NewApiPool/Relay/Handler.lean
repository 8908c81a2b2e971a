import NewApiPool.Billing.Realtime

/-!
# The relay handler and its refund

`Relay` opens a billing session, tries one channel after the other, and leaves it to a
deferred function to give the money back. That function looks at one variable,
`newAPIError`, which is the error of the last attempt that returned: it is nil until the
first attempt has returned, and it keeps the error of the one before while an attempt is
running.

So an attempt that panics is refunded if an attempt before it has failed, and not if it is
the first; and a handler whose loop is not entered at all, because `RetryTimes` is
negative, is not refunded either. `NewApiPool.Relay.accounted_iff` says that these are the
only ways for what a session has taken to be neither settled nor refunded.

What makes the first attempt panic is the request: `RequestOpenAI2ClaudeMessage` takes
every element of the array `stop` for a string
(`NewApiPool.Relay.stopSequences_eq_none_iff`).
-/

namespace NewApiPool.Relay

open Billing

/-! ### The stop sequences of a request -/

/-- A JSON value, as it is decoded into `any`. -/
inductive Json where
  | null
  | bool (b : Bool)
  | number (text : String)
  | string (s : String)
  | array (elements : List Json)
  | object

/-- The type assertion `v.(string)`, which panics on anything else. -/
def Json.asString : Json → Option String
  | .string s => some s
  | _ => none

/-- The stop conversion of `RequestOpenAI2ClaudeMessage`: the value of
`claudeRequest.StopSequences`, or `none` where it panics. -/
def stopSequences : Json → Option (List String)
  | .string s => some [s]
  | .array elements => elements.mapM Json.asString
  -- a stop of another type is left out
  | _ => some []

/-- **The conversion panics on an array with an element that is not a string**, and on
nothing else. -/
theorem stopSequences_eq_none_iff (stop : Json) :
    stopSequences stop = none ↔
      ∃ elements, stop = .array elements ∧ ∃ v ∈ elements, v.asString = none := by
  cases stop with
  | array elements =>
    have h : elements.mapM Json.asString = none ↔ ∃ v ∈ elements, v.asString = none := by
      induction elements with
      | nil => simp
      | cons v l ih =>
        rcases hv : v.asString with _ | s
        · simp [hv]
        · rcases hl : l.mapM Json.asString with _ | ss
          · simpa [hv, hl] using ih.mp hl
          · simpa [hv, hl] using ih.not.mp (by simp [hl])
    simp only [stopSequences, h]
    exact ⟨fun h => ⟨elements, rfl, h⟩, fun ⟨_, he, h⟩ => by cases he; exact h⟩
  | _ => simp [stopSequences]

/-! ### The handler -/

/-- What `Relay` does after an attempt has returned an error: `shouldRetry` says yes or
no, or the handling of the error panics. -/
inductive AfterError where
  | retry
  | stop
  | panic
deriving DecidableEq, Repr

/-- How an attempt ends. `fee` is what `ChargeViolationFeeIfNeeded` charges for the error,
0 for most. -/
inductive Ending where
  | success
  | error (fee : Int) (after : AfterError)
  | panic
deriving DecidableEq, Repr

/-- One round of the loop: what the selection of its channel does to the retry counter,
the quota it settles the session at if it gets so far, and its end. A round without a
channel, or with a body that cannot be read, is one that ends with an error and stops. An
attempt that succeeds has settled. -/
structure Attempt where
  setRetry : Option Int
  resetNextTry : Bool
  settles : Option Int
  ending : Ending
  settles_of_success : ending = .success → settles.isSome = true

/-- The attempt on a Claude channel for a request with this `stop`: `next` is what it comes
to when the request could be converted. -/
def Attempt.claude (stop : Json) (next : Attempt) : Attempt :=
  match stopSequences stop with
  | none => ⟨next.setRetry, next.resetNextTry, none, .panic, nofun⟩
  | some _ => next

/-- The session and the accounts after an attempt. -/
def Attempt.bill (a : Attempt) (x : BillingSession × Accounts) : BillingSession × Accounts :=
  match a.settles with
  | none => x
  | some actualQuota => (x.1.settle actualQuota none none x.2).2

/-- `IncreaseRetry`, the counter being what the attempt has left. -/
def Attempt.nextRetry (a : Attempt) (retry : Int) : Int :=
  let retry := a.setRetry.getD retry
  if a.resetNextTry then retry else retry + 1

/-- The loop, with `newAPIError` as it is before the next round: nil, or an error with its
violation fee. It gives what it leaves in `newAPIError`, or nothing while it has another
round to make. -/
def loop (retryTimes : Int) : List Attempt → Int → Option Int → BillingSession × Accounts →
    Option (Option Int × BillingSession × Accounts)
  | attempts, retry, newAPIError, x =>
    if retryTimes < retry then some (newAPIError, x)
    else match attempts with
      | [] => none
      | a :: attempts =>
        match a.ending with
        | .success => some (none, a.bill x)
        -- the variable is not assigned, and the deferred function runs
        | .panic => some (newAPIError, a.bill x)
        | .error fee .stop => some (some fee, a.bill x)
        | .error fee .panic => some (some fee, a.bill x)
        | .error fee .retry => loop retryTimes attempts (a.nextRetry retry) (some fee) (a.bill x)

/-- What is left when the handler has ended and the refund goroutine has run: the session
with the accounts, and the violation fee among what they have been charged. -/
structure Ended where
  session : BillingSession
  accounts : Accounts
  fee : Int

/-- The deferred function. -/
def deferred (newAPIError : Option Int) (x : BillingSession × Accounts) : Ended :=
  match newAPIError with
  | none => ⟨x.1, x.2, 0⟩
  | some fee =>
    let y := x.1.refund .ok x.2
    if fee ≤ 0 then ⟨y.1, y.2, 0⟩
    else match postConsumeQuota y.1 y.2 fee with
      | .error _ => ⟨y.1, y.2, 0⟩
      | .ok (s, w) => ⟨s, w, fee⟩

/-- `Relay` from the moment it has a billing session, to its end. -/
def relay (retryTimes : Int) (attempts : List Attempt) (s : BillingSession) (w : Accounts) :
    Option Ended :=
  (loop retryTimes attempts 0 none (s, w)).map fun r => deferred r.1 r.2

/-- **What the session took has been settled or refunded**: the session is settled, or
both books are where they were, the fee apart. -/
def Accounted (w₀ : Accounts) (r : Ended) : Prop :=
  r.session.settled = true ∨
    (fundingDebit w₀ r.accounts r.session.party.account = r.fee ∧
      tokenDebit w₀ r.accounts r.session.party.tokenId = r.session.party.tokenShare r.fee)

/-! ### The attempts -/

section Attempts

variable {x₀ x y : BillingSession × Accounts} {a : Attempt} {retryTimes retry : Int}
  {newAPIError err : Option Int} {attempts : List Attempt}

theorem bill_of_settled (h : x.1.settled = true) : a.bill x = x := by
  unfold Attempt.bill
  split
  · rfl
  · simp [BillingSession.settle, h]

/-- **An attempt settles an open session or leaves it alone.** -/
theorem bill_cases (hs : x.1.settled = false) (hfs : x.1.fundingSettled = false)
    (hid : x.1.funding.IdPos) :
    (a.settles = none ∧ a.bill x = x) ∨ (a.settles ≠ none ∧ (a.bill x).1.settled = true) := by
  unfold Attempt.bill
  rcases ha : a.settles with _ | q
  · exact Or.inl ⟨rfl, rfl⟩
  · refine Or.inr ⟨nofun, ?_⟩
    rcases settle_cases hs hfs hid q none none x.2 with ⟨-, heq⟩ | ⟨-, hf, -⟩ | ⟨-, -, hset, -⟩
    · simp only [heq]
    · exact absurd rfl hf
    · exact hset

/-- **The loop ends before an attempt has returned**: it is not entered, or its first
attempt panics, and has not settled. -/
def Abandoned (retryTimes retry : Int) (attempts : List Attempt) : Prop :=
  retryTimes < retry ∨
    ∃ a rest, attempts = a :: rest ∧ a.ending = .panic ∧ a.settles = none

theorem loop_of_abandoned (h : Abandoned retryTimes retry attempts)
    (hrun : loop retryTimes attempts retry newAPIError x = some (err, y)) :
    err = newAPIError ∧ y = x := by
  unfold loop at hrun
  split at hrun
  case isTrue =>
    cases hrun
    exact ⟨rfl, rfl⟩
  case isFalse henter =>
    rcases h with h | ⟨a, rest, rfl, hpanic, hsettles⟩
    · exact absurd h henter
    · simp only [hpanic, Attempt.bill, hsettles] at hrun
      cases hrun
      exact ⟨rfl, rfl⟩

/-- **How the loop ends**, from a session that is open or settled: it is settled; or it is
as it was, with an error; or it is as it was, with none, because the loop was abandoned. -/
theorem loop_cases (hs : x₀.1.settled = false) (hfs : x₀.1.fundingSettled = false)
    (hid : x₀.1.funding.IdPos) (hx : x.1.settled = true ∨ x = x₀)
    (hrun : loop retryTimes attempts retry newAPIError x = some (err, y)) :
    y.1.settled = true ∨ (y = x₀ ∧ err ≠ none) ∨
      (y = x₀ ∧ newAPIError = none ∧ Abandoned retryTimes retry attempts) := by
  -- the loop is left without another round
  have hleft : ∀ attempts {retry newAPIError} {x : BillingSession × Accounts},
      Abandoned retryTimes retry attempts → (x.1.settled = true ∨ x = x₀) →
      some (newAPIError, x) = some (err, y) →
      y.1.settled = true ∨ (y = x₀ ∧ err ≠ none) ∨
        (y = x₀ ∧ newAPIError = none ∧ Abandoned retryTimes retry attempts) := by
    rintro attempts retry newAPIError x hab hx heq
    cases heq
    rcases hx with hx | rfl
    · exact Or.inl hx
    · rcases err with _ | fee
      · exact Or.inr (Or.inr ⟨rfl, rfl, hab⟩)
      · exact Or.inr (Or.inl ⟨rfl, nofun⟩)
  -- the rounds are an induction on what is left of the attempts
  induction attempts generalizing retry newAPIError x with
  | nil =>
    unfold loop at hrun
    split at hrun
    case isTrue hout => exact hleft _ (Or.inl hout) hx hrun
    case isFalse => cases hrun
  | cons a rest ih =>
    unfold loop at hrun
    split at hrun
    case isTrue hout => exact hleft _ (Or.inl hout) hx hrun
    case isFalse =>
      have hbill : (a.bill x).1.settled = true ∨ (a.bill x = x₀ ∧ a.settles = none) := by
        rcases hx with hx | rfl
        · rw [bill_of_settled hx]
          exact Or.inl hx
        · rcases bill_cases (a := a) hs hfs hid with ⟨hnone, heq⟩ | ⟨-, hset⟩
          · exact Or.inr ⟨heq, hnone⟩
          · exact Or.inl hset
      rcases hend : a.ending with _ | ⟨fee, after⟩ | _
      · simp only [hend] at hrun
        cases hrun
        refine hbill.imp_right fun ⟨_, hnone⟩ => ?_
        have := a.settles_of_success hend
        rw [hnone] at this
        cases this
      · cases after with
        | retry =>
          simp only [hend] at hrun
          rcases ih (hbill.imp_right And.left) hrun with h | h | ⟨-, h, -⟩
          · exact Or.inl h
          · exact Or.inr (Or.inl h)
          · cases h
        | stop =>
          simp only [hend] at hrun
          cases hrun
          exact hbill.imp_right fun h => Or.inl ⟨h.1, nofun⟩
        | panic =>
          simp only [hend] at hrun
          cases hrun
          exact hbill.imp_right fun h => Or.inl ⟨h.1, nofun⟩
      · simp only [hend] at hrun
        cases hrun
        refine hbill.imp_right fun h => ?_
        rcases err with _ | fee
        · exact Or.inr ⟨h.1, rfl, Or.inr ⟨a, rest, rfl, hend, h.2⟩⟩
        · exact Or.inl ⟨h.1, nofun⟩

/-- **The loop ends** after `retryTimes` retries at the latest, if no selection of a channel
puts the counter back. -/
theorem loop_isSome (hcount : ∀ a ∈ attempts, a.setRetry = none ∧ a.resetNextTry = false)
    (hlen : retryTimes - retry < attempts.length) :
    (loop retryTimes attempts retry newAPIError x).isSome = true := by
  induction attempts generalizing retry newAPIError x with
  | nil =>
    have hout : retryTimes < retry := by simpa using hlen
    rw [loop, if_pos hout]
    rfl
  | cons a rest ih =>
    unfold loop
    split
    · rfl
    · have hnext : a.nextRetry retry = retry + 1 := by
        simp [Attempt.nextRetry, hcount a List.mem_cons_self]
      rcases hend : a.ending with _ | ⟨fee, _ | _ | _⟩ | _ <;> simp only [hend, hnext]
      · rfl
      · refine ih (fun b hb => hcount b (List.mem_cons_of_mem a hb)) ?_
        simp only [List.length_cons, Nat.cast_add, Nat.cast_one] at hlen
        omega
      · rfl
      · rfl
      · rfl

end Attempts

/-! ### What the deferred function leaves -/

section Deferred

variable {cfg : Config} {info : RelayInfo} {q : Int} {env : NewEnv} {w₀ w₁ w : Accounts}
  {s : BillingSession} {n : Int}

theorem openedSession_preConsumedQuota (info : RelayInfo) (F : FundingSource) (tr : Bool)
    (n : Int) : (openedSession info F tr n).preConsumedQuota = n := by
  cases F <;> rfl

theorem openedSession_tokenConsumed (info : RelayInfo) (F : FundingSource) (tr : Bool)
    (n : Int) : (openedSession info F tr n).tokenConsumed = max n 0 := by
  cases F <;> rfl

theorem openedSession_funding (info : RelayInfo) (F : FundingSource) (tr : Bool) (n : Int) :
    (openedSession info F tr n).funding = F := by
  cases F <;> rfl

/-- A wallet that pre-consumes nothing leaves the accounts alone. -/
theorem newBillingSession_untaken (henv : env.Compensates)
    (h : newBillingSession cfg info q env w₀ = (.ok s, w₁)) (hs : s.funding.source = .wallet)
    (hn : s.preConsumedQuota ≤ 0) : w₁ = w₀ ∧ s.tokenConsumed = 0 := by
  obtain ⟨info', F₀, F, n, f, o, -, hF, rfl⟩ := exists_preConsume henv h
  rw [openedSession_funding, (preConsume_account hF).1] at hs
  rw [openedSession_preConsumedQuota] at hn
  rw [openedSession_tokenConsumed, max_eq_right hn]
  rw [max_eq_right hn] at hF
  cases F₀ with
  | subscription sf => cases hs
  | wallet wf =>
    rw [FundingSource.preConsume, if_pos hn] at hF
    cases hF
    simp [Accounts.chargeToken, Accounts.addToken]

/-- **A session as the handler gets it**: open, with an account to charge, and holding what
it says or a wallet that has taken nothing. -/
structure Opened (w₀ : Accounts) (s : BillingSession) (w : Accounts) : Prop where
  settled : s.settled = false
  fundingSettled : s.fundingSettled = false
  idPos : s.funding.IdPos
  account : s.relayInfo.account = s.funding.account
  books : Held w₀ s.preConsumedQuota s w ∨
    (s.preConsumedQuota < 0 ∧ w = w₀ ∧ s.tokenConsumed = 0 ∧ s.funding.source = .wallet)

theorem opened_newBillingSession (henv : env.Compensates)
    (h : newBillingSession cfg info q env w₀ = (.ok s, w₁))
    (hfresh : s.funding.source = .subscription → LedgerReady w₀ q s) : Opened w₀ s w₁ := by
  obtain ⟨hset, hfset, hacc, hwallet⟩ := newBillingSession_opened henv h
  rcases newBillingSession_ok henv h with ⟨hready, hheld⟩ | ⟨hnot, -, -⟩
  · exact ⟨hset, hfset, hheld.idPos, hacc, Or.inl hheld⟩
  · -- a wallet, not trusted, that was asked for a negative amount
    cases hfun : s.funding with
    | subscription sf => exact absurd (hfresh (by rw [hfun]; rfl)) hnot
    | wallet wf =>
      have hsrc : s.funding.source = .wallet := by rw [hfun]; rfl
      unfold LedgerReady at hnot
      rw [hfun] at hnot
      simp only [Classical.not_imp, not_le] at hnot
      have hneg : s.preConsumedQuota < 0 := by
        rw [hwallet hsrc hnot.1]
        exact hnot.2
      obtain ⟨hw, htok⟩ := newBillingSession_untaken henv h hsrc hneg.le
      refine ⟨hset, hfset, ?_, hacc, Or.inr ⟨hneg, hw, htok, hsrc⟩⟩
      rw [hfun]
      trivial

theorem Opened.untaken (h : Opened w₀ s w) (hn : s.preConsumedQuota ≤ 0) :
    fundingDebit w₀ w s.party.account = 0 ∧ tokenDebit w₀ w s.party.tokenId = 0 := by
  rcases h.books with hheld | ⟨-, rfl, -, -⟩
  · have hzero : s.preConsumedQuota = 0 := le_antisymm hn hheld.nonneg
    rw [hheld.funding, hheld.token, hzero]
    simp
  · simp

theorem Opened.taken (h : Opened w₀ s w) (hn : 0 < s.preConsumedQuota) :
    fundingDebit w₀ w s.party.account = s.preConsumedQuota := by
  rcases h.books with hheld | ⟨hneg, -⟩
  · exact hheld.funding
  · omega

/-- **A refund of an open session clears both books**, and leaves whom it charges. -/
theorem Opened.refund (h : Opened w₀ s w) :
    ∃ t, (s.refund .ok w).1 = { s with refunded := t } ∧
      fundingDebit w₀ (s.refund .ok w).2 s.party.account = 0 ∧
      tokenDebit w₀ (s.refund .ok w).2 s.party.tokenId = 0 := by
  rcases h.books with hheld | ⟨hneg, hw, htok, hsrc⟩
  · rcases hheld.refund with ⟨hzero, heq⟩ | ⟨-, hsess, hfund, htoken⟩
    · rw [heq]
      exact ⟨s.refunded, rfl, h.untaken hzero.le⟩
    · exact ⟨true, hsess, hfund, htoken⟩
  · -- the wallet has nothing to give back
    have hneeds : s.needsRefundLocked = false := by
      cases hfun : s.funding with
      | wallet wf => simp [BillingSession.needsRefundLocked, htok, hfun]
      | subscription sf =>
        rw [hfun] at hsrc
        cases hsrc
    have heq : s.refund .ok w = (s, w) := by
      simp [BillingSession.refund, hneeds]
    rw [heq]
    exact ⟨s.refunded, rfl, h.untaken hneg.le⟩

/-- **With an error, the deferred function settles the accounts of an open session.** -/
theorem accounted_of_error (h : Opened w₀ s w) (fee : Int) :
    Accounted w₀ (deferred (some fee) (s, w)) := by
  obtain ⟨t, hsess, hfund, htok⟩ := h.refund
  have hparty : BillingSession.party { s with refunded := t } = s.party := rfl
  right
  unfold deferred
  dsimp only
  split
  · simp only [hsess, hparty, hfund, htok, tokenShare_zero, and_self]
  · rw [hsess]
    obtain ⟨info, -, hinfo, heq⟩ := postConsumeQuota_charges (s := { s with refunded := t })
      h.idPos h.account (s.refund .ok w).2 fee
    rw [heq]
    dsimp only
    rw [hinfo, hparty]
    constructor
    · rw [fundingDebit_chargeToken, fundingDebit_charge, hfund, zero_add]
    · rw [tokenDebit_chargeToken, tokenDebit_charge, htok, zero_add]

theorem postConsumeQuota_settled {s s' : BillingSession} {w w' : Accounts} {quota : Int}
    (h : postConsumeQuota s w quota = .ok (s', w')) : s'.settled = s.settled := by
  unfold postConsumeQuota at h
  split at h
  · split_ifs at h
    · cases h
      rfl
    · split at h
      · cases h
      · cases h
        rfl
  · split at h
    · cases h
    · cases h
      rfl

theorem settled_of_deferred {x : BillingSession × Accounts} (h : x.1.settled = true)
    (newAPIError : Option Int) : (deferred newAPIError x).session.settled = true := by
  have hrefund : x.1.refund .ok x.2 = x := by
    simp [BillingSession.refund, h]
  unfold deferred
  rcases newAPIError with _ | fee
  · exact h
  · simp only [hrefund]
    split
    · exact h
    · split
      · exact h
      · rename_i s' w' hpost
        exact (postConsumeQuota_settled hpost).trans h

/-- **No stranded pre-consumption, exactly when an attempt returns.** When the handler of a
request with a billing session has ended: the session is settled, or what it took is back on
both books, if and only if it took nothing, or the loop is entered and its first attempt does
not panic before it has settled. A subscription session is for a request that has no record
yet. -/
theorem accounted_iff (henv : env.Compensates)
    (hnew : newBillingSession cfg info q env w₀ = (.ok s, w₁))
    (hfresh : s.funding.source = .subscription → LedgerReady w₀ q s) {retryTimes : Int}
    {attempts : List Attempt} {r : Ended} (hrun : relay retryTimes attempts s w₁ = some r) :
    Accounted w₀ r ↔ s.preConsumedQuota ≤ 0 ∨
      (0 ≤ retryTimes ∧ ∀ a rest, attempts = a :: rest → a.ending = .panic → a.settles ≠ none) := by
  have hopen := opened_newBillingSession henv hnew hfresh
  obtain ⟨⟨err, y⟩, hloop, rfl⟩ := Option.map_eq_some_iff.mp hrun
  -- the condition says that the loop is not abandoned
  have hab : (0 ≤ retryTimes ∧ ∀ a rest, attempts = a :: rest → a.ending = .panic →
      a.settles ≠ none) ↔ ¬Abandoned retryTimes 0 attempts := by
    unfold Abandoned
    push Not
    rfl
  rw [hab]
  constructor
  · intro hacc
    by_contra hcond
    obtain ⟨hpos, habandoned⟩ : 0 < s.preConsumedQuota ∧ Abandoned retryTimes 0 attempts := by
      simpa [not_or] using hcond
    obtain ⟨rfl, rfl⟩ := loop_of_abandoned habandoned hloop
    rcases hacc with hset | ⟨hfund, -⟩
    · exact absurd (hopen.settled.symm.trans hset) Bool.false_ne_true
    · have := hopen.taken hpos
      have hfund' : fundingDebit w₀ w₁ s.party.account = 0 := hfund
      omega
  · intro hcond
    have hstart : (s, w₁).1.settled = true ∨ (s, w₁) = (s, w₁) := Or.inr rfl
    rcases loop_cases hopen.settled hopen.fundingSettled hopen.idPos hstart hloop with
      hset | ⟨rfl, herr⟩ | ⟨rfl, -, habandoned⟩
    · exact Or.inl (settled_of_deferred hset err)
    · obtain ⟨fee, rfl⟩ := Option.ne_none_iff_exists'.mp herr
      exact accounted_of_error hopen fee
    · obtain ⟨rfl, -⟩ := loop_of_abandoned habandoned hloop
      have hn := hcond.resolve_right (not_not.mpr habandoned)
      obtain ⟨hfund, htok⟩ := hopen.untaken hn
      refine Or.inr ⟨hfund, ?_⟩
      exact htok.trans (tokenShare_zero _).symm

end Deferred

/-! ### A stop that is not a string -/

/-- An attempt that succeeds at a cost of 10. -/
def served : Attempt := ⟨none, false, some 10, .success, fun _ => rfl⟩

/-- **A request with `"stop": [1]` on a Claude channel keeps what it pre-consumed**: the
conversion panics, nothing has been settled, and the 40 stay charged. -/
theorem stop_number_strands :
    newBillingSession sampleConfig sampleInfo 40 sampleEnv sampleAccounts =
      (.ok sampleSession, sampleOpened) ∧
    ∃ r, relay 3 [.claude (.array [.number "1"]) served] sampleSession sampleOpened = some r ∧
      ¬Accounted sampleAccounts r := by
  refine ⟨sampleSession_opened, _, rfl, ?_⟩
  rintro (hset | ⟨hfund, -⟩)
  · exact absurd hset (by decide)
  · exact absurd hfund (by decide)

/-- With `"stop": ["1"]` the same request is served, and settled at 10. -/
theorem accounted_stop_string :
    ∃ r, relay 3 [.claude (.array [.string "1"]) served] sampleSession sampleOpened = some r ∧
      Accounted sampleAccounts r := by
  have hrun : ∃ r, relay 3 [.claude (.array [.string "1"]) served] sampleSession sampleOpened =
      some r := ⟨_, rfl⟩
  obtain ⟨r, hr⟩ := hrun
  refine ⟨r, hr, (accounted_iff ⟨rfl, rfl⟩ sampleSession_opened nofun hr).mpr (Or.inr ⟨?_, ?_⟩)⟩
  · decide
  · intro a rest h
    obtain ⟨rfl, -⟩ := List.cons.inj h
    intro hpanic
    cases hpanic

end NewApiPool.Relay
