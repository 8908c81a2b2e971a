import NewApiPool.Lib.Runs
import NewApiPool.Lib.Tally
import NewApiPool.Lib.Reservation
import NewApiPool.Billing.Session

/-!
# Concurrent pre-consumption from a wallet

`NewApiPool.Billing.tryWallet` as one call is a step. Here it is the sequence of its
statements – `GetUserQuota`, `GetTokenByKey`, `DecreaseTokenQuota`,
`DecreaseUserQuota`, and the `IncreaseTokenQuota` that takes the token back when the
wallet fails – and any number of calls take turns, statement by statement. A call that
is run without interruption is `tryWallet` again (`NewApiPool.Billing.Race.alone`).

Both balances are looked at by one statement and taken from by a later one. So two calls
may both find what only one of them can have
(`NewApiPool.Billing.Race.overspend_both_read`), and what keeps the balances from going
below zero is that a call which passes a check finds its amount *besides* the amounts of
the calls that have passed it and not taken yet
(`NewApiPool.Billing.Race.no_overspend_of_covered`). A user's wallet and a token are two
instances of `Reservation.Account`.
-/

namespace NewApiPool.Billing.Race

open EventSystem Tally Reservation

/-! ### A call, statement by statement -/

/-- Where a call of `NewBillingSession` stands, by its next statement. Once the wallet
has been looked at, `userQuota` is what was found there. -/
inductive Stage where
  | getUserQuota
  | getTokenByKey (userQuota : Int)
  | decreaseTokenQuota (userQuota : Int)
  | decreaseUserQuota (userQuota : Int)
  /-- The wallet failed with `err`, and the token is to be given back. -/
  | rollback (err : String)
  | returned (r : Except NewAPIError BillingSession)

/-- A call in wallet mode, with what it has taken from the two balances. -/
structure Call where
  info : RelayInfo
  preConsumedQuota : Int
  stage : Stage
  fromUser : Int
  fromToken : Int

/-- What a statement is answered with: the database does what it is asked or fails, or
the cache has an answer. What the cache holds is written by other goroutines at times of
their own, so it may be anything. -/
inductive Answer where
  | database (f : Fault)
  | cache (v : Int)
deriving DecidableEq, Repr

/-- The answer to a read of a row that has `v`. -/
def Answer.read (v : Int) : Answer → Except String Int
  | .database none => .ok v
  | .database (some e) => .error e
  | .cache v' => .ok v'

/-- The fault a write meets. There is no write the cache answers. -/
def Answer.fault : Answer → Fault
  | .database f => f
  | .cache _ => none

section Call

variable (cfg : Config) (c : Call)

/-- The session `tryWallet` makes when it has found `userQuota`. -/
def Call.session (userQuota : Int) : BillingSession :=
  newSession { c.info with userQuota := userQuota } (.wallet ⟨c.info.userId, 0⟩)

/-- `effectiveQuota` of `preConsume`. -/
def Call.effectiveQuota (userQuota : Int) : Int :=
  if (c.session userQuota).shouldTrust cfg then 0 else c.preConsumedQuota

/-- It depends on what was asked for, and not on how far the call has come. -/
@[simp] theorem Call.effectiveQuota_mk (stage : Stage) (fromUser fromToken q : Int) :
    Call.effectiveQuota cfg ⟨c.info, c.preConsumedQuota, stage, fromUser, fromToken⟩ q =
      c.effectiveQuota cfg q := rfl

/-- The session `preConsume` returns, `consumed` being what the wallet paid. -/
def Call.result (userQuota consumed : Int) : Except NewAPIError BillingSession :=
  let effectiveQuota := c.effectiveQuota cfg userQuota
  .ok (BillingSession.syncRelayInfo { c.session userQuota with
    funding := .wallet ⟨c.info.userId, consumed⟩
    trusted := (c.session userQuota).shouldTrust cfg
    tokenConsumed := if effectiveQuota > 0 then effectiveQuota else 0
    preConsumedQuota := effectiveQuota })

/-- The error `preConsume` returns when the wallet failed with `e`. -/
def walletError (e : String) : Except NewAPIError BillingSession :=
  if GoText.contains e "no active subscription" ||
      GoText.contains e "subscription quota insufficient" then
    .error ⟨.insufficientUserQuota, "订阅额度不足或未配置订阅: " ++ e⟩
  else .error ⟨.updateDataError, e⟩

/-- What the call goes on with when it has found `userQuota`. -/
def Call.checkUserQuota (userQuota : Int) : Stage :=
  if userQuota ≤ 0 then
    .returned (.error ⟨.insufficientUserQuota,
      "用户额度不足, 剩余额度: " ++ cfg.formatQuota userQuota⟩)
  else if userQuota - c.preConsumedQuota < 0 then
    .returned (.error ⟨.insufficientUserQuota,
      "预扣费额度失败, 用户剩余额度: " ++ cfg.formatQuota userQuota ++ ", 需要预扣费额度: " ++
        cfg.formatQuota c.preConsumedQuota⟩)
  else if c.effectiveQuota cfg userQuota ≤ 0 then .returned (c.result cfg userQuota 0)
  else if c.info.isPlayground then .decreaseUserQuota userQuota
  else .getTokenByKey userQuota

/-- What the call goes on with when it has found `remainQuota` on its token. -/
def Call.checkToken (userQuota remainQuota : Int) : Stage :=
  if !c.info.tokenUnlimited && remainQuota < c.effectiveQuota cfg userQuota then
    .returned (.error ⟨.preConsumeTokenQuotaFailed,
      "token quota is not enough, token remain quota: " ++ cfg.formatQuota remainQuota ++
        ", need quota: " ++ cfg.formatQuota (c.effectiveQuota cfg userQuota)⟩)
  else .decreaseTokenQuota userQuota

/-- The next statement of a call. -/
def Call.next (a : Answer) (w : Accounts) : Call × Accounts :=
  match c.stage with
  | .getUserQuota =>
    match a.read (w.quota c.info.userId) with
    | .error e => ({ c with stage := .returned (.error ⟨.queryDataError, e⟩) }, w)
    | .ok userQuota => ({ c with stage := c.checkUserQuota cfg userQuota }, w)
  | .getTokenByKey userQuota =>
    match a.read (w.token c.info.tokenId).remainQuota with
    | .error e => ({ c with stage := .returned (.error ⟨.preConsumeTokenQuotaFailed, e⟩) }, w)
    | .ok remainQuota => ({ c with stage := c.checkToken cfg userQuota remainQuota }, w)
  | .decreaseTokenQuota userQuota =>
    let quota := c.effectiveQuota cfg userQuota
    match Billing.decreaseTokenQuota a.fault w c.info.tokenId quota with
    | .error e => ({ c with stage := .returned (.error ⟨.preConsumeTokenQuotaFailed, e⟩) }, w)
    | .ok w' => ({ c with stage := .decreaseUserQuota userQuota, fromToken := quota }, w')
  | .decreaseUserQuota userQuota =>
    let quota := c.effectiveQuota cfg userQuota
    match Billing.decreaseUserQuota a.fault w c.info.userId quota with
    | .error e =>
      if c.info.isPlayground then ({ c with stage := .returned (walletError e) }, w)
      else ({ c with stage := .rollback e }, w)
    | .ok w' =>
      ({ c with stage := .returned (c.result cfg userQuota quota), fromUser := quota }, w')
  | .rollback e =>
    match Billing.increaseTokenQuota a.fault w c.info.tokenId c.fromToken with
    -- a rollback that fails is logged
    | .error _ => ({ c with stage := .returned (walletError e) }, w)
    | .ok w' => ({ c with stage := .returned (walletError e), fromToken := 0 }, w')
  | .returned r => ({ c with stage := .returned r }, w)

end Call

/-! ### A call on its own -/

/-- An answer that makes a read return `r`. -/
def Answer.of : Except String Int → Answer
  | .ok v => .cache v
  | .error e => .database (some e)

@[simp] theorem Answer.read_of (r : Except String Int) (v : Int) : (Answer.of r).read v = r := by
  cases r <;> rfl

/-- The call `NewBillingSession` is when it begins. -/
def Call.fresh (info : RelayInfo) (preConsumedQuota : Int) : Call :=
  ⟨info, preConsumedQuota, .getUserQuota, 0, 0⟩

/-- The answer `env` has for the next statement. -/
def Call.reply (env : NewEnv) (c : Call) : Answer :=
  match c.stage with
  | .getUserQuota => .of env.userQuota
  | .getTokenByKey _ => .of env.wallet.tokenByKey
  | .decreaseTokenQuota _ => .database env.wallet.token
  | .decreaseUserQuota _ => .database env.wallet.wallet
  | .rollback _ => .database env.wallet.rollback
  | .returned _ => .database none

/-- `n` statements of a call with nothing between them. -/
def Call.uninterrupted (cfg : Config) (env : NewEnv) : Nat → Call × Accounts → Call × Accounts
  | 0, x => x
  | n + 1, (c, w) => Call.uninterrupted cfg env n (c.next cfg (c.reply env) w)

variable {c : Call} {w : Accounts}

theorem uninterrupted_returned (cfg : Config) (env : NewEnv) (n : Nat)
    {r : Except NewAPIError BillingSession} (h : c.stage = .returned r) :
    Call.uninterrupted cfg env n (c, w) = (c, w) := by
  induction n with
  | zero => rfl
  | succ n ih =>
    obtain ⟨info, amount, stage, fu, ft⟩ := c
    obtain rfl : stage = .returned r := h
    exact ih

section Alone

variable {cfg : Config} {env : NewEnv} {c : Call} {w w' : Accounts} {q quota : Int} {e : String}
  {a : Answer}

theorem next_getUserQuota (hstage : c.stage = .getUserQuota)
    (hread : a.read (w.quota c.info.userId) = .ok q) :
    c.next cfg a w = ({ c with stage := c.checkUserQuota cfg q }, w) := by
  simp only [Call.next, hstage, hread]

theorem next_getTokenByKey {r : Int} (hstage : c.stage = .getTokenByKey q)
    (hread : a.read (w.token c.info.tokenId).remainQuota = .ok r) :
    c.next cfg a w = ({ c with stage := c.checkToken cfg q r }, w) := by
  simp only [Call.next, hstage, hread]

theorem next_decreaseTokenQuota (hstage : c.stage = .decreaseTokenQuota q)
    (hw : Billing.decreaseTokenQuota a.fault w c.info.tokenId (c.effectiveQuota cfg q) = .ok w') :
    c.next cfg a w = ({ c with
      stage := .decreaseUserQuota q, fromToken := c.effectiveQuota cfg q }, w') := by
  simp only [Call.next, hstage, hw]

theorem next_decreaseUserQuota (hstage : c.stage = .decreaseUserQuota q)
    (hw : Billing.decreaseUserQuota a.fault w c.info.userId (c.effectiveQuota cfg q) = .ok w') :
    c.next cfg a w = ({ c with
      stage := .returned (c.result cfg q (c.effectiveQuota cfg q))
      fromUser := c.effectiveQuota cfg q }, w') := by
  simp only [Call.next, hstage, hw]

theorem next_decreaseUserQuota_error (hstage : c.stage = .decreaseUserQuota q)
    (hw : Billing.decreaseUserQuota a.fault w c.info.userId (c.effectiveQuota cfg q) =
      .error e) :
    c.next cfg a w = ({ c with
      stage := if c.info.isPlayground then .returned (walletError e) else .rollback e }, w) := by
  simp only [Call.next, hstage, hw]
  split <;> rfl

theorem next_rollback (cfg : Config) (w : Accounts) (hstage : c.stage = .rollback e) :
    ∃ t, c.next cfg a w = ({ c with stage := .returned (walletError e), fromToken := t },
      logged w (increaseTokenQuota a.fault w c.info.tokenId c.fromToken)) := by
  simp only [Call.next, hstage]
  rcases increaseTokenQuota a.fault w c.info.tokenId c.fromToken with e' | w'
  · exact ⟨c.fromToken, rfl⟩
  · exact ⟨0, rfl⟩

/-- The rest of `preConsume`, from the wallet on. -/
theorem alone_wallet {n : Nat} (hstage : c.stage = .decreaseUserQuota q)
    (hquota : c.effectiveQuota cfg q = quota) (hpos : 0 < quota)
    (htoken : c.info.isPlayground = false → c.fromToken = quota) :
    let x := Call.uninterrupted cfg env (n + 2) (c, w)
    let y := match Billing.decreaseUserQuota env.wallet.wallet w c.info.userId quota with
      | .ok w' => (c.result cfg q quota, w')
      | .error e => (walletError e,
          if quota > 0 ∧ c.info.isPlayground = false then
            logged w (increaseTokenQuota env.wallet.rollback w c.info.tokenId quota)
          else w)
    x.1.stage = .returned y.1 ∧ x.2 = y.2 := by
  have hreply : c.reply env = .database env.wallet.wallet := by simp only [Call.reply, hstage]
  subst hquota
  rcases hw : Billing.decreaseUserQuota env.wallet.wallet w c.info.userId
    (c.effectiveQuota cfg q) with e | w'
  · rw [Call.uninterrupted, hreply,
      next_decreaseUserQuota_error (a := .database env.wallet.wallet) hstage hw]
    rcases hp : c.info.isPlayground with _ | _
    · -- the token has paid, and is given back
      obtain ⟨t, ht⟩ := next_rollback cfg w (c := { c with stage := .rollback e })
        (a := .database env.wallet.rollback) rfl
      rw [Call.uninterrupted]
      simp only [Call.reply, Bool.false_eq_true, if_false]
      rw [ht, uninterrupted_returned cfg env n rfl]
      simp only [gt_iff_lt, hpos, and_self, if_true, Answer.fault, htoken hp]
    · simp only [if_true]
      rw [uninterrupted_returned cfg env (n + 1) rfl]
      simp
  · rw [Call.uninterrupted, hreply,
      next_decreaseUserQuota (a := .database env.wallet.wallet) hstage hw,
      uninterrupted_returned cfg env (n + 1) rfl]
    exact ⟨rfl, rfl⟩

end Alone

variable {cfg : Config} {env : NewEnv} {q : Int}

/-- `preConsume` of a wallet that has something to take, `w₁` being what
`PreConsumeTokenQuota` leaves. -/
theorem preConsume_wallet {w₁ : Accounts} (hpos : 0 < c.effectiveQuota cfg q)
    (htoken : preConsumeTokenQuota cfg (c.session q).relayInfo (c.effectiveQuota cfg q)
      env.wallet.tokenByKey env.wallet.token w = .ok w₁) :
    (c.session q).preConsume cfg c.preConsumedQuota env.wallet w =
      match Billing.decreaseUserQuota env.wallet.wallet w₁ c.info.userId
          (c.effectiveQuota cfg q) with
      | .ok w' => (c.result cfg q (c.effectiveQuota cfg q), w')
      | .error e => (walletError e,
          if c.effectiveQuota cfg q > 0 ∧ c.info.isPlayground = false then
            logged w₁ (increaseTokenQuota env.wallet.rollback w₁ c.info.tokenId
              (c.effectiveQuota cfg q))
          else w₁) := by
  have hE : (if (c.session q).shouldTrust cfg then 0 else c.preConsumedQuota) =
      c.effectiveQuota cfg q := rfl
  have hfunding : (c.session q).funding = .wallet ⟨c.info.userId, 0⟩ := rfl
  have hplay : (c.session q).relayInfo.isPlayground = c.info.isPlayground := rfl
  have hid : (c.session q).relayInfo.tokenId = c.info.tokenId := rfl
  simp only [BillingSession.preConsume, hE, hfunding, hplay, hid, gt_iff_lt, hpos, if_true,
    htoken, FundingSource.preConsume, not_le.mpr hpos, if_false, true_and]
  rcases hw : Billing.decreaseUserQuota env.wallet.wallet w₁ c.info.userId
    (c.effectiveQuota cfg q) with e | w'
  · simp only [Except.map, walletError]
    split <;> rfl
  · simp only [Except.map, Call.result, gt_iff_lt, hpos, if_true]

/-- `preConsume` of a wallet whose token does not pay. -/
theorem preConsume_token_error {e : String} (hpos : 0 < c.effectiveQuota cfg q)
    (htoken : preConsumeTokenQuota cfg (c.session q).relayInfo (c.effectiveQuota cfg q)
      env.wallet.tokenByKey env.wallet.token w = .error e) :
    (c.session q).preConsume cfg c.preConsumedQuota env.wallet w =
      (.error ⟨.preConsumeTokenQuotaFailed, e⟩, w) := by
  have hE : (if (c.session q).shouldTrust cfg then 0 else c.preConsumedQuota) =
      c.effectiveQuota cfg q := rfl
  simp only [BillingSession.preConsume, hE, gt_iff_lt, hpos, if_true, htoken]

/-- `preConsume` of a wallet with nothing to take. -/
theorem preConsume_nothing (hE : c.effectiveQuota cfg q ≤ 0) :
    (c.session q).preConsume cfg c.preConsumedQuota env.wallet w = (c.result cfg q 0, w) := by
  have hE' : (if (c.session q).shouldTrust cfg then 0 else c.preConsumedQuota) =
      c.effectiveQuota cfg q := rfl
  have hfunding : (c.session q).funding = .wallet ⟨c.info.userId, 0⟩ := rfl
  have hconsumed : (c.session q).tokenConsumed = 0 := rfl
  simp only [BillingSession.preConsume, hE', hfunding, hconsumed, gt_iff_lt, not_lt.mpr hE,
    if_false, FundingSource.preConsume, hE, if_true, Call.result]

/-- The rest of `preConsume`, from the token on. -/
theorem alone_token (hpos : 0 < c.effectiveQuota cfg q) (hp : c.info.isPlayground = false) :
    let x := Call.uninterrupted cfg env 4 ({ c with stage := .getTokenByKey q }, w)
    let y := (c.session q).preConsume cfg c.preConsumedQuota env.wallet w
    x.1.stage = .returned y.1 ∧ x.2 = y.2 := by
  have hplay : (c.session q).relayInfo.isPlayground = false := hp
  have hpre : preConsumeTokenQuota cfg (c.session q).relayInfo (c.effectiveQuota cfg q)
      env.wallet.tokenByKey env.wallet.token w =
      match env.wallet.tokenByKey with
      | .error e => .error e
      | .ok r =>
        if !c.info.tokenUnlimited && r < c.effectiveQuota cfg q then
          .error ("token quota is not enough, token remain quota: " ++ cfg.formatQuota r ++
            ", need quota: " ++ cfg.formatQuota (c.effectiveQuota cfg q))
        else Billing.decreaseTokenQuota env.wallet.token w c.info.tokenId
          (c.effectiveQuota cfg q) := by
    refine (if_neg (not_lt.mpr hpos.le)).trans ((if_neg ?_).trans ?_)
    · rw [hplay]
      exact Bool.false_ne_true
    · rfl
  rcases hr : env.wallet.tokenByKey with e | r
  · -- the token cannot be read
    rw [preConsume_token_error hpos (hpre.trans (by rw [hr]))]
    simp only [Call.uninterrupted, Call.next, Call.reply, Answer.read_of, hr, and_self]
  have hread : (Call.reply env { c with stage := .getTokenByKey q }).read
      (w.token c.info.tokenId).remainQuota = .ok r := by
    rw [← hr]
    exact Answer.read_of _ _
  rw [Call.uninterrupted, next_getTokenByKey (c := { c with stage := .getTokenByKey q }) rfl hread]
  by_cases hless : (!c.info.tokenUnlimited && r < c.effectiveQuota cfg q) = true
  · rw [preConsume_token_error hpos (hpre.trans (by rw [hr]; simp only [hless, if_true]; rfl))]
    have hstage : Call.checkToken cfg { c with stage := .getTokenByKey q } q r =
        .returned (.error ⟨.preConsumeTokenQuotaFailed,
          "token quota is not enough, token remain quota: " ++ cfg.formatQuota r ++
            ", need quota: " ++ cfg.formatQuota (c.effectiveQuota cfg q)⟩) := if_pos hless
    rw [uninterrupted_returned cfg env 3 hstage]
    exact ⟨hstage, rfl⟩
  have hstage : Call.checkToken cfg { c with stage := .getTokenByKey q } q r =
      .decreaseTokenQuota q := if_neg hless
  rw [hstage]
  rcases hw : Billing.decreaseTokenQuota env.wallet.token w c.info.tokenId
    (c.effectiveQuota cfg q) with e | w'
  · rw [preConsume_token_error hpos (hpre.trans (by rw [hr]; simp only [hless, hw]; rfl))]
    have hnext : Call.next cfg { c with stage := .decreaseTokenQuota q }
        (.database env.wallet.token) w =
        ({ c with stage := .returned (.error ⟨.preConsumeTokenQuotaFailed, e⟩) }, w) := by
      have heff : Call.effectiveQuota cfg { c with stage := .decreaseTokenQuota q } q =
        c.effectiveQuota cfg q := rfl
      simp only [Call.next, Answer.fault, heff, hw]
    rw [Call.uninterrupted]
    simp only [Call.reply]
    rw [hnext, uninterrupted_returned cfg env 2 rfl]
    exact ⟨rfl, rfl⟩
  · rw [preConsume_wallet hpos (hpre.trans (by rw [hr]; simp only [hless, hw]; rfl))]
    have hnext := next_decreaseTokenQuota (a := .database env.wallet.token)
      (c := { c with stage := .decreaseTokenQuota q }) rfl hw
    rw [Call.uninterrupted]
    simp only [Call.reply]
    rw [hnext]
    exact alone_wallet (n := 0) (c := { c with
      stage := .decreaseUserQuota q, fromToken := c.effectiveQuota cfg q }) rfl rfl hpos
      fun _ => rfl

/-- **Left alone, a call that has passed the check of the wallet is `preConsume`.** -/
theorem alone_preConsume (h0 : ¬q ≤ 0) (h1 : ¬q - c.preConsumedQuota < 0) :
    let x := Call.uninterrupted cfg env 4 ({ c with stage := c.checkUserQuota cfg q }, w)
    let y := (c.session q).preConsume cfg c.preConsumedQuota env.wallet w
    x.1.stage = .returned y.1 ∧ x.2 = y.2 := by
  have hstage : c.checkUserQuota cfg q =
      if c.effectiveQuota cfg q ≤ 0 then .returned (c.result cfg q 0)
      else if c.info.isPlayground then .decreaseUserQuota q else .getTokenByKey q := by
    simp only [Call.checkUserQuota, h0, h1, if_false]
  by_cases hE : c.effectiveQuota cfg q ≤ 0
  · rw [preConsume_nothing hE, hstage, if_pos hE, uninterrupted_returned cfg env 4 rfl]
    exact ⟨rfl, rfl⟩
  rw [hstage, if_neg hE]
  have hpos := not_le.mp hE
  rcases hp : c.info.isPlayground with _ | _
  · exact alone_token hpos hp
  · -- the playground has no token
    have htoken : preConsumeTokenQuota cfg (c.session q).relayInfo (c.effectiveQuota cfg q)
        env.wallet.tokenByKey env.wallet.token w = .ok w := by
      have hplay : (c.session q).relayInfo.isPlayground = true := hp
      simp only [preConsumeTokenQuota, hplay, not_lt.mpr hpos.le, if_false, if_true]
    rw [preConsume_wallet hpos htoken]
    exact alone_wallet (n := 2) (c := { c with stage := .decreaseUserQuota q }) rfl rfl hpos
      fun h => absurd (h.symm.trans hp) Bool.false_ne_true

/-- **Left alone, a call is `tryWallet`.** -/
theorem alone (cfg : Config) (info : RelayInfo) (preConsumedQuota : Int) (env : NewEnv)
    (w : Accounts) :
    let x := Call.uninterrupted cfg env 5 (Call.fresh info preConsumedQuota, w)
    let y := tryWallet cfg info preConsumedQuota env w
    x.1.stage = .returned y.1 ∧ x.2 = y.2 := by
  intro x y
  rcases hq : env.userQuota with e | q
  · simp [x, y, Call.uninterrupted, Call.next, Call.fresh, Call.reply, hq, tryWallet]
  have hx : x = Call.uninterrupted cfg env 4 ({ Call.fresh info preConsumedQuota with
      stage := Call.checkUserQuota cfg (Call.fresh info preConsumedQuota) q }, w) := by
    have hread : (Call.reply env (Call.fresh info preConsumedQuota)).read (w.quota info.userId) =
        .ok q := by
      rw [← hq]
      exact Answer.read_of _ _
    simp only [x]
    rw [Call.uninterrupted, next_getUserQuota rfl hread]
  rw [hx]
  by_cases h0 : q ≤ 0
  · simp only [y, tryWallet, hq, h0, if_true, Call.checkUserQuota]
    rw [uninterrupted_returned cfg env 4 rfl]
    exact ⟨rfl, rfl⟩
  by_cases h1 : q - preConsumedQuota < 0
  · have h1' : q - (Call.fresh info preConsumedQuota).preConsumedQuota < 0 := h1
    simp only [y, tryWallet, hq, h0, h1, h1', if_true, if_false, Call.checkUserQuota]
    rw [uninterrupted_returned cfg env 4 rfl]
    exact ⟨rfl, rfl⟩
  -- both checks are passed: what is left is `preConsume`
  have hy : y = (Call.session (Call.fresh info preConsumedQuota) q).preConsume cfg
      preConsumedQuota env.wallet w := by
    simp only [y, tryWallet, hq, h0, h1, if_false]
    rfl
  rw [hy]
  exact alone_preConsume h0 h1

/-! ### Calls taking turns -/

/-- The accounts, and the calls that have begun. -/
structure State where
  accounts : Accounts
  calls : List Call

/-- The accounts before any request: no call has begun. -/
def State.start (w : Accounts) : State := ⟨w, []⟩

/-- A call begins, or makes its next statement. -/
inductive Event where
  | begin (info : RelayInfo) (preConsumedQuota : Int)
  | next (i : Nat) (a : Answer)

/-- One event: a request begins its `PreConsumeBilling`, or one statement of a running call is
executed with the answer the database gives to it. -/
def step (cfg : Config) (x : State) : Event → State
  | .begin info preConsumedQuota => { x with calls := x.calls ++ [.fresh info preConsumedQuota] }
  | .next i a =>
    match x.calls[i]? with
    | none => x
    | some c =>
      let (c', w) := c.next cfg a x.accounts
      ⟨w, x.calls.set i c'⟩

section Pending

variable (cfg : Config)

/-- What a call has found in the wallet and not taken from it. -/
def Call.pendingOnUser (u : Int) (c : Call) : Int :=
  if c.info.userId = u then
    match c.stage with
    | .getTokenByKey q => c.effectiveQuota cfg q
    | .decreaseTokenQuota q => c.effectiveQuota cfg q
    | .decreaseUserQuota q => c.effectiveQuota cfg q
    | _ => 0
  else 0

/-- What a call has found on its token and not taken from it. -/
def Call.pendingOnToken (t : Int) (c : Call) : Int :=
  if c.info.tokenId = t then
    match c.stage with
    | .decreaseTokenQuota q => c.effectiveQuota cfg q
    | _ => 0
  else 0

/-- What a call has taken from the wallet of `u`. -/
def Call.takenFromUser (u : Int) (c : Call) : Int := if c.info.userId = u then c.fromUser else 0

/-- What a call has taken from token `t` and not given back. -/
def Call.takenFromToken (t : Int) (c : Call) : Int := if c.info.tokenId = t then c.fromToken else 0

/-- The wallet of `u` as an account. -/
def State.wallet (x : State) (u : Int) : Account :=
  ⟨x.accounts.quota u, tally x.calls (Call.pendingOnUser cfg u),
    tally x.calls (Call.takenFromUser u)⟩

/-- Token `t` as an account. -/
def State.token (x : State) (t : Int) : Account :=
  ⟨(x.accounts.token t).remainQuota, tally x.calls (Call.pendingOnToken cfg t),
    tally x.calls (Call.takenFromToken t)⟩

/-- **A limited token**: no call draws on it without looking at what remains. -/
def State.Limited (x : State) (t : Int) : Prop :=
  ∀ c ∈ x.calls, c.info.tokenId = t → c.info.isPlayground = false → c.info.tokenUnlimited = false

/-- **Nothing was overspent** since the accounts were `w₀`: of a wallet or a limited token
no more has been taken than there was, and none has gone below zero. -/
def NoOverspend (w₀ : Accounts) (x : State) : Prop :=
  (∀ u, (x.wallet cfg u).taken ≤ max 0 (w₀.quota u) ∧
    (0 ≤ w₀.quota u → 0 ≤ x.accounts.quota u)) ∧
  ∀ t, x.Limited t → (x.token cfg t).taken ≤ max 0 (w₀.token t).remainQuota ∧
    (0 ≤ (w₀.token t).remainQuota → 0 ≤ (x.accounts.token t).remainQuota)

/-- The call goes on to take something from the wallet in which it finds `q`. -/
def Call.PassesUser (c : Call) (q : Int) : Prop :=
  0 < q ∧ c.preConsumedQuota ≤ q ∧ 0 < c.effectiveQuota cfg q

/-- **What a call finds is there for it**, when it passes a check: the row has its amount
besides the amounts of the calls that have passed the same check and not taken yet. -/
def Call.Covered (x : State) (c : Call) (a : Answer) : Prop :=
  match c.stage with
  | .getUserQuota =>
    match a.read (x.accounts.quota c.info.userId) with
    | .error _ => True
    | .ok q => c.PassesUser cfg q →
      (x.wallet cfg c.info.userId).pending + c.effectiveQuota cfg q ≤
        (x.wallet cfg c.info.userId).row
  | .getTokenByKey q =>
    match a.read (x.accounts.token c.info.tokenId).remainQuota with
    | .error _ => True
    | .ok r => c.info.tokenUnlimited = false → c.effectiveQuota cfg q ≤ r →
      (x.token cfg c.info.tokenId).pending + c.effectiveQuota cfg q ≤
        (x.token cfg c.info.tokenId).row
  | _ => True

/-- The condition on an event: a check of a balance that passes finds the amount of its call there
besides the amounts of the calls that have passed the same check and not taken yet. -/
def Covered (x : State) : Event → Prop
  | .begin _ _ => True
  | .next i a => ∀ c, x.calls[i]? = some c → c.Covered cfg x a

end Pending

/-! ### One statement -/

section Statement

variable {cfg : Config} {c : Call} {w : Accounts}

/-- **What holds of a call on its way**: before it takes something it has taken nothing,
and what it is going to take is positive; the playground does not get to a token. -/
def Call.InOrder (cfg : Config) (c : Call) : Prop :=
  match c.stage with
  | .getUserQuota => c.fromUser = 0 ∧ c.fromToken = 0
  | .getTokenByKey q => c.fromUser = 0 ∧ c.fromToken = 0 ∧ 0 < c.effectiveQuota cfg q ∧
      c.info.isPlayground = false
  | .decreaseTokenQuota q => c.fromUser = 0 ∧ c.fromToken = 0 ∧ 0 < c.effectiveQuota cfg q
  | .decreaseUserQuota q => c.fromUser = 0 ∧ 0 ≤ c.fromToken ∧ 0 < c.effectiveQuota cfg q
  | .rollback _ => c.fromUser = 0 ∧ 0 ≤ c.fromToken
  | .returned _ => True

theorem pendingOnUser_nonneg (h : c.InOrder cfg) (u : Int) : 0 ≤ c.pendingOnUser cfg u := by
  unfold Call.InOrder at h
  unfold Call.pendingOnUser
  split
  · cases hs : c.stage <;> simp only [hs] at h ⊢ <;> omega
  · exact le_refl 0

theorem pendingOnToken_nonneg (h : c.InOrder cfg) (t : Int) : 0 ≤ c.pendingOnToken cfg t := by
  unfold Call.InOrder at h
  unfold Call.pendingOnToken
  split
  · cases hs : c.stage <;> simp only [hs] at h ⊢ <;> omega
  · exact le_refl 0

/-- **What the next statement of a call can do.** -/
inductive Next (cfg : Config) (a : Answer) (c : Call) (w : Accounts) : Call → Accounts → Prop
  /-- The call is over, or was over already; it has taken no more. -/
  | stop (r : Except NewAPIError BillingSession) : Next cfg a c w { c with stage := .returned r } w
  | passUser (q : Int) (stage : Stage) (hs : c.stage = .getUserQuota)
    (hr : a.read (w.quota c.info.userId) = .ok q) (hp : c.PassesUser cfg q)
    (hstage : stage = .decreaseUserQuota q ∨
      (stage = .getTokenByKey q ∧ c.info.isPlayground = false)) :
    Next cfg a c w { c with stage := stage } w
  | passToken (q r : Int) (hs : c.stage = .getTokenByKey q)
    (hr : a.read (w.token c.info.tokenId).remainQuota = .ok r)
    (hp : c.info.tokenUnlimited = false → c.effectiveQuota cfg q ≤ r) :
    Next cfg a c w { c with stage := .decreaseTokenQuota q } w
  | takeToken (q : Int) (hs : c.stage = .decreaseTokenQuota q) :
    Next cfg a c w { c with stage := .decreaseUserQuota q, fromToken := c.effectiveQuota cfg q }
      (w.addToken c.info.tokenId (-c.effectiveQuota cfg q))
  | takeUser (q : Int) (r : Except NewAPIError BillingSession)
    (hs : c.stage = .decreaseUserQuota q) :
    Next cfg a c w { c with stage := .returned r, fromUser := c.effectiveQuota cfg q }
      (w.addQuota c.info.userId (-c.effectiveQuota cfg q))
  | failUser (q : Int) (e : String) (hs : c.stage = .decreaseUserQuota q) :
    Next cfg a c w { c with stage := .rollback e } w
  | giveBack (e : String) (r : Except NewAPIError BillingSession) (hs : c.stage = .rollback e) :
    Next cfg a c w { c with stage := .returned r, fromToken := 0 }
      (w.addToken c.info.tokenId c.fromToken)

theorem next_spec (cfg : Config) (a : Answer) (c : Call) (w : Accounts) :
    Next cfg a c w (c.next cfg a w).1 (c.next cfg a w).2 := by
  cases hs : c.stage with
  | getUserQuota =>
    rcases hr : a.read (w.quota c.info.userId) with e | q
    · simp only [Call.next, hs, hr]
      exact .stop _
    · rw [next_getUserQuota hs hr]
      unfold Call.checkUserQuota
      split_ifs with h0 h1 h2 h3
      · exact .stop _
      · exact .stop _
      · exact .stop _
      · exact .passUser q _ hs hr ⟨by omega, by omega, by omega⟩ (Or.inl rfl)
      · exact .passUser q _ hs hr ⟨by omega, by omega, by omega⟩ (Or.inr ⟨rfl, by simpa using h3⟩)
  | getTokenByKey q =>
    rcases hr : a.read (w.token c.info.tokenId).remainQuota with e | r
    · simp only [Call.next, hs, hr]
      exact .stop _
    · rw [next_getTokenByKey hs hr]
      unfold Call.checkToken
      split_ifs with h
      · exact .stop _
      · refine .passToken q r hs hr fun hl => ?_
        simpa [hl] using h
  | decreaseTokenQuota q =>
    rcases hw : Billing.decreaseTokenQuota a.fault w c.info.tokenId (c.effectiveQuota cfg q) with
      e | w'
    · simp only [Call.next, hs, hw]
      exact .stop _
    · rw [next_decreaseTokenQuota hs hw, (quotaPrimitive_eq_ok.mp hw).2.2]
      exact .takeToken q hs
  | decreaseUserQuota q =>
    rcases hw : Billing.decreaseUserQuota a.fault w c.info.userId (c.effectiveQuota cfg q) with
      e | w'
    · rw [next_decreaseUserQuota_error hs hw]
      split
      · exact .stop _
      · exact .failUser q e hs
    · rw [next_decreaseUserQuota hs hw, (quotaPrimitive_eq_ok.mp hw).2.2]
      exact .takeUser q _ hs
  | rollback e =>
    rcases hw : increaseTokenQuota a.fault w c.info.tokenId c.fromToken with e' | w'
    · simp only [Call.next, hs, hw]
      exact .stop _
    · simp only [Call.next, hs, hw]
      rw [(quotaPrimitive_eq_ok.mp hw).2.2]
      exact .giveBack e _ hs
  | returned r =>
    simp only [Call.next, hs]
    exact .stop r

variable {a : Answer} {c' : Call} {w' : Accounts}

theorem Next.info_eq (h : Next cfg a c w c' w') :
    c'.info = c.info := by
  cases h <;> rfl

theorem Next.inOrder (h : Next cfg a c w c' w') (hc : c.InOrder cfg) : c'.InOrder cfg := by
  unfold Call.InOrder at hc
  cases h with
  | stop r => trivial
  | passUser q stage hs hr hp hstage =>
    simp only [hs] at hc
    rcases hstage with rfl | ⟨rfl, hplay⟩
    · exact ⟨hc.1, hc.2.ge, hp.2.2⟩
    · exact ⟨hc.1, hc.2, hp.2.2, hplay⟩
  | passToken q r hs hr hp =>
    simp only [hs] at hc
    exact ⟨hc.1, hc.2.1, hc.2.2.1⟩
  | takeToken q hs =>
    simp only [hs] at hc
    exact ⟨hc.1, hc.2.2.le, hc.2.2⟩
  | takeUser q r hs => trivial
  | failUser q e hs =>
    simp only [hs] at hc
    exact ⟨hc.1, hc.2.1⟩
  | giveBack e r hs => trivial

/-- **A statement moves the wallet of `u`**, `P` being what is pending on it and `T` what
has been taken from it, this call included. -/
theorem Next.move_user (h : Next cfg a c w c' w')
    (hc : c.InOrder cfg) (u P T : Int) (hP : c.pendingOnUser cfg u ≤ P)
    (hcover : ∀ q, c.stage = .getUserQuota → a.read (w.quota c.info.userId) = .ok q →
      c.PassesUser cfg q → c.info.userId = u → P + c.effectiveQuota cfg q ≤ w.quota u) :
    Move ⟨w.quota u, P, T⟩ ⟨w'.quota u, P + (c'.pendingOnUser cfg u - c.pendingOnUser cfg u),
      T + (c'.takenFromUser u - c.takenFromUser u)⟩ := by
  have hnonneg := pendingOnUser_nonneg hc u
  by_cases hu : c.info.userId = u
  case neg =>
    -- the wallet is someone else's
    have hquota : w'.quota u = w.quota u := by
      cases h <;> simp [Accounts.addQuota, Ne.symm hu]
    have hi := h.info_eq
    refine .stay hquota ?_ ?_
    · simp [Call.pendingOnUser, hi, hu]
    · simp [Call.takenFromUser, hi, hu]
  case pos =>
    subst hu
    unfold Call.InOrder at hc
    cases h with
    | stop r =>
      refine .withdraw _ hnonneg hP rfl ?_ ?_
      · simp only [Call.pendingOnUser, if_true]
        omega
      · simp [Call.takenFromUser]
    | passUser q stage hs hr hp hstage =>
      refine .accept (c.effectiveQuota cfg q) hp.2.2.le (hcover q hs hr hp rfl) rfl ?_ ?_
      · rcases hstage with rfl | ⟨rfl, -⟩ <;>
          simp [Call.pendingOnUser, hs]
      · simp [Call.takenFromUser]
    | passToken q r hs hr hp =>
      refine .stay rfl ?_ ?_
      · simp [Call.pendingOnUser, hs]
      · simp [Call.takenFromUser]
    | takeToken q hs =>
      refine .stay rfl ?_ ?_
      · simp [Call.pendingOnUser, hs]
      · simp [Call.takenFromUser]
    | takeUser q r hs =>
      simp only [hs] at hc
      have hp : c.pendingOnUser cfg c.info.userId = c.effectiveQuota cfg q := by
        simp [Call.pendingOnUser, hs]
      refine .take (c.effectiveQuota cfg q) hc.2.2.le (hp ▸ hP) ?_ ?_ ?_
      · simp [sub_eq_add_neg]
      · rw [hp]
        simp [Call.pendingOnUser]
        omega
      · simp [Call.takenFromUser, hc.1]
    | failUser q e hs =>
      refine .withdraw _ hnonneg hP rfl ?_ ?_
      · simp only [Call.pendingOnUser, if_true]
        omega
      · simp [Call.takenFromUser]
    | giveBack e r hs =>
      refine .stay rfl ?_ ?_
      · simp [Call.pendingOnUser, hs]
      · simp [Call.takenFromUser]

/-- **A statement moves token `t`**, if the call is one that looks at it first. -/
theorem Next.move_token (h : Next cfg a c w c' w')
    (hc : c.InOrder cfg) (t P T : Int) (hP : c.pendingOnToken cfg t ≤ P)
    (hlimited : c.info.tokenId = t → c.info.isPlayground = false → c.info.tokenUnlimited = false)
    (hcover : ∀ q r, c.stage = .getTokenByKey q →
      a.read (w.token c.info.tokenId).remainQuota = .ok r → c.info.tokenUnlimited = false →
      c.effectiveQuota cfg q ≤ r → c.info.tokenId = t →
      P + c.effectiveQuota cfg q ≤ (w.token t).remainQuota) :
    Move ⟨(w.token t).remainQuota, P, T⟩
      ⟨(w'.token t).remainQuota, P + (c'.pendingOnToken cfg t - c.pendingOnToken cfg t),
        T + (c'.takenFromToken t - c.takenFromToken t)⟩ := by
  have hnonneg := pendingOnToken_nonneg hc t
  by_cases ht : c.info.tokenId = t
  case neg =>
    have hrow : (w'.token t).remainQuota = (w.token t).remainQuota := by
      cases h <;> simp [Accounts.addToken, Ne.symm ht]
    have hi := h.info_eq
    refine .stay hrow ?_ ?_
    · simp [Call.pendingOnToken, hi, ht]
    · simp [Call.takenFromToken, hi, ht]
  case pos =>
    subst ht
    unfold Call.InOrder at hc
    cases h with
    | stop r =>
      refine .withdraw _ hnonneg hP rfl ?_ ?_
      · simp only [Call.pendingOnToken, if_true]
        omega
      · simp [Call.takenFromToken]
    | passUser q stage hs hr hp hstage =>
      refine .stay rfl ?_ ?_
      · rcases hstage with rfl | ⟨rfl, -⟩ <;> simp [Call.pendingOnToken, hs]
      · simp [Call.takenFromToken]
    | passToken q r hs hr hp =>
      simp only [hs] at hc
      have hl := hlimited rfl hc.2.2.2
      have hcovered := hcover q r hs hr hl (hp hl) rfl
      refine .accept (c.effectiveQuota cfg q) hc.2.2.1.le hcovered rfl ?_ ?_
      · simp [Call.pendingOnToken, hs]
      · simp [Call.takenFromToken]
    | takeToken q hs =>
      simp only [hs] at hc
      have hp : c.pendingOnToken cfg c.info.tokenId = c.effectiveQuota cfg q := by
        simp [Call.pendingOnToken, hs]
      refine .take (c.effectiveQuota cfg q) hc.2.2.le (hp ▸ hP) ?_ ?_ ?_
      · simp [sub_eq_add_neg]
      · rw [hp]
        simp [Call.pendingOnToken]
        omega
      · simp [Call.takenFromToken, hc.2.1]
    | takeUser q r hs =>
      refine .stay rfl ?_ ?_
      · simp [Call.pendingOnToken, hs]
      · simp [Call.takenFromToken]
    | failUser q e hs =>
      refine .stay rfl ?_ ?_
      · simp [Call.pendingOnToken, hs]
      · simp [Call.takenFromToken]
    | giveBack e r hs =>
      simp only [hs] at hc
      refine .restore c.fromToken hc.2 ?_ ?_ ?_
      · simp
      · simp [Call.pendingOnToken, hs]
      · simp [Call.takenFromToken]
        omega

end Statement

/-! ### Whole runs -/

section Runs

variable {cfg : Config} {x : State} {i : Nat} {c : Call}

/-- The wallets after a statement of the `i`-th call. -/
theorem wallet_set (hi : x.calls[i]? = some c) (c' : Call) (w : Accounts)
    (u : Int) : State.wallet cfg ⟨w, x.calls.set i c'⟩ u =
      ⟨w.quota u, (x.wallet cfg u).pending + (c'.pendingOnUser cfg u - c.pendingOnUser cfg u),
        (x.wallet cfg u).taken + (c'.takenFromUser u - c.takenFromUser u)⟩ := by
  simp only [State.wallet, tally_set hi]

theorem token_set (hi : x.calls[i]? = some c) (c' : Call) (w : Accounts)
    (t : Int) : State.token cfg ⟨w, x.calls.set i c'⟩ t =
      ⟨(w.token t).remainQuota,
        (x.token cfg t).pending + (c'.pendingOnToken cfg t - c.pendingOnToken cfg t),
        (x.token cfg t).taken + (c'.takenFromToken t - c.takenFromToken t)⟩ := by
  simp only [State.token, tally_set hi]

theorem wallet_begin (info : RelayInfo) (preConsumedQuota u : Int) :
    (step cfg x (.begin info preConsumedQuota)).wallet cfg u = x.wallet cfg u := by
  simp [step, State.wallet, Call.fresh, Call.pendingOnUser, Call.takenFromUser]

theorem token_begin (info : RelayInfo) (preConsumedQuota t : Int) :
    (step cfg x (.begin info preConsumedQuota)).token cfg t = x.token cfg t := by
  simp [step, State.token, Call.fresh, Call.pendingOnToken, Call.takenFromToken]

/-- A statement leaves every call with what it was asked for. -/
theorem limited_of_set {c' : Call} {w : Accounts} {t : Int}
    (hi : x.calls[i]? = some c) (hinfo : c'.info = c.info)
    (h : State.Limited ⟨w, x.calls.set i c'⟩ t) : x.Limited t := by
  intro d hd
  obtain ⟨j, hj⟩ := List.mem_iff_getElem?.mp hd
  by_cases hij : i = j
  · subst hij
    obtain rfl : d = c := Option.some.inj (hj.symm.trans hi)
    have hmem : c' ∈ x.calls.set i c' :=
      List.mem_set (List.getElem?_eq_some_iff.mp hi).1 c'
    exact hinfo ▸ h c' hmem
  · have hmem : d ∈ x.calls.set i c' :=
      List.mem_iff_getElem?.mpr ⟨j, by rw [List.getElem?_set_ne hij, hj]⟩
    exact h d hmem

/-- **What holds in every state of a covered run.** -/
structure Inv (cfg : Config) (w₀ : Accounts) (x : State) : Prop where
  inOrder : ∀ c ∈ x.calls, c.InOrder cfg
  wallet : ∀ u, Sound (w₀.quota u) (x.wallet cfg u)
  token : ∀ t, x.Limited t → Sound (w₀.token t).remainQuota (x.token cfg t)

theorem inv_start (cfg : Config) (w₀ : Accounts) : Inv cfg w₀ (.start w₀) := by
  refine ⟨fun c hc => absurd hc List.not_mem_nil, fun u => ?_, fun t _ => ?_⟩
  · simpa only [State.wallet, State.start, tally_nil] using sound_start (w₀.quota u)
  · simpa only [State.token, State.start, tally_nil] using sound_start (w₀.token t).remainQuota

variable {w₀ : Accounts}

theorem Inv.begin (h : Inv cfg w₀ x) (info : RelayInfo) (preConsumedQuota : Int) :
    Inv cfg w₀ (step cfg x (.begin info preConsumedQuota)) := by
  have hcalls : (step cfg x (.begin info preConsumedQuota)).calls =
      x.calls ++ [Call.fresh info preConsumedQuota] := rfl
  refine ⟨fun c hc => ?_, fun u => ?_, fun t ht => ?_⟩
  · rw [hcalls] at hc
    rcases List.mem_append.mp hc with hc | hc
    · exact h.inOrder c hc
    · obtain rfl := List.mem_singleton.mp hc
      simp [Call.InOrder, Call.fresh]
  · rw [wallet_begin]
    exact h.wallet u
  · rw [token_begin]
    refine h.token t fun c hc => ht c ?_
    rw [hcalls]
    exact List.mem_append_left _ hc

theorem Inv.next (h : Inv cfg w₀ x) {a : Answer}
    (hi : x.calls[i]? = some c) (hcov : c.Covered cfg x a) :
    Inv cfg w₀ (step cfg x (.next i a)) := by
  have hmem : c ∈ x.calls := List.mem_of_getElem? hi
  have hc := h.inOrder c hmem
  have hnext := next_spec cfg a c x.accounts
  generalize hc' : (c.next cfg a x.accounts).1 = c' at hnext
  generalize hw' : (c.next cfg a x.accounts).2 = w' at hnext
  have hstep : step cfg x (.next i a) = ⟨w', x.calls.set i c'⟩ := by
    simp only [step, hi, hc', hw']
  rw [hstep]
  refine ⟨fun d hd => ?_, fun u => ?_, fun t ht => ?_⟩
  · rcases List.mem_or_eq_of_mem_set hd with hd | rfl
    · exact h.inOrder d hd
    · exact hnext.inOrder hc
  · rw [wallet_set hi]
    refine (h.wallet u).move (hnext.move_user hc u _ _ ?_ ?_)
    · exact le_tally (fun d hd => pendingOnUser_nonneg (h.inOrder d hd) u) hmem
    · intro q hs hr hp hu
      subst hu
      simp only [Call.Covered, hs, hr] at hcov
      exact hcov hp
  · rw [token_set hi]
    have hlimited := limited_of_set hi hnext.info_eq ht
    refine (h.token t hlimited).move (hnext.move_token hc t _ _ ?_ (hlimited c hmem) ?_)
    · exact le_tally (fun d hd => pendingOnToken_nonneg (h.inOrder d hd) t) hmem
    · intro q r hs hr hl hle ht
      subst ht
      simp only [Call.Covered, hs, hr] at hcov
      exact hcov hl hle

theorem Inv.step (h : Inv cfg w₀ x) {e : Event} (hcov : Covered cfg x e) :
    Inv cfg w₀ (step cfg x e) := by
  cases e with
  | begin info preConsumedQuota => exact h.begin info preConsumedQuota
  | next i a =>
    rcases hi : x.calls[i]? with _ | c
    · simpa only [Race.step, hi] using h
    · exact h.next hi (hcov c hi)

/-- **Nothing is overspent as long as what a call finds is there for it**: in every run, in
which every call that passes a check of the wallet or of its token finds its amount
besides the amounts of the calls that have passed that check and not taken yet. -/
theorem no_overspend_of_covered (cfg : Config) (w₀ : Accounts) (es : List Event)
    (h : Along (step cfg) (Covered cfg) (.start w₀) es) :
    NoOverspend cfg w₀ (run (step cfg) (.start w₀) es) := by
  have hinv : Inv cfg w₀ (run (step cfg) (.start w₀) es) :=
    inv_run (I := Inv cfg w₀) (fun _ _ hx hc => hx.step hc) (inv_start cfg w₀) h
  exact ⟨fun u => ⟨(hinv.wallet u).within, (hinv.wallet u).nonneg⟩,
    fun t ht => ⟨(hinv.token t ht).within, (hinv.token t ht).nonneg⟩⟩

end Runs

/-! ### Two calls at once -/

/-- A request of user 1 with token 1, which is limited. -/
def request : RelayInfo :=
  { userId := 1, tokenId := 1, requestId := "r", billingPreference := "wallet_only",
    tokenQuota := 10, tokenUnlimited := false, isPlayground := false, forcePreConsume := false,
    userQuota := 0, finalPreConsumedQuota := 0, billingSource := .wallet, subscriptionId := 0,
    subscriptionPreConsumed := 0, subscriptionPostDelta := 0, subscriptionAmountTotal := 0,
    subscriptionAmountUsedAfterPreConsume := 0, subscriptionPlanId := 0,
    subscriptionPlanTitle := "" }

def noTrust : Config := ⟨0, fun _ => ""⟩

/-- Ten in the wallet and ten on the token. -/
def ten : Accounts :=
  { quota := fun _ => 10, token := fun _ => ⟨10, 0⟩, amountUsed := fun _ => 0,
    record := fun _ => none }

/-- The next statement of a call, answered by the database. -/
def turn (i : Nat) : Event := .next i (.database none)

/-- Two calls for ten, which both look before either takes. -/
def bothRead : List Event :=
  [.begin request 10, .begin request 10, turn 0, turn 1, turn 0, turn 1,
    turn 0, turn 0, turn 1, turn 1]

/-- **Both calls succeed**, and leave the wallet and the token at minus ten. -/
theorem overspend_both_read :
    ¬NoOverspend noTrust ten (run (step noTrust) (.start ten) bothRead) := by
  intro h
  exact absurd ((h.1 1).2 (by decide)) (by decide)

/-- The same two calls one after the other: the second is refused. -/
def oneByOne : List Event :=
  [.begin request 10, .begin request 10, turn 0, turn 0, turn 0, turn 0, turn 1]

theorem no_overspend_one_by_one :
    Along (step noTrust) (Covered noTrust) (.start ten) oneByOne ∧
      NoOverspend noTrust ten (run (step noTrust) (.start ten) oneByOne) := by
  have h : Along (step noTrust) (Covered noTrust) (.start ten) oneByOne := by
    refine ⟨trivial, trivial, fun c hc => ?_, fun c hc => ?_, fun c hc => ?_, fun c hc => ?_,
      fun c hc => ?_, trivial⟩ <;> obtain rfl := Option.some.inj hc
    · intro _
      decide
    · intro _ _
      decide
    · trivial
    · trivial
    · -- the wallet is empty when the second call looks
      intro hpasses
      exact absurd hpasses.1 (by decide)
  exact ⟨h, no_overspend_of_covered noTrust ten oneByOne h⟩

end NewApiPool.Billing.Race
