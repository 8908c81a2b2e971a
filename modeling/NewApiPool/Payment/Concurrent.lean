import NewApiPool.Lib.ReadCommitted
import NewApiPool.Payment.TopUp

/-!
# Credits under concurrency

`Redeem` and the callbacks of the payment providers read a row – the code, the order –,
check that it has not been used, and then write it and the user. The read is meant to
lock the row: it sets `gorm:query_option` to `FOR UPDATE`, which the second version of
the library ignores. So the transactions are those of
`NewApiPool.Lib.ReadCommitted`, and two that have both read the row both credit.

What the lock was there for is that no transaction reads the row while another one that
has read it may still write. In every interleaving of which that is true, the row
credits once (`NewApiPool.Payment.creditedOnce_of_exclusive`).
-/

namespace NewApiPool.Payment

open EventSystem ReadCommitted

variable {M R : Type}

/-! ### The transactions, statement by statement -/

/-- The row of the code or of the order, and the rows of the users. -/
inductive Key where
  | row
  | user (id : Int)
deriving DecidableEq, Repr

/-- What the rows hold: the order, or the code, if there is one, and the users by their ids. -/
abbrev Rows (R : Type) : Key → Type
  | .row => Option R
  | .user _ => Option User

/-- `Redemption.Status`. -/
inductive RedemptionStatus where
  | enabled
  | disabled
  | used
deriving DecidableEq, Repr

/-- The fields of a row of `redemptions` that `Redeem` reads or writes. -/
structure Redemption where
  quota : Int
  status : RedemptionStatus
  redeemedTime : Int
  usedUserId : Int
  expiredTime : Int
deriving DecidableEq, Repr

/-- An `UPDATE` of a user. -/
def updateUserRow (id : Int) (f : User → User) (next : Prog (Rows R)) : Prog (Rows R) :=
  .write (.user id) (fun u : Option User => u.map f) next

/-- A `Save` of the row. -/
def saveRow (r : R) (next : Prog (Rows R)) : Prog (Rows R) :=
  .write .row (fun _ => some r) next

/-- The transaction of `Redeem`. `now` is the time of the check, `redeemedTime` that of
the save. -/
def redeemTx (userId now redeemedTime : Int) : Prog (Rows Redemption) :=
  if userId = 0 then .abort
  else .read .row fun row : Option Redemption =>
    match row with
    | none => .abort
    | some redemption =>
      if redemption.status ≠ .enabled then .abort
      else if redemption.expiredTime ≠ 0 ∧ redemption.expiredTime < now then .abort
      else
        updateUserRow userId (fun u => { u with quota := u.quota + redemption.quota }) <|
        saveRow { redemption with
          redeemedTime := redeemedTime
          status := .used
          usedUserId := userId } .commit

/-- The end of the callbacks: the order is saved as completed. -/
def completeRow (topUp : TopUp M) (now : Int) (next : Prog (Rows (TopUp M))) :
    Prog (Rows (TopUp M)) :=
  saveRow { topUp with completeTime := now, status := .success } next

/-- The transaction of `Recharge`. -/
def rechargeTx (rates : Rates M) (customerId : String) (now : Int) : Prog (Rows (TopUp M)) :=
  .read .row fun row : Option (TopUp M) =>
    match row with
    | none => .abort
    | some topUp =>
      if topUp.paymentProvider ≠ .stripe then .abort
      else if topUp.status ≠ .pending then .abort
      else completeRow topUp now <|
        updateUserRow topUp.userId (fun u =>
          { u with stripeCustomer := customerId, quota := u.quota + rates.floatQuota topUp.money })
          .commit

/-- The transaction of `RechargeCreem`, with a query of the user for the email. -/
def rechargeCreemTx (customerEmail : String) (now : Int) : Prog (Rows (TopUp M)) :=
  .read .row fun row : Option (TopUp M) =>
    match row with
    | none => .abort
    | some topUp =>
      if topUp.paymentProvider ≠ .creem then .abort
      else if topUp.status ≠ .pending then .abort
      else completeRow topUp now <|
        if customerEmail = "" then
          updateUserRow topUp.userId (fun u => { u with quota := u.quota + topUp.amount }) .commit
        else .read (.user topUp.userId) fun user : Option User =>
          match user with
          | none => .abort
          | some user =>
            updateUserRow topUp.userId (fun u =>
              { u with
                quota := u.quota + topUp.amount
                email := if user.email = "" then customerEmail else u.email }) .commit

/-- The transaction of `RechargeWaffo`. -/
def rechargeWaffoTx (rates : Rates M) (now : Int) : Prog (Rows (TopUp M)) :=
  .read .row fun row : Option (TopUp M) =>
    match row with
    | none => .abort
    | some topUp =>
      if topUp.paymentProvider ≠ .waffo then .abort
      else if topUp.status = .success then .commit
      else if topUp.status ≠ .pending then .abort
      else if rates.amountQuota topUp ≤ 0 then .abort
      else completeRow topUp now <|
        updateUserRow topUp.userId
          (fun u => { u with quota := u.quota + rates.amountQuota topUp }) .commit

/-! ### Each of them on its own -/

/-- The rows that the transactions on one order see. -/
def rowsOf (db : Db M) (no : String) : ∀ k, Rows (TopUp M) k
  | .row => db.topUp no
  | .user id => db.user id

section Atomic

variable {rates : Rates M} {db : Db M} {no : String}

theorem rowsOf_setTopUp (topUp : TopUp M) :
    Function.update (rowsOf db no) .row (some topUp : Option (TopUp M)) =
      rowsOf (db.setTopUp no topUp) no := by
  funext k
  cases k with
  | row => simp [rowsOf]
  | user id => rfl

theorem rowsOf_updateUser (id : Int) (f : User → User) :
    Function.update (rowsOf db no) (.user id) ((db.user id).map f : Option User) =
      rowsOf (db.updateUser id f) no := by
  funext k
  cases k with
  | row => rfl
  | user v =>
    by_cases hv : v = id
    · subst hv
      simp [rowsOf, Db.updateUser]
    · have hne : Key.user v ≠ Key.user id := fun h => hv (Key.user.inj h)
      rw [Function.update_of_ne hne]
      simp [rowsOf, Db.updateUser, hv]

/-- The statements that complete an order and credit its user, executed on their own. -/
theorem atomic_complete (topUp : TopUp M) (now : Int) (f : User → User) :
    (completeRow topUp now (updateUserRow topUp.userId f .commit)).atomic (rowsOf db no) =
      some (rowsOf ((db.complete no topUp now).updateUser topUp.userId f) no) := by
  simp only [completeRow, saveRow, updateUserRow, Prog.atomic]
  rw [rowsOf_setTopUp]
  exact congrArg some (rowsOf_updateUser topUp.userId f)

/-- **`Recharge`, statement by statement and on its own, is the function of
`NewApiPool.Payment.TopUp`.** -/
theorem apply_rechargeTx (customerId : String) (now : Int) (hno : no ≠ "") :
    Prog.apply (rowsOf db no) (rechargeTx rates customerId now) =
      rowsOf (recharge rates db no customerId now).2 no := by
  unfold Prog.apply rechargeTx recharge
  rw [if_neg hno, Prog.atomic]
  simp only [rowsOf]
  rcases db.topUp no with _ | o
  · rfl
  dsimp only
  split
  · rfl
  split
  · rfl
  · rw [atomic_complete]
    rfl

/-- The same for `RechargeCreem`. -/
theorem apply_rechargeCreemTx (email : String) (now : Int) (hno : no ≠ "") :
    Prog.apply (rowsOf db no) (rechargeCreemTx email now) =
      rowsOf (rechargeCreem db no email now).2 no := by
  unfold Prog.apply rechargeCreemTx rechargeCreem
  rw [if_neg hno, Prog.atomic]
  simp only [rowsOf]
  rcases db.topUp no with _ | o
  · rfl
  dsimp only
  split
  · rfl
  split
  · rfl
  by_cases hemail : email = ""
  · rw [if_pos hemail, atomic_complete, if_neg (fun h => h.1 hemail)]
    simp [hemail, transaction]
  rw [if_neg hemail]
  simp only [completeRow, saveRow, Prog.atomic]
  rw [rowsOf_setTopUp]
  simp only [rowsOf]
  rcases hu : db.user o.userId with _ | u
  · have hnone : (db.setTopUp no { o with completeTime := now, status := .success }).user o.userId =
        none := hu
    rw [hnone, if_pos ⟨hemail, rfl⟩]
    rfl
  · have hsome : (db.setTopUp no { o with completeTime := now, status := .success }).user o.userId =
        some u := hu
    rw [hsome, if_neg (fun h => by cases h.2)]
    simp only [updateUserRow, Prog.atomic, transaction, Db.complete]
    refine (rowsOf_updateUser o.userId _).trans ?_
    -- the update decides on the email by the row that was read, which is the same row
    congr 1
    unfold Db.updateUser
    congr 1
    funext v
    by_cases hv : v = o.userId
    · subst hv
      rw [if_pos rfl, if_pos rfl, hsome]
      simp [hemail]
    · rw [if_neg hv, if_neg hv]

/-- The same for `RechargeWaffo`. -/
theorem apply_rechargeWaffoTx (now : Int) (hno : no ≠ "") :
    Prog.apply (rowsOf db no) (rechargeWaffoTx rates now) =
      rowsOf (rechargeWaffo rates db no now).2 no := by
  unfold Prog.apply rechargeWaffoTx rechargeWaffo rechargeByAmount
  rw [if_neg hno, Prog.atomic]
  simp only [rowsOf]
  rcases db.topUp no with _ | o
  · rfl
  dsimp only
  split
  · rfl
  split
  · rfl
  split
  · rfl
  split
  · rfl
  · rw [atomic_complete]
    rfl

end Atomic

/-! ### At most one credit -/

/-- The quota of a user, 0 if there is none of that id. -/
def quotaOf (st : ∀ k, Rows R k) (id : Int) : Int := ((st (.user id)).map User.quota).getD 0

/-- **At most one credit of `amount` was given**, to one user. -/
def CreditedAtMostOnce (amount : Int) (before after : Int → Int) : Prop :=
  (∀ id, after id = before id) ∨
    ∃ u, ∀ id, after id = before id + if id = u then amount else 0

/-- What a code or an order credits: the amount, and whether it still can. -/
structure Voucher (R : Type) where
  amount : R → Int
  unused : R → Prop

/-- Where the rows stand after some transactions: the row is as it was, and nobody was
credited; or it is used up, and at most one user was. -/
def Spent (voucher : Voucher R) (st : ∀ k, Rows R k) (r : R) (st' : ∀ k, Rows R k) : Prop :=
  (st' .row = some r ∧ ∀ id, quotaOf st' id = quotaOf st id) ∨
    ((∃ r', st' .row = some r' ∧ ¬ voucher.unused r') ∧
      CreditedAtMostOnce (voucher.amount r) (quotaOf st) (quotaOf st'))

/-- **A transaction that honours the voucher**: on its own it changes nothing, or it finds
the row unused, uses it up and credits its amount to a user, if the user exists. -/
def Honours (voucher : Voucher R) (p : Prog (Rows R)) : Prop :=
  ∀ st : ∀ k, Rows R k, p.apply st = st ∨
    ∃ r r' u, st .row = some r ∧ voucher.unused r ∧ p.apply st .row = some r' ∧
      ¬ voucher.unused r' ∧ ∀ id, quotaOf (p.apply st) id =
        quotaOf st id + if id = u ∧ st (.user u) ≠ none then voucher.amount r else 0

section Serial

variable {voucher : Voucher R} {st st' : ∀ k, Rows R k} {r : R}

theorem Spent.creditedAtMostOnce (h : Spent voucher st r st') :
    CreditedAtMostOnce (voucher.amount r) (quotaOf st) (quotaOf st') := by
  rcases h with ⟨-, hsame⟩ | ⟨-, honce⟩
  · exact Or.inl hsame
  · exact honce

theorem Spent.apply {p : Prog (Rows R)} (h : Spent voucher st r st') (hp : Honours voucher p) :
    Spent voucher st r (p.apply st') := by
  rcases hp st' with heq | ⟨r₁, r₂, u, hr₁, hunused, hr₂, hused, hquota⟩
  · rw [heq]
    exact h
  rcases h with ⟨hrow, hsame⟩ | ⟨⟨r', hrow, hspent⟩, -⟩
  · rw [hrow] at hr₁
    cases hr₁
    refine Or.inr ⟨⟨r₂, hr₂, hused⟩, ?_⟩
    by_cases hu : st' (.user u) ≠ none
    · refine Or.inr ⟨u, fun id => ?_⟩
      rw [hquota, hsame]
      simp [hu]
    · refine Or.inl fun id => ?_
      rw [hquota, hsame, if_neg (fun h => hu h.2)]
      omega
  · rw [hrow] at hr₁
    cases hr₁
    exact absurd hunused hspent

theorem Spent.replay {ps : List (Prog (Rows R))} (h : Spent voucher st r st')
    (hps : ∀ p ∈ ps, Honours voucher p) : Spent voucher st r (replay st' ps) := by
  induction ps generalizing st' with
  | nil => exact h
  | cons p ps ih =>
    exact ih (h.apply (hps p List.mem_cons_self)) fun q hq => hps q (List.mem_cons_of_mem p hq)

/-- Transactions that honour a voucher and are kept apart credit it once. -/
theorem creditedAtMostOnce_of_honours {P : Prog (Rows R) → Prop}
    (hP : ∀ p, P p → Honours voucher p) {es : List (Event (Rows R))} (hrow : st .row = some r)
    (h : Along Store.step (fun s e => Exclusive s e ∧ Begins P e) (.start st) es) :
    CreditedAtMostOnce (voucher.amount r) (quotaOf st)
      (quotaOf (run Store.step (.start st) es).committed) := by
  obtain ⟨ps, hps, heq⟩ := replay_of_exclusive h
  rw [heq]
  have hstart : Spent voucher st r st := Or.inl ⟨hrow, fun _ => rfl⟩
  exact (hstart.replay fun p hp => hP p (hps p hp)).creditedAtMostOnce

end Serial

/-! ### Codes and orders -/

/-- A code, for `Redeem`. -/
def redemptionVoucher : Voucher Redemption where
  amount := Redemption.quota
  unused r := r.status = .enabled

/-- An order, for the callbacks. Its provider says which of them is the one for it. -/
def orderVoucher (rates : Rates M) : Voucher (TopUp M) where
  amount topUp :=
    match topUp.paymentProvider with
    | .stripe => rates.floatQuota topUp.money
    | .creem => topUp.amount
    | _ => rates.amountQuota topUp
  unused topUp := topUp.status = .pending

/-- The calls of `Redeem`. -/
def IsRedeem (p : Prog (Rows Redemption)) : Prop :=
  ∃ userId now redeemedTime, p = redeemTx userId now redeemedTime

/-- The calls of `Recharge`, `RechargeCreem` and `RechargeWaffo`. -/
def IsCallback (rates : Rates M) (p : Prog (Rows (TopUp M))) : Prop :=
  (∃ customerId now, p = rechargeTx rates customerId now) ∨
    (∃ email now, p = rechargeCreemTx email now) ∨ ∃ now, p = rechargeWaffoTx rates now

theorem IsRedeem.honours {p : Prog (Rows Redemption)} (h : IsRedeem p) :
    Honours redemptionVoucher p := by
  obtain ⟨userId, now, redeemedTime, rfl⟩ := h
  intro st
  unfold Prog.apply redeemTx
  split
  · exact Or.inl rfl
  rw [Prog.atomic]
  rcases hrow : st .row with _ | r
  · exact Or.inl rfl
  dsimp only
  split
  · exact Or.inl rfl
  rename_i hstatus
  split
  · exact Or.inl rfl
  refine Or.inr ⟨r, { r with
    redeemedTime := redeemedTime
    status := .used
    usedUserId := userId }, userId, rfl, not_not.mp hstatus, ?_, nofun, fun id => ?_⟩
  · simp [updateUserRow, saveRow, Prog.atomic]
  · by_cases hid : id = userId
    · subst hid
      rcases hu : st (.user id) with _ | u
      · simp [updateUserRow, saveRow, Prog.atomic, quotaOf, hu]
      · simp [updateUserRow, saveRow, Prog.atomic, quotaOf, hu, redemptionVoucher]
    · simp [updateUserRow, saveRow, Prog.atomic, quotaOf, hid]

/-- Every content of the rows is that of a database with one order. -/
theorem exists_rowsOf (st : ∀ k, Rows (TopUp M) k) : ∃ db : Db M, rowsOf db "order" = st := by
  refine ⟨⟨fun no => if no = "order" then st .row else none, fun id => st (.user id)⟩, ?_⟩
  funext k
  cases k with
  | row => simp [rowsOf]
  | user id => rfl

/-- A callback that does what a call of `NewApiPool.Payment.TopUp` does honours the order,
if the call credits what the provider of the order stands for. -/
theorem honours_of_exec {rates : Rates M} {p : Prog (Rows (TopUp M))} {c : Call}
    (hno : c.tradeNo = "order")
    (hexec : ∀ db : Db M, p.apply (rowsOf db "order") = rowsOf (c.exec rates db).2 "order")
    (hstatus : ∀ no expected target, c ≠ .updatePendingTopUpStatus no expected target)
    (hcredit : ∀ o : TopUp M, ¬ c.Mismatch o → c.credit rates o = (orderVoucher rates).amount o) :
    Honours (orderVoucher rates) p := by
  intro st
  obtain ⟨db, rfl⟩ := exists_rowsOf st
  rw [hexec]
  rcases Call.acts_exec rates db c with hdb | ⟨o, ho, hpending, hmatch, hacts⟩
  · exact Or.inl (by rw [hdb])
  rw [hno] at ho
  rcases hacts with ⟨no, expected, target, hc, -⟩ | ⟨now, f, hquota, -, hout⟩
  · exact absurd hc (hstatus no expected target)
  rw [hout, hno]
  refine Or.inr ⟨o, { o with completeTime := now, status := .success }, o.userId, ho, hpending,
    ?_, nofun, fun id => ?_⟩
  · simp [rowsOf, Db.complete]
  · rw [← hcredit o hmatch]
    by_cases hid : id = o.userId
    · subst hid
      rcases hu : db.user o.userId with _ | u
      · simp [quotaOf, rowsOf, Db.updateUser, Db.complete, Db.setTopUp, hu]
      · simp [quotaOf, rowsOf, Db.updateUser, Db.complete, Db.setTopUp, hu, hquota]
    · simp [quotaOf, rowsOf, Db.updateUser, Db.complete, Db.setTopUp, hid]

theorem IsCallback.honours {rates : Rates M} {p : Prog (Rows (TopUp M))}
    (h : IsCallback rates p) : Honours (orderVoucher rates) p := by
  have hmatch : ∀ (c : Call) (o : TopUp M), c.provider ≠ .unset → ¬ c.Mismatch o →
      o.paymentProvider = c.provider := fun c o hset hm => not_not.mp fun hne => hm ⟨hset, hne⟩
  have hno : "order" ≠ "" := by decide
  rcases h with ⟨customerId, now, rfl⟩ | ⟨email, now, rfl⟩ | ⟨now, rfl⟩
  · refine honours_of_exec (c := .recharge "order" customerId now) rfl
      (fun db => apply_rechargeTx customerId now hno) nofun fun o hm => ?_
    have hprov := hmatch (.recharge "order" customerId now) o nofun hm
    simp [orderVoucher, Call.credit, hprov, Call.provider]
  · refine honours_of_exec (c := .rechargeCreem "order" email now) rfl
      (fun db => apply_rechargeCreemTx email now hno) nofun fun o hm => ?_
    have hprov := hmatch (.rechargeCreem "order" email now) o nofun hm
    simp [orderVoucher, Call.credit, hprov, Call.provider]
  · refine honours_of_exec (c := .rechargeWaffo "order" now) rfl
      (fun db => apply_rechargeWaffoTx now hno) nofun fun o hm => ?_
    have hprov := hmatch (.rechargeWaffo "order" now) o nofun hm
    simp [orderVoucher, Call.credit, hprov, Call.provider]

/-- **A code and an order credit at most once** in every interleaving in which no
transaction reads the row while another one that has read it may still write. -/
theorem creditedOnce_of_exclusive (rates : Rates M) :
    (∀ (st : ∀ k, Rows Redemption k) (r : Redemption) (es : List (Event (Rows Redemption))),
      st .row = some r →
      Along Store.step (fun s e => Exclusive s e ∧ Begins IsRedeem e) (.start st) es →
      CreditedAtMostOnce r.quota (quotaOf st)
        (quotaOf (run Store.step (.start st) es).committed)) ∧
    (∀ (st : ∀ k, Rows (TopUp M) k) (o : TopUp M) (es : List (Event (Rows (TopUp M)))),
      st .row = some o →
      Along Store.step (fun s e => Exclusive s e ∧ Begins (IsCallback rates) e) (.start st) es →
      CreditedAtMostOnce ((orderVoucher rates).amount o) (quotaOf st)
        (quotaOf (run Store.step (.start st) es).committed)) := by
  refine ⟨fun st r es hrow h => ?_, fun st o es hrow h => ?_⟩
  · have honce : CreditedAtMostOnce (redemptionVoucher.amount r) (quotaOf st)
        (quotaOf (run Store.step (.start st) es).committed) :=
      creditedAtMostOnce_of_honours (fun _ hp => hp.honours) hrow h
    exact honce
  · exact creditedAtMostOnce_of_honours (fun _ hp => hp.honours) hrow h

section Sample

/-- A code of 100 units and two users. -/
def sampleCode : ∀ k, Rows Redemption k
  | .row => some ⟨100, .enabled, 0, 0, 0⟩
  | .user id => if id = 1 ∨ id = 2 then some ⟨0, "", ""⟩ else none

/-- The users redeem the code one after the other, on one connection. -/
def serialRedeems : List (Event (Rows Redemption)) :=
  [.begin 0 (redeemTx 1 10 11), .exec 0, .exec 0, .exec 0, .exec 0,
    .begin 0 (redeemTx 2 12 13), .exec 0, .exec 0]

/-- A Stripe order that two callbacks complete, one after the other. -/
def serialCallbacks : List (Event (Rows (TopUp Int))) :=
  [.begin 0 (rechargeTx sampleRates "cus" 10), .exec 0, .exec 0, .exec 0, .exec 0,
    .begin 0 (rechargeTx sampleRates "cus" 12), .exec 0, .exec 0]

/-- Calls that run one after the other credit an order once. -/
theorem creditedOnce_serial :
    CreditedAtMostOnce 100 (quotaOf sampleCode)
        (quotaOf (run Store.step (.start sampleCode) serialRedeems).committed) ∧
      CreditedAtMostOnce 1000000 (quotaOf (rowsOf (sampleDb .stripe 2) "ref"))
        (quotaOf (run Store.step (.start (rowsOf (sampleDb .stripe 2) "ref"))
          serialCallbacks).committed) := by
  refine ⟨(creditedOnce_of_exclusive sampleRates).1 sampleCode ⟨100, .enabled, 0, 0, 0⟩
    serialRedeems rfl ?_, (creditedOnce_of_exclusive sampleRates).2
      (rowsOf (sampleDb .stripe 2) "ref") (sampleOrder .stripe 2) serialCallbacks ?_ ?_⟩
  · refine exclusive_of_one (i := 0) (fun _ _ => rfl) ?_
    simp only [serialRedeems, List.forall_mem_cons]
    exact ⟨⟨rfl, 1, 10, 11, rfl⟩, ⟨rfl, trivial⟩, ⟨rfl, trivial⟩, ⟨rfl, trivial⟩, ⟨rfl, trivial⟩,
      ⟨rfl, 2, 12, 13, rfl⟩, ⟨rfl, trivial⟩, ⟨rfl, trivial⟩, nofun⟩
  · decide +kernel
  · refine exclusive_of_one (i := 0) (fun _ _ => rfl) ?_
    simp only [serialCallbacks, List.forall_mem_cons]
    exact ⟨⟨rfl, Or.inl ⟨"cus", 10, rfl⟩⟩, ⟨rfl, trivial⟩, ⟨rfl, trivial⟩, ⟨rfl, trivial⟩,
      ⟨rfl, trivial⟩, ⟨rfl, Or.inl ⟨"cus", 12, rfl⟩⟩, ⟨rfl, trivial⟩, ⟨rfl, trivial⟩, nofun⟩

/-- Both users have read the code before either has written. -/
def racingRedeems : List (Event (Rows Redemption)) :=
  [.begin 0 (redeemTx 1 10 11), .begin 1 (redeemTx 2 10 11), .exec 0, .exec 1,
    .exec 0, .exec 0, .exec 0, .exec 1, .exec 1, .exec 1]

/-- Two nodes get the callback of one order. -/
def racingCallbacks : List (Event (Rows (TopUp Int))) :=
  [.begin 0 (rechargeTx sampleRates "cus" 10), .begin 1 (rechargeTx sampleRates "cus" 10),
    .exec 0, .exec 1, .exec 0, .exec 0, .exec 0, .exec 1, .exec 1, .exec 1]

/-- **A code and an order that two transactions read before either has written credit
twice.** -/
theorem racing_reads_credit_twice :
    ¬ CreditedAtMostOnce 100 (quotaOf sampleCode)
        (quotaOf (run Store.step (.start sampleCode) racingRedeems).committed) ∧
      ¬ CreditedAtMostOnce 1000000 (quotaOf (rowsOf (sampleDb .stripe 2) "ref"))
        (quotaOf (run Store.step (.start (rowsOf (sampleDb .stripe 2) "ref"))
          racingCallbacks).committed) := by
  constructor
  · have h₁ : quotaOf (run Store.step (.start sampleCode) racingRedeems).committed 1 = 100 := by
      decide +kernel
    have h₂ : quotaOf (run Store.step (.start sampleCode) racingRedeems).committed 2 = 100 := by
      decide +kernel
    have h₁' : quotaOf sampleCode 1 = 0 := by decide +kernel
    have h₂' : quotaOf sampleCode 2 = 0 := by decide +kernel
    rintro (h | ⟨u, h⟩)
    · have := h 1
      omega
    · have hu₁ := h 1
      have hu₂ := h 2
      split at hu₁
      · split at hu₂ <;> omega
      · omega
  · have h₁ : quotaOf (run Store.step (.start (rowsOf (sampleDb .stripe 2) "ref"))
        racingCallbacks).committed 101 = 2000000 := by
      decide +kernel
    have h₁' : quotaOf (rowsOf (sampleDb .stripe 2) "ref") 101 = 0 := by decide +kernel
    rintro (h | ⟨u, h⟩)
    · have := h 101
      omega
    · have hu := h 101
      split at hu <;> omega

end Sample

end NewApiPool.Payment
