import NewApiPool.Lib.Tally
import NewApiPool.Midjourney.Model

/-!
# Refunds and charges of Midjourney tasks

Do the refunds of the poller match the charges of the submissions
(`NewApiPool.Midjourney.Matches`)? They do in a run exactly when every step of it is
covered (`NewApiPool.Midjourney.matches_run_iff`). What is not covered:

* the poller takes a task for failed whose row has a quota, but whose submission was not
  charged, or has been paid back before: the quota of the row is the price of the
  request, whether it was charged or not, and the guard of the write does not notice a
  refund that left the status as it was;
* it takes for failed, and writes `FAILURE` for, a task that was charged to a token: only
  the user gets the quota back;
* a bulk update or a notification makes a task fail that has not been paid back: neither
  of them pays.

So the property is one of single tasks (`NewApiPool.Midjourney.Task.Ok`), and what makes
it one of the balances is that the accounts are what the books say
(`NewApiPool.Midjourney.Ledger`).
-/

namespace NewApiPool.Midjourney

open Billing Tally EventSystem

/-! ### The property -/

/-- The task has ended in `FAILURE`: no poller will look at it again. -/
def MidjourneyRow.failed (t : MidjourneyRow) : Bool :=
  t.status == "FAILURE" && t.progress == "100%"

/-- The quota that was debited from the user. A negative price is a credit. -/
def Book.debit (b : Book) : Int := max b.consumed 0

/-- What the submission has taken from user `u` on balance. -/
def Book.userNet (u : Int) (b : Book) : Int :=
  if b.userId = u then b.consumed - b.returned else 0

/-- What the submission has taken from token `k`. Nobody gives a token anything back. -/
def Book.tokenNet (k : Int) (b : Book) : Int := if b.tokenId = k then b.tokenConsumed else 0

/-- The balances of the user and the token are what they were before the submission with
number `k`, but for what the other submissions have taken. -/
def Restored (w : Accounts) (x : State) (k : Nat) (b : Book) : Prop :=
  x.accounts.quota b.userId =
      w.quota b.userId - tally (x.books.eraseIdx k) (Book.userNet b.userId) ∧
    (x.accounts.token b.tokenId).remainQuota =
      (w.token b.tokenId).remainQuota - tally (x.books.eraseIdx k) (Book.tokenNet b.tokenId)

/-- **The refunds match the charges**, in a state that was reached from the accounts `w`. -/
structure Matches (w : Accounts) (x : State) : Prop where
  le_debit : ∀ t ∈ x.tasks, t.book.returned ≤ t.book.debit
  once : ∀ t ∈ x.tasks, t.book.refunds ≤ 1
  restored : ∀ k t, x.tasks[k]? = some t → 0 < t.book.debit → t.row.failed →
    Restored w x k t.book

/-- Nothing of what the submission was charged is outstanding. -/
def Book.Settled (b : Book) : Prop :=
  0 < b.consumed → b.returned = b.consumed ∧ b.tokenConsumed = 0

instance (b : Book) : Decidable b.Settled :=
  inferInstanceAs (Decidable (0 < b.consumed → b.returned = b.consumed ∧ b.tokenConsumed = 0))

/-- **The step is covered**: a task that a bulk update or a notification makes fail is
settled; a task with a quota that the poller takes for failed, and wins, was charged, has
not been paid back and, if it is written down as a failure, was not charged to a token. -/
def Covered (cfg : Settings) (x : State) : Event → Prop
  | .save j => ∀ c t, x.saves j = some c → x.tasks[c.id]? = some t → c.row.failed →
      t.book.Settled
  | .fixNull i => ∀ r k t, x.rounds i = some r → k ∈ r.nullTaskIds →
      x.tasks[k]? = some t → t.book.Settled
  | .channel i channelId .missing => ∀ r, x.rounds i = some r → r.nullTaskIds = [] →
      r.items = [] → ∀ t ∈ x.tasks, t.row.mjId ∈ r.taskChannelM channelId → t.book.Settled
  | .item i now => ∀ r first rest c t, x.rounds i = some r → r.items = first :: rest →
      r.taskM first.mjId = some c → x.tasks[c.id]? = some t →
      checkMjTaskNeedUpdate cfg c.row (timedOut now c.row first) →
      t.row.status = c.row.status → buildFails (timedOut now c.row first) →
      0 < c.row.quota →
        t.book.consumed = c.row.quota ∧ t.book.refunds = 0 ∧
          ((timedOut now c.row first).status = "FAILURE" → t.book.tokenConsumed = 0)
  | _ => True

/-! ### The books -/

/-- The property of one task that its books decide. -/
structure Task.Ok (t : Task) : Prop where
  le_debit : t.book.returned ≤ t.book.debit
  once : t.book.refunds ≤ 1
  settled : t.row.failed → t.book.Settled

/-- The books of a task are those of its row: the submission was charged its quota or
nothing, and a refund is one of the quota. -/
structure Task.Sound (t : Task) : Prop where
  consumed : t.book.consumed = 0 ∨ t.book.consumed = t.row.quota
  returned : t.book.returned = t.book.refunds * t.row.quota
  userId : t.row.userId = t.book.userId

/-- The accounts are what the books say, and the books what the rows say. -/
structure Ledger (w : Accounts) (x : State) : Prop where
  sound : ∀ t ∈ x.tasks, t.Sound
  quota : ∀ u, x.accounts.quota u = w.quota u - tally x.books (Book.userNet u)
  token : ∀ k, (x.accounts.token k).remainQuota =
    (w.token k).remainQuota - tally x.books (Book.tokenNet k)

/-- A copy is of a row that there is, and has its quota and its user. -/
def State.Agrees (x : State) (c : Copy) : Prop :=
  ∃ t, x.tasks[c.id]? = some t ∧ c.row.quota = t.row.quota ∧ c.row.userId = t.row.userId

/-- The copies that are held agree. -/
structure Copies (x : State) : Prop where
  rounds : ∀ i r mjId c, x.rounds i = some r → r.taskM mjId = some c → x.Agrees c
  saves : ∀ j c, x.saves j = some c → x.Agrees c

/-- The quota and the user of a row stay as they are, and no row goes. -/
def Keeps (x x' : State) : Prop :=
  ∀ (k : Nat) (t : Task), x.tasks[k]? = some t → ∃ t' : Task, x'.tasks[k]? = some t' ∧
    t'.row.quota = t.row.quota ∧ t'.row.userId = t.row.userId

variable {w : Accounts} {x x' : State} {c : Copy} {cfg : Settings}

theorem Keeps.refl (x : State) : Keeps x x := fun _ t ht => ⟨t, ht, rfl, rfl⟩

theorem State.Agrees.mono (h : x.Agrees c) (hk : Keeps x x') : x'.Agrees c := by
  obtain ⟨t, ht, hquota, huser⟩ := h
  obtain ⟨t', ht', hquota', huser'⟩ := hk c.id t ht
  exact ⟨t', ht', hquota.trans hquota'.symm, huser.trans huser'.symm⟩

theorem Copies.mono (h : Copies x) (hk : Keeps x x') (hrounds : x'.rounds = x.rounds)
    (hsaves : x'.saves = x.saves) : Copies x' where
  rounds i r mjId c hr hc := (h.rounds i r mjId c (hrounds ▸ hr) hc).mono hk
  saves j c hc := (h.saves j c (hsaves ▸ hc)).mono hk

variable {k : Nat} {t : Task}

/-- **The books decide.** Where the accounts are what they say, the balances are restored
exactly when the submission is settled. -/
theorem restored_iff (h : Ledger w x) (ht : x.tasks[k]? = some t) :
    Restored w x k t.book ↔
      t.book.consumed = t.book.returned ∧ t.book.tokenConsumed = 0 := by
  have hbook : x.books[k]? = some t.book := by
    unfold State.books
    rw [List.getElem?_append_left]
    · simp [ht]
    · simpa using (List.getElem?_eq_some_iff.mp ht).1
  unfold Restored
  rw [h.quota, h.token, tally_eraseIdx hbook, tally_eraseIdx hbook]
  unfold Book.userNet Book.tokenNet
  rw [if_pos rfl, if_pos rfl]
  omega

theorem debit_pos_iff (b : Book) : 0 < b.debit ↔ 0 < b.consumed := by
  unfold Book.debit
  omega

/-- **The refunds match the charges exactly when every task is in order.** -/
theorem matches_iff (h : Ledger w x) : Matches w x ↔ ∀ t ∈ x.tasks, t.Ok := by
  constructor
  · intro hm t ht
    obtain ⟨k, hk⟩ := List.mem_iff_getElem?.mp ht
    refine ⟨hm.le_debit t ht, hm.once t ht, fun hfailed hpos => ?_⟩
    have hres := hm.restored k t hk ((debit_pos_iff _).mpr hpos) hfailed
    rw [restored_iff h hk] at hres
    exact ⟨hres.1.symm, hres.2⟩
  · intro hok
    refine ⟨fun t ht => (hok t ht).le_debit, fun t ht => (hok t ht).once, ?_⟩
    intro k t hk hpos hfailed
    have hset := (hok t (List.mem_of_getElem? hk)).settled hfailed ((debit_pos_iff _).mp hpos)
    rw [restored_iff h hk]
    exact ⟨hset.1.symm, hset.2⟩

/-! ### What the operations do to the books -/

theorem addQuota_quota (w : Accounts) (id d u : Int) :
    (w.addQuota id d).quota u = w.quota u + if id = u then d else 0 := by
  unfold Accounts.addQuota
  by_cases hu : id = u
  · subst hu
    simp
  · simp [hu, Function.update_of_ne (Ne.symm hu)]

theorem addToken_remain (w : Accounts) (id d k : Int) :
    ((w.addToken id d).token k).remainQuota =
      (w.token k).remainQuota + if id = k then d else 0 := by
  unfold Accounts.addToken
  by_cases hk : id = k
  · subst hk
    simp
  · simp [hk, Function.update_of_ne (Ne.symm hk)]

/-- `PostConsumeQuota` takes the quota from the user and, but for the playground, from
the token. -/
theorem postConsumeQuota_eq (info : Payer) (w : Accounts) (quota : Int) :
    postConsumeQuota info w quota = .ok (if info.isPlayground then w.addQuota info.userId (-quota)
      else (w.addQuota info.userId (-quota)).addToken info.tokenId (-quota)) := by
  have huser : (if quota > 0 then decreaseUserQuota none w info.userId quota
      else increaseUserQuota none w info.userId (-quota)) =
      .ok (w.addQuota info.userId (-quota)) := by
    by_cases hpos : quota > 0
    · rw [if_pos hpos]
      exact quotaPrimitive_none (by omega)
    · rw [if_neg hpos]
      exact quotaPrimitive_none (by omega)
  unfold postConsumeQuota
  rw [huser]
  cases info.isPlayground with
  | true => rfl
  | false =>
    by_cases hpos : quota > 0
    · simp only [hpos, if_true, Bool.false_eq_true, if_false]
      exact quotaPrimitive_none (by omega)
    · simp only [hpos, Bool.false_eq_true, if_false]
      exact quotaPrimitive_none (by omega)

theorem chargedAccounts_quota (info : Payer) (v : Accounts) (charge : Option Int) (u : Int) :
    (chargedAccounts info v charge).quota u = v.quota u - (newBook info charge).userNet u := by
  unfold newBook Book.userNet
  cases charge with
  | none => simp [chargedAccounts]
  | some quota =>
    simp only [chargedAccounts, postConsumeQuota_eq]
    cases info.isPlayground <;> simp [addQuota_quota] <;> split <;> omega

theorem chargedAccounts_token (info : Payer) (v : Accounts) (charge : Option Int) (k : Int) :
    ((chargedAccounts info v charge).token k).remainQuota =
      (v.token k).remainQuota - (newBook info charge).tokenNet k := by
  unfold newBook Book.tokenNet
  cases charge with
  | none => simp [chargedAccounts]
  | some quota =>
    simp only [chargedAccounts, postConsumeQuota_eq]
    cases info.isPlayground with
    | true => simp
    | false =>
      simp only [Bool.false_eq_true, if_false, addToken_remain, Accounts.addQuota_token,
        Option.getD_some]
      split <;> omega

/-! ### The handlers -/

/-- What holds of the row a handler inserts, if it does: it is the caller's, it has not
failed, and its quota is charged, if anything is. -/
def Outcome.Fits (info : Payer) (o : Outcome) : Prop :=
  ∀ row, o.inserted = some row →
    row.userId = info.userId ∧ row.failed = false ∧ ∀ q, o.charge = some q → q = row.quota

/-- A task that exists already is at 100% only if it has succeeded. -/
theorem existing_failed {t : MidjourneyRow} (ht : t.progress = "0%") (now : Int)
    (resp : MidjourneyResponse) : (t.existing now resp).failed = false := by
  unfold MidjourneyRow.existing MidjourneyRow.failed
  split
  · split
    · simp [*]
    · simp [ht]
  · simp [ht]

theorem existing_fields (t : MidjourneyRow) (now : Int) (resp : MidjourneyResponse) :
    (t.existing now resp).userId = t.userId ∧ (t.existing now resp).quota = t.quota := by
  unfold MidjourneyRow.existing
  repeat' split
  all_goals exact ⟨rfl, rfl⟩

/-- The quota of the row is the price, whatever the response. -/
theorem submittedRow_fields (call : SubmitCall) (req : MidjourneyRequest) (channelId quota : Int)
    (resp : MidjourneyResponse) :
    (submittedRow call req channelId quota resp).userId = call.info.userId ∧
      (submittedRow call req channelId quota resp).quota = quota := by
  simp only [submittedRow]
  repeat' split
  all_goals first | exact ⟨rfl, rfl⟩ | exact existing_fields _ _ _

theorem submittedRow_failed (call : SubmitCall) (req : MidjourneyRequest) (channelId quota : Int)
    (resp : MidjourneyResponse) :
    (submittedRow call req channelId quota resp).failed = false := by
  simp only [submittedRow]
  split
  · simp [MidjourneyRow.failed]
  · repeat' split
    all_goals first
      | exact existing_failed rfl _ _
      | simp [MidjourneyRow.failed, newRow]

variable {info : Payer} {o : Outcome}

theorem fits_of_no_row (h : o.inserted = none) : o.Fits info := by
  intro row hrow
  rw [h] at hrow
  cases hrow

theorem relayMidjourneySubmit_fits (cfg : Settings) (rows : List MidjourneyRow)
    (call : SubmitCall) : (relayMidjourneySubmit cfg rows call).Fits call.info := by
  simp only [relayMidjourneySubmit]
  split
  · exact fits_of_no_row rfl
  split
  · exact fits_of_no_row rfl
  · exact fits_of_no_row rfl
  split
  · exact fits_of_no_row rfl
  split
  · exact fits_of_no_row rfl
  split
  · exact fits_of_no_row rfl
  split
  · exact fits_of_no_row rfl
  -- the one way to a row
  intro row hrow
  cases hrow
  refine ⟨(submittedRow_fields ..).1, submittedRow_failed .., fun q hq => ?_⟩
  rw [(submittedRow_fields ..).2]
  split at hq
  · exact (Option.some.inj hq).symm
  · cases hq

theorem relaySwapFace_fits (cfg : Settings) (call : SwapFaceCall) :
    (relaySwapFace cfg call).Fits call.info := by
  simp only [relaySwapFace]
  split
  · exact fits_of_no_row rfl
  split
  · exact fits_of_no_row rfl
  · exact fits_of_no_row rfl
  split
  · exact fits_of_no_row rfl
  split
  · exact fits_of_no_row rfl
  split
  · exact fits_of_no_row rfl
  intro row hrow
  cases hrow
  refine ⟨rfl, by simp [MidjourneyRow.failed, newRow], fun q hq => ?_⟩
  split at hq
  · exact (Option.some.inj hq).symm
  · cases hq

/-! ### The operations keep the ledger -/

theorem newBook_sound {row : MidjourneyRow} (h : o.Fits info)
    (hrow : o.inserted = some row) : Task.Sound ⟨row, newBook info o.charge⟩ := by
  obtain ⟨huser, -, hcharge⟩ := h row hrow
  refine ⟨?_, by simp [newBook], huser⟩
  cases hc : o.charge with
  | none => exact Or.inl rfl
  | some q => exact Or.inr (hcharge q hc)

theorem Ledger.handled (h : Ledger w x) (ho : o.Fits info) :
    Ledger w (x.handled info o) := by
  have hquota := chargedAccounts_quota info x.accounts o.charge
  have htoken := chargedAccounts_token info x.accounts o.charge
  unfold State.handled
  cases hrow : o.inserted with
  | some row =>
    refine ⟨fun t ht => ?_, fun u => ?_, fun k => ?_⟩
    · rcases List.mem_append.mp ht with ht | ht
      · exact h.sound t ht
      · obtain rfl := List.mem_singleton.mp ht
        exact newBook_sound ho hrow
    · simp only [hquota, h.quota, State.books, List.map_append, List.map_cons, List.map_nil,
        tally_append, tally_cons, tally_nil]
      omega
    · simp only [htoken, h.token, State.books, List.map_append, List.map_cons, List.map_nil,
        tally_append, tally_cons, tally_nil]
      omega
  | none =>
    refine ⟨h.sound, fun u => ?_, fun k => ?_⟩
    · simp only [hquota, h.quota, State.books, tally_append, tally_cons, tally_nil]
      omega
    · simp only [htoken, h.token, State.books, tally_append, tally_cons, tally_nil]
      omega

theorem keeps_handled (x : State) (info : Payer) (o : Outcome) : Keeps x (x.handled info o) := by
  intro k t ht
  refine ⟨t, ?_, rfl, rfl⟩
  unfold State.handled
  cases o.inserted with
  | some row =>
    have hlt : k < x.tasks.length := (List.getElem?_eq_some_iff.mp ht).1
    exact (List.getElem?_append_left hlt).trans ht
  | none => exact ht

theorem tally_books_set (ht : x.tasks[k]? = some t) (t' : Task) (f : Book → Int) :
    tally ((x.tasks.set k t').map Task.book ++ x.lost) f =
      tally x.books f + (f t'.book - f t.book) := by
  have hbook : (x.tasks.map Task.book)[k]? = some t.book := by
    rw [List.getElem?_map, ht]
    rfl
  unfold State.books
  rw [List.map_set, tally_append, tally_append, tally_set hbook]
  omega

theorem Task.Sound.copy (h : t.Sound) (hquota : c.row.quota = t.row.quota)
    (huser : c.row.userId = t.row.userId) : Task.Sound { t with row := c.row } where
  consumed := hquota ▸ h.consumed
  returned := hquota ▸ h.returned
  userId := huser.trans h.userId

theorem Task.Sound.refund (h : t.Sound) (hquota : c.row.quota = t.row.quota)
    (huser : c.row.userId = t.row.userId) :
    Task.Sound ⟨c.row, t.book.refund c.row.quota⟩ where
  consumed := hquota ▸ h.consumed
  returned := by
    simp only [Book.refund, h.returned, hquota, Int.natCast_add, Int.add_mul]
    omega
  userId := huser.trans h.userId

/-- **One task is written**, and the accounts move by what its books do. -/
theorem Ledger.set (h : Ledger w x) {t' : Task} (ht : x.tasks[k]? = some t)
    (hsound : t'.Sound) {v : Accounts}
    (hquota : ∀ u, v.quota u = x.accounts.quota u + t.book.userNet u - t'.book.userNet u)
    (htoken : ∀ n, (v.token n).remainQuota =
      (x.accounts.token n).remainQuota + t.book.tokenNet n - t'.book.tokenNet n) :
    Ledger w { x with tasks := x.tasks.set k t', accounts := v } := by
  refine ⟨fun s hs => ?_, fun u => ?_, fun n => ?_⟩
  · rcases List.mem_or_eq_of_mem_set hs with hs | rfl
    · exact h.sound s hs
    · exact hsound
  · simp only [State.books, tally_books_set ht, hquota u, h.quota u]
    omega
  · simp only [State.books, tally_books_set ht, htoken n, h.token n]
    omega

theorem Ledger.update (h : Ledger w x) (hc : x.Agrees c) : Ledger w (x.update c) := by
  obtain ⟨t, ht, hquota, huser⟩ := hc
  have hsound := (h.sound t (List.mem_of_getElem? ht)).copy hquota huser
  simp only [State.update, ht]
  -- the books are those the task had
  exact h.set ht hsound (fun u => (add_sub_cancel_right _ (t.book.userNet u)).symm)
    fun n => (add_sub_cancel_right _ (t.book.tokenNet n)).symm

/-- The state after a refund with the write of the row. -/
def State.refunded (x : State) (c : Copy) (b : Book) : State :=
  { x with
    tasks := x.tasks.set c.id ⟨c.row, b.refund c.row.quota⟩
    accounts := x.accounts.addQuota c.row.userId c.row.quota }

/-- **What a guarded write does**: nothing if another status is found, and the user is
given the quota back if a refund is due and the quota is not negative. -/
theorem updateWithStatus_eq (ht : x.tasks[c.id]? = some t) (fromStatus : String) (refund : Bool) :
    x.updateWithStatus c fromStatus refund =
      if t.row.status = fromStatus then
        if refund ∧ 0 ≤ c.row.quota then x.refunded c t.book else x.update c
      else x := by
  simp only [State.updateWithStatus, ht]
  by_cases hstatus : t.row.status = fromStatus
  · rw [if_pos hstatus, if_pos hstatus]
    cases refund with
    | false => simp
    | true =>
      by_cases hquota : 0 ≤ c.row.quota
      · simp [increaseUserQuota, quotaPrimitive_none hquota, hquota, State.refunded]
      · have hlt : c.row.quota < 0 := by omega
        simp [increaseUserQuota, quotaPrimitive, hlt, hquota]
  · rw [if_neg hstatus, if_neg hstatus]

theorem Ledger.refunded (h : Ledger w x) (ht : x.tasks[c.id]? = some t)
    (hquota : c.row.quota = t.row.quota) (huser : c.row.userId = t.row.userId) :
    Ledger w (x.refunded c t.book) := by
  have hsound := h.sound t (List.mem_of_getElem? ht)
  refine h.set ht (hsound.refund hquota huser) (fun u => ?_) fun n => ?_
  · simp only [addQuota_quota, Book.refund, Book.userNet, huser.trans hsound.userId]
    split <;> omega
  · simp only [Accounts.addQuota_token, Book.refund, Book.tokenNet]
    omega

theorem Ledger.updateWithStatus (h : Ledger w x) (hc : x.Agrees c) (fromStatus : String)
    (refund : Bool) : Ledger w (x.updateWithStatus c fromStatus refund) := by
  obtain ⟨t, ht, hquota, huser⟩ := hc
  rw [updateWithStatus_eq ht]
  split
  · split
    · exact h.refunded ht hquota huser
    · exact h.update ⟨t, ht, hquota, huser⟩
  · exact h

/-- A task that is replaced by one with its quota and its user. -/
theorem keeps_set (ht : x.tasks[k]? = some t) (t' : Task)
    (hquota : t'.row.quota = t.row.quota) (huser : t'.row.userId = t.row.userId)
    (hx' : x'.tasks = x.tasks.set k t') : Keeps x x' := by
  intro j s hs
  rw [hx']
  by_cases hj : k = j
  · subst hj
    obtain rfl : t = s := Option.some.inj (ht.symm.trans hs)
    exact ⟨t', List.getElem?_set_self (List.getElem?_eq_some_iff.mp ht).1, hquota, huser⟩
  · exact ⟨s, (List.getElem?_set_ne hj).trans hs, rfl, rfl⟩

theorem keeps_update (hc : x.Agrees c) : Keeps x (x.update c) := by
  obtain ⟨t, ht, hquota, huser⟩ := hc
  simp only [State.update, ht]
  exact keeps_set ht { t with row := c.row } hquota huser rfl

theorem keeps_updateWithStatus (hc : x.Agrees c) (fromStatus : String) (refund : Bool) :
    Keeps x (x.updateWithStatus c fromStatus refund) := by
  obtain ⟨t, ht, hquota, huser⟩ := hc
  rw [updateWithStatus_eq ht]
  split
  · split
    · exact keeps_set ht ⟨c.row, t.book.refund c.row.quota⟩ hquota huser rfl
    · exact keeps_update ⟨t, ht, hquota, huser⟩
  · exact Keeps.refl x

/-- What a bulk update leaves of a task. -/
def Task.writtenOff (failReason : Option String) (hit : Bool) (t : Task) : Task :=
  if hit then { t with row := t.row.writtenOff failReason } else t

theorem writeOff_tasks (x : State) (failReason : Option String)
    (hit : Nat → MidjourneyRow → Bool) :
    (x.writeOff failReason hit).tasks =
      x.tasks.mapIdx fun k t => t.writtenOff failReason (hit k t.row) := rfl

@[simp] theorem writtenOff_book (failReason : Option String) (hit : Bool) (t : Task) :
    (t.writtenOff failReason hit).book = t.book := by
  unfold Task.writtenOff
  split <;> rfl

@[simp] theorem writtenOff_quota (failReason : Option String) (hit : Bool) (t : Task) :
    (t.writtenOff failReason hit).row.quota = t.row.quota := by
  unfold Task.writtenOff
  split <;> rfl

@[simp] theorem writtenOff_userId (failReason : Option String) (hit : Bool) (t : Task) :
    (t.writtenOff failReason hit).row.userId = t.row.userId := by
  unfold Task.writtenOff
  split <;> rfl

theorem keeps_writeOff (x : State) (failReason : Option String)
    (hit : Nat → MidjourneyRow → Bool) : Keeps x (x.writeOff failReason hit) := by
  intro k t ht
  refine ⟨t.writtenOff failReason (hit k t.row), ?_, by simp, by simp⟩
  rw [writeOff_tasks, List.getElem?_mapIdx, ht]
  rfl

theorem writeOff_books (x : State) (failReason : Option String)
    (hit : Nat → MidjourneyRow → Bool) : (x.writeOff failReason hit).books = x.books := by
  have hbooks : (x.writeOff failReason hit).tasks.map Task.book = x.tasks.map Task.book := by
    refine List.ext_getElem? fun k => ?_
    rw [writeOff_tasks, List.getElem?_map, List.getElem?_mapIdx, List.getElem?_map]
    cases x.tasks[k]? with
    | none => rfl
    | some t => simp
  unfold State.books
  rw [hbooks]
  rfl

theorem Ledger.writeOff (h : Ledger w x) (failReason : Option String)
    (hit : Nat → MidjourneyRow → Bool) : Ledger w (x.writeOff failReason hit) := by
  have hbooks := writeOff_books x failReason hit
  refine ⟨fun t ht => ?_, fun u => ?_, fun k => ?_⟩
  · rw [writeOff_tasks] at ht
    obtain ⟨k, hk, rfl⟩ := List.mem_mapIdx.mp ht
    have hsound := h.sound _ (List.getElem_mem hk)
    exact ⟨by simpa using hsound.consumed, by simpa using hsound.returned,
      by simpa using hsound.userId⟩
  · rw [hbooks]
    exact h.quota u
  · rw [hbooks]
    exact h.token k

/-! ### The copies -/

@[simp] theorem setRound_tasks (x : State) (i : Nat) (r : Option Round) :
    (x.setRound i r).tasks = x.tasks := rfl

theorem copies_setRound (h : Copies x) (i : Nat) {r : Option Round}
    (hr : ∀ r' mjId c, r = some r' → r'.taskM mjId = some c → x.Agrees c) :
    Copies (x.setRound i r) where
  saves := h.saves
  rounds j r' mjId c hj hc := by
    by_cases hji : j = i
    · subst hji
      exact hr r' mjId c (by simpa [State.setRound] using hj) hc
    · simp only [State.setRound, Function.update_of_ne hji] at hj
      exact h.rounds j r' mjId c hj hc

theorem copies_setRound_same (h : Copies x) {i : Nat} {r r' : Round} (hr : x.rounds i = some r)
    (htaskM : r'.taskM = r.taskM) : Copies (x.setRound i (some r')) := by
  refine copies_setRound h i fun s mjId c hs hc => ?_
  cases hs
  exact h.rounds i r mjId c hr (htaskM ▸ hc)

theorem beginRound_agrees {mjId : String} (hc : (beginRound x.tasks).taskM mjId = some c) :
    x.Agrees c := by
  simp only [beginRound] at hc
  split at hc
  · cases hc
  · have hmem := List.mem_of_getLast? hc
    rw [List.mem_filter, List.mem_filterMap] at hmem
    obtain ⟨⟨⟨t, k⟩, htk, hcopy⟩, -⟩ := hmem
    split at hcopy
    · cases hcopy
      exact ⟨t, List.mem_zipIdx_iff_getElem?.mp htk, rfl, rfl⟩
    · cases hcopy

theorem polled_fields (cfg : Settings) (t : MidjourneyRow) (item : MidjourneyDto) :
    (t.polled cfg item).quota = t.quota ∧ (t.polled cfg item).userId = t.userId := by
  simp only [MidjourneyRow.polled]
  split <;> exact ⟨rfl, rfl⟩

theorem State.Agrees.polled (cfg : Settings) (item : MidjourneyDto) (h : x.Agrees c) :
    x.Agrees { c with row := c.row.polled cfg item } := by
  obtain ⟨t, ht, hquota, huser⟩ := h
  exact ⟨t, ht, (polled_fields cfg c.row item).1.trans hquota,
    (polled_fields cfg c.row item).2.trans huser⟩

@[simp] theorem handled_rounds (x : State) (info : Payer) (o : Outcome) :
    (x.handled info o).rounds = x.rounds ∧ (x.handled info o).saves = x.saves := by
  unfold State.handled
  cases o.inserted <;> exact ⟨rfl, rfl⟩

theorem update_rounds (x : State) (c : Copy) :
    (x.update c).rounds = x.rounds ∧ (x.update c).saves = x.saves := by
  unfold State.update
  cases x.tasks[c.id]? <;> exact ⟨rfl, rfl⟩

theorem updateWithStatus_rounds (hc : x.Agrees c) (fromStatus : String) (refund : Bool) :
    (x.updateWithStatus c fromStatus refund).rounds = x.rounds ∧
      (x.updateWithStatus c fromStatus refund).saves = x.saves := by
  obtain ⟨t, ht, -⟩ := hc
  rw [updateWithStatus_eq ht]
  split
  · split
    · exact ⟨rfl, rfl⟩
    · exact update_rounds x c
  · exact ⟨rfl, rfl⟩

/-! ### What every step keeps -/

/-- The ledger and the copies. -/
structure Base (w : Accounts) (x : State) : Prop where
  ledger : Ledger w x
  copies : Copies x

theorem base_fresh (w : Accounts) : Base w (State.fresh w) where
  ledger := ⟨fun t ht => (List.not_mem_nil ht).elim, fun u => by simp [State.fresh, State.books],
    fun k => by simp [State.fresh, State.books]⟩
  copies := ⟨fun _ _ _ _ hr _ => (Option.some_ne_none _ hr.symm).elim,
    fun _ _ hc => (Option.some_ne_none _ hc.symm).elim⟩

theorem base_handled (h : Base w x) (ho : o.Fits info) :
    Base w (x.handled info o) where
  ledger := h.ledger.handled ho
  copies := h.copies.mono (keeps_handled x info o) (handled_rounds x info o).1
    (handled_rounds x info o).2

theorem base_setRound (h : Base w x) (i : Nat) {r : Option Round}
    (hr : ∀ r' mjId c, r = some r' → r'.taskM mjId = some c → x.Agrees c) :
    Base w (x.setRound i r) :=
  ⟨⟨h.ledger.sound, h.ledger.quota, h.ledger.token⟩, copies_setRound h.copies i hr⟩

theorem base_setRound_same (h : Base w x) {i : Nat} {r r' : Round} (hr : x.rounds i = some r)
    (htaskM : r'.taskM = r.taskM) : Base w (x.setRound i (some r')) :=
  ⟨⟨h.ledger.sound, h.ledger.quota, h.ledger.token⟩, copies_setRound_same h.copies hr htaskM⟩

theorem base_writeOff (h : Base w x) (failReason : Option String)
    (hit : Nat → MidjourneyRow → Bool) : Base w (x.writeOff failReason hit) :=
  ⟨h.ledger.writeOff failReason hit, h.copies.mono (keeps_writeOff x failReason hit) rfl rfl⟩

theorem base_pollItem (h : Base w x) {i : Nat} {r r' : Round} (hr : x.rounds i = some r)
    (htaskM : r'.taskM = r.taskM) (hc : x.Agrees c) {mjId : String} {item : MidjourneyDto} :
    Base w (x.pollItem cfg i r' mjId c item) := by
  simp only [State.pollItem]
  split
  · have hagrees := hc.polled cfg item
    have hkeeps := keeps_updateWithStatus hagrees c.row.status (shouldReturnQuota c.row item)
    have hrounds := updateWithStatus_rounds hagrees c.row.status (shouldReturnQuota c.row item)
    have hledger := h.ledger.updateWithStatus hagrees c.row.status (shouldReturnQuota c.row item)
    refine base_setRound ⟨hledger, h.copies.mono hkeeps hrounds.1 hrounds.2⟩ i ?_
    intro s m c' hs hc'
    cases hs
    rcases update_eq_some hc' with ⟨-, rfl⟩ | ⟨-, hc'⟩
    · exact hagrees.mono hkeeps
    · exact (h.copies.rounds i r m c' hr (htaskM ▸ hc')).mono hkeeps
  · exact base_setRound_same h hr htaskM

theorem base_notify (h : Base w x) (j : Nat) (req : MidjourneyDto) :
    Base w (step cfg x (.notify j req)) := by
  simp only [step]
  split
  · split
    case h_1 k hk t ht =>
      refine ⟨⟨h.ledger.sound, h.ledger.quota, h.ledger.token⟩, h.copies.rounds, ?_⟩
      intro i c hc
      rcases update_eq_some hc with ⟨-, rfl⟩ | ⟨-, hc⟩
      · exact ⟨t, ht, rfl, rfl⟩
      · exact h.copies.saves i c hc
    · exact h
  · exact h

theorem base_save (h : Base w x) (j : Nat) : Base w (step cfg x (.save j)) := by
  simp only [step]
  split
  case h_1 c hc =>
    have hagrees := h.copies.saves j c hc
    have hupdate := h.ledger.update hagrees
    have hcopies := h.copies.mono (keeps_update hagrees) (update_rounds x c).1
      (update_rounds x c).2
    refine ⟨⟨hupdate.sound, hupdate.quota, hupdate.token⟩, hcopies.rounds, ?_⟩
    intro i c' hc'
    by_cases hi : i = j
    · subst hi
      simp at hc'
    · simp only [Function.update_of_ne hi] at hc'
      exact (h.copies.saves i c' hc').mono (keeps_update hagrees)
  · exact h

theorem base_channel (h : Base w x) (i : Nat) (channelId : Int) (answer : Answer) :
    Base w (step cfg x (.channel i channelId answer)) := by
  simp only [step]
  split
  case h_1 r hr =>
    split
    · cases answer with
      | missing =>
        have hbase := base_writeOff h
          (some ("获取渠道信息失败，请联系管理员，渠道ID：" ++ toString channelId))
          fun _ t => decide (t.mjId ∈ r.taskChannelM channelId)
        exact base_setRound_same hbase hr rfl
      | silent => exact base_setRound_same h hr rfl
      | items items => exact base_setRound_same h hr rfl
    · exact h
  · exact h

theorem base_item (h : Base w x) (i : Nat) (now : Int) : Base w (step cfg x (.item i now)) := by
  simp only [step]
  split
  case h_1 r hr =>
    split
    · exact h
    · split
      · exact base_setRound h i fun _ _ _ hnone => by cases hnone
      case h_2 c hc =>
        refine base_pollItem h hr ?_ (h.copies.rounds i r _ c hr hc)
        rfl
  · exact h

/-- **Every step keeps the ledger and the copies**, covered or not. -/
theorem base_step (cfg : Settings) (e : Event) (h : Base w x) : Base w (step cfg x e) := by
  cases e with
  | submit call => exact base_handled h (relayMidjourneySubmit_fits cfg x.rows call)
  | swapFace call => exact base_handled h (relaySwapFace_fits cfg call)
  | notify j req => exact base_notify h j req
  | save j => exact base_save h j
  | poll i =>
    simp only [step]
    split
    · refine base_setRound h i fun r mjId c hr hc => ?_
      cases hr
      exact beginRound_agrees hc
    · exact h
  | fixNull i =>
    simp only [step]
    split
    case h_1 r hr =>
      have hbase := base_writeOff h none fun k _ => decide (k ∈ r.nullTaskIds)
      exact base_setRound_same hbase hr rfl
    · exact h
  | channel i channelId answer => exact base_channel h i channelId answer
  | item i now => exact base_item h i now
  | done i =>
    simp only [step]
    split
    · split
      · exact base_setRound h i fun _ _ _ hnone => by cases hnone
      · exact h
    · exact h

/-! ### What a step does to the tasks that are in order -/

/-- A list of tasks that are in order, one of them replaced. -/
theorem forall_set_iff {tasks : List Task} (hok : ∀ t ∈ tasks, t.Ok)
    (ht : tasks[k]? = some t) (t' : Task) : (∀ s ∈ tasks.set k t', s.Ok) ↔ t'.Ok := by
  constructor
  · intro h
    exact h t' (List.mem_set (List.getElem?_eq_some_iff.mp ht).1 t')
  · intro h s hs
    rcases List.mem_or_eq_of_mem_set hs with hs | rfl
    · exact hok s hs
    · exact h

theorem ok_handled (hok : ∀ t ∈ x.tasks, t.Ok) (ho : o.Fits info) :
    ∀ t ∈ (x.handled info o).tasks, t.Ok := by
  unfold State.handled
  cases hrow : o.inserted with
  | none => exact hok
  | some row =>
    intro t ht
    rcases List.mem_append.mp ht with ht | ht
    · exact hok t ht
    · obtain rfl := List.mem_singleton.mp ht
      refine ⟨le_max_right _ _, Nat.zero_le 1, fun hfailed => ?_⟩
      rw [(ho row hrow).2.1] at hfailed
      cases hfailed

theorem ok_update_iff (hok : ∀ t ∈ x.tasks, t.Ok) (ht : x.tasks[c.id]? = some t) :
    (∀ s ∈ (x.update c).tasks, s.Ok) ↔ (c.row.failed → t.book.Settled) := by
  have htok := hok t (List.mem_of_getElem? ht)
  simp only [State.update, ht]
  rw [forall_set_iff hok ht]
  exact ⟨fun h => h.settled, fun h => ⟨htok.le_debit, htok.once, h⟩⟩

/-- The property of a task that is written off is that it is settled. -/
theorem ok_writtenOff_iff (hok : t.Ok) (failReason : Option String) (hit : Bool) :
    (t.writtenOff failReason hit).Ok ↔ (hit = true → t.book.Settled) := by
  unfold Task.writtenOff
  cases hit with
  | false => simpa using hok
  | true =>
    have hfailed : (t.row.writtenOff failReason).failed = true := by
      simp [MidjourneyRow.writtenOff, MidjourneyRow.failed]
    exact ⟨fun h _ => h.settled hfailed, fun h => ⟨hok.le_debit, hok.once, fun _ => h rfl⟩⟩

theorem ok_writeOff_iff (hok : ∀ t ∈ x.tasks, t.Ok) (failReason : Option String)
    (hit : Nat → MidjourneyRow → Bool) :
    (∀ s ∈ (x.writeOff failReason hit).tasks, s.Ok) ↔
      ∀ k t, x.tasks[k]? = some t → hit k t.row = true → t.book.Settled := by
  rw [writeOff_tasks]
  constructor
  · intro h k t ht
    have htok := hok t (List.mem_of_getElem? ht)
    refine (ok_writtenOff_iff htok failReason (hit k t.row)).mp (h _ ?_)
    refine List.mem_of_getElem? (i := k) ?_
    rw [List.getElem?_mapIdx, ht]
    rfl
  · intro h s hs
    obtain ⟨k, hk, rfl⟩ := List.mem_mapIdx.mp hs
    have htok := hok _ (List.getElem_mem hk)
    exact (ok_writtenOff_iff htok failReason _).mpr (h k _ (List.getElem?_eq_getElem hk))

/-- The poller writes a failure down at 100%, and nothing else at 100% as one. -/
theorem polled_failed (cfg : Settings) (t : MidjourneyRow) (item : MidjourneyDto) :
    (t.polled cfg item).failed = (buildFails item && item.status == "FAILURE") := by
  simp only [MidjourneyRow.polled]
  cases hfails : buildFails item with
  | true => simp [MidjourneyRow.failed, MidjourneyRow.applyItem]
  | false =>
    unfold buildFails at hfails
    simp only [Bool.false_eq_true, if_false, MidjourneyRow.failed, MidjourneyRow.applyItem]
    grind

/-- The task after a refund is in order exactly when it was charged and is paid back for the
first time, and a failure was not charged to a token. -/
theorem ok_refund_iff (hsound : t.Sound) (row : MidjourneyRow)
    (hquota : row.quota = t.row.quota) (hpos : 0 < row.quota) :
    (Task.mk row (t.book.refund row.quota)).Ok ↔
      t.book.consumed = row.quota ∧ t.book.refunds = 0 ∧
        (row.failed → t.book.tokenConsumed = 0) := by
  have hreturned := hsound.returned
  constructor
  · rintro ⟨hle, honce, hsettled⟩
    have hnone : t.book.refunds = 0 := by
      simp only [Book.refund] at honce
      omega
    rw [hnone] at hreturned
    simp only [Book.refund, Book.debit, Book.Settled] at hle hsettled
    have hconsumed : t.book.consumed = row.quota := by
      rcases hsound.consumed with h | h <;> omega
    exact ⟨hconsumed, hnone, fun hfailed => (hsettled hfailed (by omega)).2⟩
  · rintro ⟨hconsumed, hnone, htoken⟩
    rw [hnone] at hreturned
    refine ⟨?_, by simp [Book.refund, hnone], fun hfailed _ => ⟨?_, htoken hfailed⟩⟩
    · simp only [Book.refund, Book.debit]
      omega
    · simp only [Book.refund]
      omega

theorem ok_pollItem_iff (hledger : Ledger w x) (hok : ∀ t ∈ x.tasks, t.Ok)
    (ht : x.tasks[c.id]? = some t) (hquota : c.row.quota = t.row.quota)
    (i : Nat) (r : Round) (mjId : String) (item : MidjourneyDto) :
    (∀ s ∈ (x.pollItem cfg i r mjId c item).tasks, s.Ok) ↔
      (checkMjTaskNeedUpdate cfg c.row item → t.row.status = c.row.status →
        buildFails item → 0 < c.row.quota →
          t.book.consumed = c.row.quota ∧ t.book.refunds = 0 ∧
            (item.status = "FAILURE" → t.book.tokenConsumed = 0)) := by
  have hsound := hledger.sound t (List.mem_of_getElem? ht)
  have hrow := (polled_fields cfg c.row item).1
  have ht' : x.tasks[(Copy.mk c.id (c.row.polled cfg item)).id]? = some t := ht
  simp only [State.pollItem]
  by_cases hneed : checkMjTaskNeedUpdate cfg c.row item
  swap
  · rw [if_neg hneed]
    exact ⟨fun _ hneed' => absurd hneed' hneed, fun _ => hok⟩
  rw [if_pos hneed]
  change (∀ s ∈ (x.updateWithStatus _ _ _).tasks, s.Ok) ↔ _
  rw [updateWithStatus_eq ht']
  by_cases hstatus : t.row.status = c.row.status
  swap
  · rw [if_neg hstatus]
    exact ⟨fun _ _ hstatus' => absurd hstatus' hstatus, fun _ => hok⟩
  rw [if_pos hstatus]
  by_cases hfails : buildFails item ∧ 0 < c.row.quota
  · -- the refund: the book changes with the row
    obtain ⟨hfails, hpos⟩ := hfails
    have hdue : shouldReturnQuota c.row item = true ∧ 0 ≤ (c.row.polled cfg item).quota := by
      rw [hrow]
      exact ⟨by simp [shouldReturnQuota, hfails, hpos.ne'], hpos.le⟩
    rw [if_pos hdue]
    refine (forall_set_iff hok ht' _).trans ?_
    rw [ok_refund_iff hsound _ (hrow.trans hquota) (hrow ▸ hpos), polled_failed, hrow]
    simp [hneed, hstatus, hfails, hpos]
  · -- no money moves, and a row that has failed then was not charged
    have hnone : ¬(shouldReturnQuota c.row item = true ∧ 0 ≤ (c.row.polled cfg item).quota) := by
      rw [hrow]
      rintro ⟨hdue, hle⟩
      simp only [shouldReturnQuota, Bool.and_eq_true, bne_iff_ne] at hdue
      exact hfails ⟨hdue.1, by omega⟩
    rw [if_neg hnone, ok_update_iff hok ht']
    refine ⟨fun _ _ _ hf hp => absurd ⟨hf, hp⟩ hfails, fun _ hfailed hcharged => ?_⟩
    rw [polled_failed, Bool.and_eq_true] at hfailed
    have hle : ¬0 < c.row.quota := fun hp => hfails ⟨hfailed.1, hp⟩
    rcases hsound.consumed with h | h <;> omega

theorem ok_save_iff (h : Base w x) (hok : ∀ t ∈ x.tasks, t.Ok) (j : Nat) :
    (∀ t ∈ (step cfg x (.save j)).tasks, t.Ok) ↔ Covered cfg x (.save j) := by
  simp only [step, Covered]
  cases hc : x.saves j with
  | none => exact iff_of_true hok fun c t hnone => by cases hnone
  | some c =>
    obtain ⟨t, ht, -⟩ := h.copies.saves j c hc
    refine (ok_update_iff hok ht).trans ⟨?_, fun hcov => hcov c t rfl ht⟩
    intro hset c' t' hc' ht'
    cases hc'
    cases ht.symm.trans ht'
    exact hset

theorem ok_fixNull_iff (hok : ∀ t ∈ x.tasks, t.Ok) (i : Nat) :
    (∀ t ∈ (step cfg x (.fixNull i)).tasks, t.Ok) ↔ Covered cfg x (.fixNull i) := by
  simp only [step, Covered]
  cases hr : x.rounds i with
  | none => exact iff_of_true hok fun r k t hnone => by cases hnone
  | some r =>
    rw [setRound_tasks, ok_writeOff_iff hok]
    refine ⟨?_, ?_⟩
    · intro hset r' k t hr' hk ht
      cases hr'
      exact hset k t ht (by simpa using hk)
    · intro hcov k t ht hk
      exact hcov r k t rfl (by simpa using hk) ht

theorem ok_missing_iff (hok : ∀ t ∈ x.tasks, t.Ok) (i : Nat) (channelId : Int) :
    (∀ t ∈ (step cfg x (.channel i channelId .missing)).tasks, t.Ok) ↔
      Covered cfg x (.channel i channelId .missing) := by
  simp only [step, Covered]
  cases hr : x.rounds i with
  | none => exact iff_of_true hok fun r hnone => by cases hnone
  | some r =>
    dsimp only
    split
    case isTrue hgate =>
      rw [setRound_tasks, ok_writeOff_iff hok]
      refine ⟨?_, ?_⟩
      · intro hset r' hr' _ _ t ht hmem
        cases hr'
        obtain ⟨k, hk⟩ := List.mem_iff_getElem?.mp ht
        exact hset k t hk (by simpa using hmem)
      · intro hcov k t ht hmem
        exact hcov r rfl hgate.1 hgate.2.1 t (List.mem_of_getElem? ht) (by simpa using hmem)
    case isFalse hgate =>
      refine iff_of_true hok ?_
      intro r' hr' hnull hitems t _ hmem
      cases hr'
      exact absurd ⟨hnull, hitems, List.ne_nil_of_mem hmem⟩ hgate

theorem ok_item_iff (h : Base w x) (hok : ∀ t ∈ x.tasks, t.Ok) (i : Nat) (now : Int) :
    (∀ t ∈ (step cfg x (.item i now)).tasks, t.Ok) ↔ Covered cfg x (.item i now) := by
  simp only [step, Covered]
  cases hr : x.rounds i with
  | none => exact iff_of_true hok fun r first rest c t hnone => by cases hnone
  | some r =>
    dsimp only
    split
    case h_1 hitems =>
      refine iff_of_true hok fun r' first rest c t hr' hitems' => ?_
      cases hr'
      rw [hitems] at hitems'
      cases hitems'
    case h_2 first rest hitems =>
      split
      case h_1 hnone =>
        refine iff_of_true hok fun r' first' rest' c t hr' hitems' hc => ?_
        cases hr'
        cases hitems.symm.trans hitems'
        rw [hnone] at hc
        cases hc
      case h_2 c hc =>
        obtain ⟨t, ht, hquota, -⟩ := h.copies.rounds i r _ c hr hc
        refine (ok_pollItem_iff h.ledger hok ht hquota i _ _ _).trans ⟨?_, ?_⟩
        · intro hcov r' first' rest' c' t' hr' hitems' hc' ht'
          cases hr'
          cases hitems.symm.trans hitems'
          cases hc.symm.trans hc'
          cases ht.symm.trans ht'
          exact hcov
        · intro hcov
          exact hcov r first rest c t rfl hitems hc ht

/-- **A step keeps the tasks in order exactly when it is covered.** -/
theorem ok_step_iff (h : Base w x) (hok : ∀ t ∈ x.tasks, t.Ok) (e : Event) :
    (∀ t ∈ (step cfg x e).tasks, t.Ok) ↔ Covered cfg x e := by
  cases e with
  | submit call =>
    exact iff_of_true (ok_handled hok (relayMidjourneySubmit_fits cfg x.rows call)) trivial
  | swapFace call => exact iff_of_true (ok_handled hok (relaySwapFace_fits cfg call)) trivial
  | notify j req =>
    refine iff_of_true ?_ trivial
    simp only [step]
    repeat' split
    all_goals exact hok
  | save j => exact ok_save_iff h hok j
  | poll i =>
    refine iff_of_true ?_ trivial
    simp only [step]
    split <;> exact hok
  | fixNull i => exact ok_fixNull_iff hok i
  | channel i channelId answer =>
    cases answer with
    | missing => exact ok_missing_iff hok i channelId
    -- a reply writes nothing before its items are worked on
    | silent =>
      refine iff_of_true ?_ trivial
      simp only [step]
      repeat' split
      all_goals exact hok
    | items items =>
      refine iff_of_true ?_ trivial
      simp only [step]
      repeat' split
      all_goals exact hok
  | item i now => exact ok_item_iff h hok i now
  | done i =>
    refine iff_of_true ?_ trivial
    simp only [step]
    repeat' split
    all_goals exact hok

/-! ### Every run -/

/-- **The refunds match the charges in every state of a run exactly when every step of it
is covered.** -/
theorem matches_run_iff (cfg : Settings) (w : Accounts) (es : List Event) :
    (∀ n, Matches w (run (step cfg) (State.fresh w) (es.take n))) ↔
      Along (step cfg) (Covered cfg) (State.fresh w) es := by
  refine forall_take_iff (I := fun x => Base w x ∧ ∀ t ∈ x.tasks, t.Ok) ?_ ?_ ?_ ?_ es
  · intro x hx
    exact (matches_iff hx.1.ledger).mpr hx.2
  · intro x e hx hcov
    exact ⟨base_step cfg e hx.1, (ok_step_iff hx.1 hx.2 e).mpr hcov⟩
  · intro x e hx hmatch
    have hok := (matches_iff (base_step cfg e hx.1).ledger).mp hmatch
    exact (ok_step_iff hx.1 hx.2 e).mp hok
  · exact ⟨base_fresh w, fun t ht => (List.not_mem_nil ht).elim⟩

/-! ### Two runs that do not match -/

/-- Settings with which the runs below can be computed. -/
def sampleSettings : Settings where
  mjActionCheckSuccessEnabled := true
  marshalVideoUrls
    | none => "null"
    | some urls =>
      "[" ++ ",".intercalate (urls.map fun url => "\x7b\"url\":\"" ++ url ++ "\"\x7d") ++ "]"
  marshalResponse resp := "\x7b\"result\":\"" ++ resp.result ++ "\"\x7d"

/-- User 1 with a quota of 500, and token 5 with as much. -/
def sampleAccounts : Accounts := ⟨fun _ => 500, fun _ => ⟨500, 0⟩, fun _ => 0, fun _ => none⟩

/-- User 1 asks for an image with token 5, at a price of 100, and the upstream answers
with this code. -/
def sampleCall (code : Int) : SubmitCall where
  relayMode := .imagine
  request := ⟨"a cat", "", "", 0, "", ""⟩
  info := ⟨1, 5, false⟩
  channelId := 7
  originChannel := none
  price := .ok 100
  userQuota := .ok 500
  reply := .ok ⟨200, ⟨code, "", none, "14001929738841620"⟩, ""⟩
  channelFound := true
  now := 10
  insertFails := false

/-- The upstream says that the task has failed. -/
def sampleItem : MidjourneyDto :=
  ⟨"14001929738841620", "", "", 10, 11, 12, "", "", none, "FAILURE", "100%", "banned", none, none⟩

/-- A submission, and a round of the poller that hears of a failure. -/
def sampleRun (code : Int) : List Event :=
  [.submit (sampleCall code), .poll 0, .channel 0 7 (.items [sampleItem]), .item 0 20]

/-- A request that the upstream turned down because its queue is full was not charged, and
its quota is paid out; one that was accepted was charged to the token, which does not get
its quota back. -/
theorem sampleRun_not_matches :
    ¬Matches sampleAccounts
        (run (step sampleSettings) (State.fresh sampleAccounts) (sampleRun 23)) ∧
      ¬Matches sampleAccounts
        (run (step sampleSettings) (State.fresh sampleAccounts) (sampleRun 1)) := by
  constructor
  · intro h
    exact absurd h.le_debit (by decide)
  · intro h
    have hrestored := h.restored 0 _ rfl (by decide) (by decide)
    exact absurd hrestored.2 (by decide)

end NewApiPool.Midjourney
