import NewApiPool.Task.Model

/-!
# A task is billed once

What the visitors of `NewApiPool.Task.Model` are for: a task whose row reaches a
final status stays there, and the money for it moves once – back to the user if it
failed, or to the actual cost if it succeeded.

The code does not do this on every interleaving. A write that is guarded by the
status the visitor read (`UpdateWithStatus`) is safe, since of two writers that
read the same status one loses; but the Suno poller refunds before it saves and
saves without a guard, the bulk updates have no guard either, a realtime fetch is
guarded by a status that may be final already, and a video poller that comes to a
copy it has finished bills it again. `NewApiPool.Task.Fair` says of one event, in
the state in which it happens, that none of these is in play. Along a run of such
events the row and the books agree (`NewApiPool.Task.Inv`), and both theorems of
this file are read off that invariant.
-/

namespace NewApiPool.Task

open Billing EventSystem

/-! ### What the money calls do -/

section Money

variable {id : TaskIdent} {w₀ w : Accounts}

/-- The funding account of a task. -/
def TaskIdent.account (id : TaskIdent) : FundingAccount :=
  if taskIsSubscription id then (.subscription, id.subscriptionId) else (.wallet, id.userId)

theorem taskAdjustFunding_eq (id : TaskIdent) (w : Accounts) (delta : Int) :
    taskAdjustFunding id w delta = .ok (w.charge id.account delta) := by
  unfold taskAdjustFunding TaskIdent.account
  by_cases hsub : taskIsSubscription id = true
  · have hpos : 0 < id.subscriptionId := (of_decide_eq_true hsub).2
    rw [if_pos hsub, if_pos hsub]
    exact postConsumeUserSubscriptionDelta_none hpos delta
  · rw [if_neg hsub, if_neg hsub]
    by_cases hd : delta > 0
    · rw [if_pos hd]
      exact quotaPrimitive_none hd.le
    · rw [if_neg hd]
      exact quotaPrimitive_none (by omega)

/-- The token call moves the token by `delta`, if there is one and it is found. -/
theorem taskAdjustTokenQuota_eq {key : String} (hid : 0 < id.tokenId) (hkey : key ≠ "")
    (delta : Int) : taskAdjustTokenQuota id key w delta = w.addToken id.tokenId (-delta) := by
  unfold taskAdjustTokenQuota
  by_cases hd : delta = 0
  · subst hd
    simp [Accounts.addToken]
  rw [if_neg (by omega), if_neg hkey]
  by_cases hpos : delta > 0
  · simp [hpos, decreaseTokenQuota, quotaPrimitive_none hpos.le]
  · simp [hpos, increaseTokenQuota, quotaPrimitive_none (show 0 ≤ -delta by omega)]

theorem taskAdjustTokenQuota_token {key : String} (hid : 0 < id.tokenId) (hkey : key ≠ "")
    (delta : Int) : tokenDebit w₀ (taskAdjustTokenQuota id key w delta) id.tokenId =
      tokenDebit w₀ w id.tokenId + delta := by
  rw [taskAdjustTokenQuota_eq hid hkey]
  simp only [tokenDebit, Accounts.addToken_remain_self]
  omega

theorem taskAdjustTokenQuota_funding (key : String) (delta : Int) (a : FundingAccount) :
    fundingDebit w₀ (taskAdjustTokenQuota id key w delta) a = fundingDebit w₀ w a := by
  have hfields : (taskAdjustTokenQuota id key w delta).quota = w.quota ∧
      (taskAdjustTokenQuota id key w delta).amountUsed = w.amountUsed := by
    unfold taskAdjustTokenQuota
    split
    · exact ⟨rfl, rfl⟩
    split
    · exact ⟨rfl, rfl⟩
    by_cases hpos : delta > 0
    · simp [hpos, decreaseTokenQuota, quotaPrimitive_none hpos.le]
    · simp [hpos, increaseTokenQuota, quotaPrimitive_none (show 0 ≤ -delta by omega)]
  unfold fundingDebit
  rw [hfields.1, hfields.2]

end Money

/-! ### The events that keep the books -/

/-- A Suno visit that has begun its refund and has not saved the row yet. -/
def MidSuno (v : Visit) : Prop :=
  v.kind = .suno ∧
    match v.todo with
    | [.adjustToken _, .update t] => t.status = .failure
    -- a save as `FAILURE` of a task without a quota had no refund before it
    | [.update t] => t.status = .failure ∧ t.quota ≠ 0
    | _ => False

/-- A statement that neither finishes the row nor begins a refund. -/
def Harmless (x : State) : Stmt → Prop
  | .updateWithStatus t fromStatus _ => x.row.status = fromStatus → t.status.finished = false
  | .update t => t.status.finished = false
  | .bulkUpdate _ => False
  | .refundFunding _ => False
  | .settleFunding _ _ => True
  | .adjustToken _ => True

/-- What a statement that writes the row without having been guarded by it may find
there, and, with `strict`, what a move to `FAILURE` without a refund may. -/
def Lands (strict : Bool) (x : State) : List Stmt → Prop
  | .refundFunding _ :: .update t :: _ => x.row.status.finished = false ∧ t.status = .failure
  | .update t :: _ => x.row.status.finished = false ∨ x.row.status = t.status
  | .bulkUpdate _ :: _ =>
    x.row.status ≠ .success ∧ (strict = true → x.row.status = .failure ∨ x.row.quota = 0)
  | .updateWithStatus t fromStatus .nothing :: _ => strict = true → t.status = .failure →
    x.row.status = fromStatus → x.row.status = .failure ∨ x.row.quota = 0
  | _ => True

/-- **The events on which the code keeps the books.**

* While a Suno visit is between its refund and its save, no other visit finishes
  the row or begins a refund.
* A Suno refund begins on a row that is not finished, for a task that will be saved
  as `FAILURE`; a Suno save and a bulk update do not land on a row finished with
  another status.
* A video poller works on a copy that is not finished yet.
* A realtime fetch that read a finished row is not told another status.

With `strict`, for the refunds: no bulk update and no guarded write that carries no
refund – that of a realtime fetch – moves a task that was paid for to `FAILURE`,
and the token is found. -/
def Fair (strict : Bool) (x : State) : Event → Prop
  | .exec i tokenKey => (strict = true → tokenKey ≠ "") ∧
    ∀ v, x.visits i = some v → Lands strict x v.todo ∧
      ∀ j u, j ≠ i → x.visits j = some u → MidSuno u → ∀ st ∈ v.todo.head?, Harmless x st
  | .video i _ _ => ∀ v, x.visits i = some v → v.task.status.finished = false
  | .realtime i ti => ∀ v, x.visits i = some v → v.task.status.finished = true →
      ti.status = "" ∨ ti.status = v.task.status.text
  | _ => True

/-! ### Calm visits -/

/-- What a guarded write may promise: a refund goes with `FAILURE`, a settlement
with `SUCCESS`. -/
def DueOk (q₀ : Int) (v : Visit) (t : TaskRow) : Due → Prop
  | .nothing => True
  | .legacy => t.status = .failure
  | .refund => t.status = .failure ∧ q₀ ≠ 0
  | .settle _ => t.status = .success ∧ v.kind = .video ∧ v.task.status.finished = true

/-- A visit that owes nothing: what it has to send is one write of the row, or a
Suno refund that has not begun. -/
def Tame (q₀ : Int) (v : Visit) : Prop :=
  match v.todo with
  | [] => True
  | [.updateWithStatus t fromStatus won] =>
    t.quota = q₀ ∧ (fromStatus.finished = true → t.status = fromStatus ∧ won = .nothing) ∧
      DueOk q₀ v t won
  | [.update t] => t.quota = q₀ ∧ (t.status = .failure → q₀ = 0)
  | [.bulkUpdate _] => True
  | [.refundFunding q, .update t] => v.kind = .suno ∧ q = q₀ ∧ q₀ ≠ 0 ∧ t.quota = q₀
  | _ => False

/-- The copy of a visit that may still be worked on has the quota of the row. -/
def KeepsQuota (q₀ : Int) (v : Visit) : Prop :=
  v.kind ≠ .spent → (v.kind = .video → v.task.status.finished = false) → v.task.quota = q₀

/-- A visit that owes nothing and has the right quota. -/
def Calm (q₀ : Int) (v : Visit) : Prop := Tame q₀ v ∧ KeepsQuota q₀ v

/-! ### What the visitors send -/

section Programs

variable {cfg : Settings} {id : TaskIdent} {q₀ : Int} {t : TaskRow}

theorem calm_sweep {now : Int} (hq : t.quota = q₀) (hs : t.status.finished = false) :
    Calm q₀ ⟨.spent, t, sweepTimedOutTask cfg now t⟩ := by
  refine ⟨⟨hq, fun h => ?_, ?_⟩, fun _ _ => hq⟩
  · rw [hs] at h
    cases h
  · by_cases hl : t.isLegacy = true
    · rw [if_pos hl]
      rfl
    · rw [if_neg hl]
      by_cases h0 : t.quota ≠ 0
      · rw [if_pos h0]
        exact ⟨rfl, hq ▸ h0⟩
      · rw [if_neg h0]
        trivial

theorem applySuno_quota (item : SunoDataResponse) : (t.applySuno item).quota = t.quota := by
  unfold TaskRow.applySuno
  simp only [apply_ite TaskRow.quota, ite_self]

theorem calm_suno {item : SunoDataResponse} (hq : t.quota = q₀) :
    Calm q₀ ⟨.suno, (updateSunoTask cfg t item).1, (updateSunoTask cfg t item).2⟩ := by
  unfold updateSunoTask
  by_cases hneed : taskNeedsUpdate cfg t item = true
  · rw [if_pos hneed]
    have hq' : (t.applySuno item).quota = q₀ := (applySuno_quota item).trans hq
    refine ⟨?_, fun _ _ => hq'⟩
    by_cases hfail : sunoFails (t.applySuno item) item = true
    · by_cases h0 : q₀ = 0
      · simp [Tame, hfail, refundTaskQuota, hq', h0]
      · simp [Tame, hfail, refundTaskQuota, hq', h0]
    · have hstatus : (t.applySuno item).status ≠ .failure := by
        intro hcon
        exact hfail (by simp [sunoFails, hcon])
      simp [Tame, hfail, hq', hstatus]
  · rw [if_neg hneed]
    exact ⟨trivial, fun _ _ => hq⟩

/-- The `switch` of the video poller leaves the status of the reply. -/
theorem applyVideo_some {now : Int} {res : TaskInfo} {t' : TaskRow}
    (h : t.applyVideo cfg id now res = some t') :
    t'.quota = t.quota ∧ t'.status = ⟨res.status⟩ := by
  unfold TaskRow.applyVideo at h
  split at h
  · rename_i hs
    cases h
    exact ⟨rfl, by rw [hs]; rfl⟩
  split at h
  · rename_i hs
    cases h
    exact ⟨rfl, by rw [hs]; rfl⟩
  split at h
  · rename_i hs
    cases h
    exact ⟨rfl, by rw [hs]; rfl⟩
  split at h
  · rename_i hs
    cases h
    exact ⟨rfl, by rw [hs]; rfl⟩
  split at h
  · rename_i hs
    cases h
    exact ⟨rfl, by rw [hs]; rfl⟩
  · cases h

theorem applyProgress_fields (res : TaskInfo) :
    (t.applyProgress res).quota = t.quota ∧ (t.applyProgress res).status = t.status := by
  unfold TaskRow.applyProgress
  split
  · exact ⟨rfl, rfl⟩
  split <;> exact ⟨rfl, rfl⟩

theorem calm_video {now : Int} {r : VideoReply} (hq : t.quota = q₀)
    (hs : t.status.finished = false) :
    Calm q₀ ⟨.video, (updateVideoSingleTask cfg id now t r).1,
      (updateVideoSingleTask cfg id now t r).2⟩ := by
  unfold updateVideoSingleTask
  dsimp only
  rcases r.effectiveResult with _ | res
  · exact ⟨trivial, fun _ _ => hq⟩
  dsimp only
  rcases hv : TaskRow.applyVideo cfg id now { t with data := r.body } res with _ | t₁
  · exact ⟨trivial, fun _ _ => hq⟩
  dsimp only
  obtain ⟨hq₁, hst₁⟩ := applyVideo_some hv
  obtain ⟨hq₂, hst₂⟩ := applyProgress_fields (t := t₁) res
  generalize t₁.applyProgress res = t' at hq₂ hst₂
  have hq' : t'.quota = q₀ := hq₂.trans (hq₁.trans hq)
  have hst : t'.status = ⟨res.status⟩ := hst₂.trans hst₁
  have hne : t'.status.finished = true → t.snapshot.status ≠ t'.status :=
    fun hfin => (TaskStatus.ne_of_finished hfin hs).symm
  by_cases hfin : t'.status.finished = true
  · -- the reply is final: the billing hangs on the guarded write
    rw [if_pos (by simp [hfin, hne hfin])]
    refine ⟨⟨hq', fun hcon => ?_, ?_⟩, fun _ _ => hq'⟩
    · exact absurd hcon (by rw [show t.snapshot.status = t.status from rfl, hs]; decide)
    · unfold videoBilling
      by_cases hsuc : res.status = "SUCCESS"
      · rw [if_pos hsuc]
        exact ⟨by rw [hst, hsuc]; rfl, rfl, hfin⟩
      · rw [if_neg hsuc]
        by_cases hf : res.status = "FAILURE" ∧ t.quota ≠ 0
        · rw [if_pos hf]
          exact ⟨by rw [hst, hf.1]; rfl, hq ▸ hf.2⟩
        · rw [if_neg hf]
          trivial
  · -- the reply is not final: nothing is billed
    have hbill : videoBilling id t r res = .nothing := by
      unfold videoBilling
      rw [if_neg, if_neg]
      · rintro ⟨hf, -⟩
        exact hfin (by rw [hst, hf]; decide)
      · intro hsuc
        exact hfin (by rw [hst, hsuc]; decide)
    have hkeep : KeepsQuota q₀ ⟨.video, t', []⟩ := fun _ _ => hq'
    rw [if_neg (by simp [hfin]), hbill]
    split
    · refine ⟨⟨hq', fun hcon => ?_, trivial⟩, hkeep⟩
      exact absurd hcon (by rw [show t.snapshot.status = t.status from rfl, hs]; decide)
    · exact ⟨trivial, hkeep⟩

theorem applyRealtime_fields (cfg : Settings) (id : TaskIdent) (t : TaskRow) (ti : TaskInfo) :
    (t.applyRealtime cfg id ti).quota = t.quota ∧
      (t.applyRealtime cfg id ti).status =
        if ti.status ≠ "" then ⟨ti.status⟩ else t.status := by
  unfold TaskRow.applyRealtime
  constructor
  · simp only [apply_ite TaskRow.quota, ite_self]
  · simp only [apply_ite TaskRow.status, ite_self]

theorem calm_realtime {ti : TaskInfo} (hq : t.quota = q₀)
    (hfin : t.status.finished = true → ti.status = "" ∨ ti.status = t.status.text) :
    Calm q₀ ⟨.spent, (tryRealtimeFetch cfg id t ti).1,
      (tryRealtimeFetch cfg id t ti).2⟩ := by
  obtain ⟨hq', hst⟩ := applyRealtime_fields cfg id t ti
  refine ⟨?_, fun _ _ => hq'.trans hq⟩
  unfold Tame tryRealtimeFetch
  dsimp only
  by_cases hsnap : t.snapshot ≠ (t.applyRealtime cfg id ti).snapshot
  · rw [if_pos hsnap]
    refine ⟨hq'.trans hq, fun h => ⟨?_, rfl⟩, trivial⟩
    rw [hst]
    rcases hfin h with he | he
    · rw [if_neg (not_not.mpr he)]
    · split
      · rw [he]
      · rfl
  · rw [if_neg hsnap]
    trivial

end Programs

/-! ### The invariant -/

/-- Every visit but `i` is calm. -/
def OthersCalm (q₀ : Int) (x : State) (i : Nat) : Prop :=
  ∀ j v, j ≠ i → x.visits j = some v → Calm q₀ v

/-- Every visit is calm: nobody owes a refund or a settlement for a row that was won. -/
def AllCalm (q₀ : Int) (x : State) : Prop :=
  ∀ j v, x.visits j = some v → Calm q₀ v

/-- A visit that has won the row and owes what its status asks for. -/
def Owes (q₀ : Int) (r : TaskRow) (v : Visit) : Prop :=
  (v.todo = [.refundFunding q₀] ∧ r.status = .failure ∧ KeepsQuota q₀ v) ∨
  ∃ a, v.todo = [.settleFunding q₀ a] ∧ r.status = .success ∧ v.kind = .video ∧
    v.task.status.finished = true

/-- The funding half of a refund is done. -/
def FundingBack (id : TaskIdent) (q₀ : Int) (w₀ w : Accounts) : Prop :=
  fundingDebit w₀ w id.account = -q₀

/-- The token half of a refund is done. -/
def TokenBack (id : TaskIdent) (q₀ : Int) (w₀ w : Accounts) : Prop :=
  0 < id.tokenId → tokenDebit w₀ w id.tokenId = -q₀

/-- **The row and the books agree**, for a task of quota `q₀` and the accounts `w₀`
it started from. -/
inductive Inv (strict : Bool) (id : TaskIdent) (q₀ : Int) (w₀ : Accounts) (x : State) : Prop
  /-- The row is not finished and nothing was billed. -/
  | unbilled (hq : x.row.quota = q₀) (hrow : x.row.status.finished = false)
      (hr : x.refunds = 0) (hs : x.settles = 0) (hw : x.accounts = w₀)
      (hall : AllCalm q₀ x)
  /-- Suno visit `i` has refunded, and will save the row as `FAILURE`; `token`
  says whether the token half is still to come. -/
  | midSuno (i : Nat) (v : Visit) (t : TaskRow) (token : Bool) (hq : x.row.quota = q₀)
      (hrow : x.row.status.finished = false) (hr : x.refunds = 1) (hs : x.settles = 0)
      (hv : x.visits i = some v) (hkind : v.kind = .suno)
      (htodo : v.todo = (if token then [.adjustToken (-q₀)] else []) ++ [.update t])
      (hkeep : KeepsQuota q₀ v) (ht : t.status = .failure) (htq : t.quota = q₀) (h0 : q₀ ≠ 0)
      (hfund : FundingBack id q₀ w₀ x.accounts)
      (htok : if token then tokenDebit w₀ x.accounts id.tokenId = 0
        else strict = true → TokenBack id q₀ w₀ x.accounts)
      (hoth : OthersCalm q₀ x i)
  /-- The row is finished, and visit `i` is about to bill it. -/
  | owed (i : Nat) (v : Visit) (hq : x.row.quota = q₀) (hr : x.refunds = 0) (hs : x.settles = 0)
      (hw : x.accounts = w₀) (hv : x.visits i = some v) (howes : Owes q₀ x.row v)
      (hoth : OthersCalm q₀ x i)
  /-- The row is finished and billed, and visit `i` is about to adjust the token. -/
  | tokenOwed (i : Nat) (v : Visit) (d : Int) (hq : x.row.quota = q₀)
      (hrow : x.row.status.finished = true) (hrs : x.refunds + x.settles = 1)
      (hv : x.visits i = some v) (htodo : v.todo = [.adjustToken d]) (hkeep : KeepsQuota q₀ v)
      (hback : x.row.status = .failure → d = -q₀ ∧ x.refunds = 1 ∧
        FundingBack id q₀ w₀ x.accounts ∧ tokenDebit w₀ x.accounts id.tokenId = 0)
      (hoth : OthersCalm q₀ x i)
  /-- The row is finished, and whatever was to be billed is billed. -/
  | closed (hq : x.row.quota = q₀) (hrow : x.row.status.finished = true)
      (hrs : x.refunds + x.settles ≤ 1)
      (hback : strict = true → x.row.status = .failure → q₀ = 0 ∨ x.exempted = true ∨
        (x.refunds = 1 ∧ FundingBack id q₀ w₀ x.accounts ∧ TokenBack id q₀ w₀ x.accounts))
      (hall : AllCalm q₀ x)

/-! ### Steps of a visit -/

section Steps

variable {cfg : Settings} {id : TaskIdent} {strict : Bool} {q₀ : Int} {w₀ : Accounts}
  {x : State} {i j : Nat} {v v' : Visit} {key : String}

@[simp] theorem setVisit_row (o : Option Visit) : (x.setVisit i o).row = x.row := rfl

@[simp] theorem setVisit_accounts (o : Option Visit) :
    (x.setVisit i o).accounts = x.accounts := rfl

@[simp] theorem setVisit_refunds (o : Option Visit) : (x.setVisit i o).refunds = x.refunds := rfl

@[simp] theorem setVisit_settles (o : Option Visit) : (x.setVisit i o).settles = x.settles := rfl

@[simp] theorem setVisit_exempted (o : Option Visit) :
    (x.setVisit i o).exempted = x.exempted := rfl

@[simp] theorem setVisit_visits_self (o : Option Visit) : (x.setVisit i o).visits i = o := by
  simp [State.setVisit]

theorem setVisit_visits_ne (o : Option Visit) (h : j ≠ i) :
    (x.setVisit i o).visits j = x.visits j := by
  simp [State.setVisit, h]

theorem setVisit_self (h : x.visits i = some v) : x.setVisit i (some v) = x := by
  simp [State.setVisit, ← h]

theorem OthersCalm.of_all (h : AllCalm q₀ x) (i : Nat) : OthersCalm q₀ x i :=
  fun j v _ hv => h j v hv

/-- Replacing visit `i` does not disturb the others. -/
theorem OthersCalm.setVisit (h : OthersCalm q₀ x i) (o : Option Visit) :
    OthersCalm q₀ (x.setVisit i o) i := by
  intro j u hj hu
  rw [setVisit_visits_ne _ hj] at hu
  exact h j u hj hu

/-- Replacing visit `i` by a calm one makes all of them calm. -/
theorem OthersCalm.setVisit_all (h : OthersCalm q₀ x i) {o : Option Visit}
    (ho : ∀ u, o = some u → Calm q₀ u) : AllCalm q₀ (x.setVisit i o) := by
  intro j u hu
  by_cases hj : j = i
  · subst hj
    rw [setVisit_visits_self] at hu
    exact ho u hu
  · rw [setVisit_visits_ne _ hj] at hu
    exact h j u hj hu

/-- Replacing a visit other than `i` by a calm one. -/
theorem OthersCalm.setVisit_ne (h : OthersCalm q₀ x i) {o : Option Visit}
    (ho : ∀ u, o = some u → Calm q₀ u) (j : Nat) :
    OthersCalm q₀ (x.setVisit j o) i := by
  intro k u hk hu
  by_cases hj : k = j
  · subst hj
    rw [setVisit_visits_self] at hu
    exact ho u hu
  · rw [setVisit_visits_ne _ hj] at hu
    exact h k u hk hu

theorem some_calm (h : Calm q₀ v) : ∀ u, some v = some u → Calm q₀ u := by
  rintro u ⟨⟩
  exact h

theorem calm_nil {k : Kind} {t : TaskRow} (h : KeepsQuota q₀ ⟨k, t, []⟩) :
    Calm q₀ ⟨k, t, []⟩ := ⟨trivial, h⟩

/-- **What a calm visit does with its next statement**: it leaves the status of the
row, or moves it from one that is not final to another; it finishes the row with
nothing to bill; it finishes the row and owes; or it begins a Suno refund. -/
theorem exec_calm (cfg : Settings) (id : TaskIdent) (hv : x.visits i = some v)
    (hcalm : Calm q₀ v) (hq : x.row.quota = q₀) (hfair : Fair strict x (.exec i key)) :
    (∃ r u, step cfg id x (.exec i key) = { x with row := r }.setVisit i (some u) ∧
      Calm q₀ u ∧ r.quota = q₀ ∧ (r.status = x.row.status ∨
        (x.row.status.finished = false ∧ r.status.finished = false))) ∨
    (x.row.status.finished = false ∧ ∃ r u e,
      step cfg id x (.exec i key) = { x with row := r, exempted := e }.setVisit i (some u) ∧
      Calm q₀ u ∧ r.quota = q₀ ∧ r.status.finished = true ∧
      (strict = true → r.status = .failure → q₀ = 0 ∨ e = true)) ∨
    (x.row.status.finished = false ∧ ∃ r u,
      step cfg id x (.exec i key) = { x with row := r }.setVisit i (some u) ∧
      r.quota = q₀ ∧ Owes q₀ r u) ∨
    (x.row.status.finished = false ∧ ∃ u t,
      step cfg id x (.exec i key) = { x with
        refunds := x.refunds + 1
        accounts := x.accounts.charge id.account (-q₀) }.setVisit i (some u) ∧
      u.kind = .suno ∧ u.todo = [.adjustToken (-q₀), .update t] ∧ KeepsQuota q₀ u ∧
      t.status = .failure ∧ t.quota = q₀ ∧ q₀ ≠ 0) := by
  obtain ⟨htame, hkeep⟩ := hcalm
  obtain ⟨k, t₀, todo⟩ := v
  have hlands := (hfair.2 _ hv).1
  unfold Tame at htame
  dsimp only at htame
  split at htame
  · -- nothing to send
    refine Or.inl ⟨x.row, _, ?_, calm_nil hkeep, hq, Or.inl rfl⟩
    simp only [step, hv]
    exact (setVisit_self hv).symm
  · -- a guarded write
    rename_i t fromStatus won
    obtain ⟨htq, hfin, hdue⟩ := htame
    simp only [step, hv, State.runStmt, List.append_nil]
    by_cases hwin : x.row.status = fromStatus
    · rw [if_pos hwin]
      -- a write guarded by a final status is that of a realtime fetch, and keeps it
      by_cases hf : fromStatus.finished = true
      · obtain ⟨hst, rfl⟩ := hfin hf
        refine Or.inl ⟨t, ⟨k, t₀, []⟩, ?_, calm_nil hkeep, htq, Or.inl (hst.trans hwin.symm)⟩
        simp [Due.stmts]
      · have hrow : x.row.status.finished = false := by
          rw [hwin]
          simpa using hf
        cases won with
        | nothing =>
          by_cases htf : t.status.finished = true
          · refine Or.inr (Or.inl ⟨hrow, t, ⟨k, t₀, []⟩, x.exempted, ?_, calm_nil hkeep, htq, htf,
              fun hs hfail => ?_⟩)
            · simp [Due.stmts]
            · rw [← hq]
              refine Or.inl ((hlands hs hfail hwin).resolve_left fun hcon => ?_)
              rw [hcon] at hrow
              cases hrow
          · refine Or.inl ⟨t, ⟨k, t₀, []⟩, ?_, calm_nil hkeep, htq,
              Or.inr ⟨hrow, by simpa using htf⟩⟩
            simp [Due.stmts]
        | legacy =>
          have hst : t.status = .failure := hdue
          refine Or.inr (Or.inl ⟨hrow, t, ⟨k, t₀, []⟩, true, ?_, calm_nil hkeep, htq, ?_,
            fun _ _ => Or.inr rfl⟩)
          · simp [Due.stmts]
          · rw [hst]
            rfl
        | refund =>
          refine Or.inr (Or.inr (Or.inl ⟨hrow, t, ⟨k, t₀, [.refundFunding q₀]⟩, ?_, htq,
            Or.inl ⟨rfl, hdue.1, hkeep⟩⟩))
          simp [Due.stmts, refundTaskQuota, hdue.2, htq]
        | settle a =>
          obtain ⟨hst, hkind, htf⟩ := hdue
          refine Or.inr (Or.inr (Or.inl ⟨hrow, t, ⟨k, t₀, [.settleFunding q₀ a]⟩, ?_, htq,
            Or.inr ⟨a, rfl, hst, hkind, htf⟩⟩))
          simp [Due.stmts, htq]
    · rw [if_neg hwin]
      exact Or.inl ⟨x.row, ⟨k, t₀, []⟩, rfl, calm_nil hkeep, hq, Or.inl rfl⟩
  · -- a Suno save with no refund before it
    rename_i t
    obtain ⟨htq, hfail⟩ := htame
    simp only [step, hv, State.runStmt]
    by_cases hsame : x.row.status = t.status
    · exact Or.inl ⟨t, ⟨k, t₀, []⟩, rfl, calm_nil hkeep, htq, Or.inl hsame.symm⟩
    · have hrow := Or.resolve_right hlands hsame
      by_cases htf : t.status.finished = true
      · exact Or.inr (Or.inl ⟨hrow, t, ⟨k, t₀, []⟩, x.exempted, rfl, calm_nil hkeep, htq, htf,
          fun _ h => Or.inl (hfail h)⟩)
      · exact Or.inl ⟨t, ⟨k, t₀, []⟩, rfl, calm_nil hkeep, htq,
          Or.inr ⟨hrow, by simpa using htf⟩⟩
  · -- a bulk update
    rename_i reason
    simp only [step, hv, State.runStmt]
    by_cases hsame : x.row.status = .failure
    · exact Or.inl ⟨_, ⟨k, t₀, []⟩, rfl, calm_nil hkeep, hq, Or.inl hsame.symm⟩
    · have hrow : x.row.status.finished = false := by
        simp [TaskStatus.finished, hsame, hlands.1]
      refine Or.inr (Or.inl ⟨hrow, _, ⟨k, t₀, []⟩, x.exempted, rfl, calm_nil hkeep, hq, rfl,
        fun hs _ => Or.inl ?_⟩)
      rw [← hq]
      exact (hlands.2 hs).resolve_left hsame
  · -- a Suno refund begins
    rename_i q t
    obtain ⟨hkind, rfl, h0, htq⟩ := htame
    simp only [step, hv, State.runStmt, taskAdjustFunding_eq]
    exact Or.inr (Or.inr (Or.inr ⟨hlands.1, ⟨k, t₀, [.adjustToken (-q), .update t]⟩, t, rfl, hkind,
      rfl, hkeep, hlands.2, htq, h0⟩))
  · exact htame.elim

theorem Owes.finished {r : TaskRow} (h : Owes q₀ r v) : r.status.finished = true := by
  rcases h with ⟨-, hst, -⟩ | ⟨a, -, hst, -⟩
  · rw [hst]
    rfl
  · rw [hst]
    rfl

/-- A harmless statement leaves the row unfinished and refunds nothing. -/
theorem exec_harmless (cfg : Settings) (id : TaskIdent) (key : String)
    (hv : x.visits i = some v) (hcalm : Calm q₀ v) (hrow : x.row.status.finished = false)
    (h : ∀ st ∈ v.todo.head?, Harmless x st) :
    (step cfg id x (.exec i key)).row.status.finished = false ∧
      (step cfg id x (.exec i key)).refunds = x.refunds := by
  obtain ⟨k, t₀, todo⟩ := v
  obtain ⟨htame, -⟩ := hcalm
  unfold Tame at htame
  dsimp only at htame
  split at htame
  · simp only [step, hv]
    exact ⟨hrow, trivial⟩
  · rename_i t fromStatus won
    simp only [step, hv, State.runStmt]
    by_cases hwin : x.row.status = fromStatus
    · rw [if_pos hwin]
      exact ⟨h _ rfl hwin, rfl⟩
    · rw [if_neg hwin]
      exact ⟨hrow, rfl⟩
  · simp only [step, hv, State.runStmt]
    exact ⟨h _ rfl, rfl⟩
  · exact (h _ rfl).elim
  · exact (h _ rfl).elim
  · exact htame.elim

/-- A visit that has nothing to send is replaced by a calm one, or ends. -/
theorem Inv.setVisit (h : Inv strict id q₀ w₀ x) {o : Option Visit}
    (hidle : ∀ u, x.visits i = some u → u.todo = [])
    (ho : ∀ u, o = some u → Calm q₀ u) : Inv strict id q₀ w₀ (x.setVisit i o) := by
  cases h with
  | unbilled hq hrow hr hs hw hall =>
    exact .unbilled hq hrow hr hs hw ((OthersCalm.of_all hall i).setVisit_all ho)
  | midSuno j v t token hq hrow hr hs hv hkind htodo hkeep ht htq h0 hfund htok hoth =>
    -- a visit that owes something is not idle, so it is another one
    have hij : j ≠ i := by
      rintro rfl
      rw [hidle v hv] at htodo
      cases token <;> simp at htodo
    exact .midSuno j v t token hq hrow hr hs ((setVisit_visits_ne o hij).trans hv) hkind htodo hkeep
      ht htq h0 hfund htok (hoth.setVisit_ne ho i)
  | owed j v hq hr hs hw hv howes hoth =>
    have hij : j ≠ i := by
      rintro rfl
      have hnil := hidle v hv
      rcases howes with ⟨htodo, -⟩ | ⟨a, htodo, -⟩
      · rw [hnil] at htodo
        cases htodo
      · rw [hnil] at htodo
        cases htodo
    exact .owed j v hq hr hs hw ((setVisit_visits_ne o hij).trans hv) howes (hoth.setVisit_ne ho i)
  | tokenOwed j v d hq hrow hrs hv htodo hkeep hback hoth =>
    have hij : j ≠ i := by
      rintro rfl
      rw [hidle v hv] at htodo
      cases htodo
    exact .tokenOwed j v d hq hrow hrs ((setVisit_visits_ne o hij).trans hv) htodo hkeep hback
      (hoth.setVisit_ne ho i)
  | closed hq hrow hrs hback hall =>
    exact .closed hq hrow hrs hback ((OthersCalm.of_all hall i).setVisit_all ho)

theorem Inv.quota (h : Inv strict id q₀ w₀ x) : x.row.quota = q₀ := by
  cases h <;> assumption

/-- A visit that has nothing to send has the quota of the row, if it may still be
worked on. -/
theorem Inv.keepsQuota (h : Inv strict id q₀ w₀ x) (hv : x.visits i = some v)
    (hnil : v.todo = []) : KeepsQuota q₀ v := by
  cases h with
  | unbilled hq hrow hr hs hw hall => exact (hall i v hv).2
  | midSuno j u t token hq hrow hr hs hu hkind htodo hkeep ht htq h0 hfund htok hoth =>
    by_cases hij : i = j
    · subst hij
      rw [hv] at hu
      cases hu
      exact hkeep
    · exact (hoth i v hij hv).2
  | owed j u hq hr hs hw hu howes hoth =>
    by_cases hij : i = j
    · subst hij
      rw [hv] at hu
      cases hu
      rcases howes with ⟨htodo, -⟩ | ⟨a, htodo, -⟩
      · rw [hnil] at htodo
        cases htodo
      · rw [hnil] at htodo
        cases htodo
    · exact (hoth i v hij hv).2
  | tokenOwed j u d hq hrow hrs hu htodo hkeep hback hoth =>
    by_cases hij : i = j
    · subst hij
      rw [hv] at hu
      cases hu
      exact hkeep
    · exact (hoth i v hij hv).2
  | closed hq hrow hrs hback hall => exact (hall i v hv).2

theorem Inv.enter (h : Inv strict id q₀ w₀ x) (hcalm : Calm q₀ v) :
    Inv strict id q₀ w₀ (x.enter i v) := by
  unfold State.enter
  rcases hv : x.visits i with _ | u
  · exact h.setVisit (fun u hu => by rw [hv] at hu; cases hu) (some_calm hcalm)
  · exact h

/-- A visit that works on an input keeps the invariant if it stays calm. -/
theorem Inv.work (h : Inv strict id q₀ w₀ x) {kind : Kind} {f : TaskRow → Visit}
    (hcalm : ∀ t, x.visits i = some ⟨kind, t, []⟩ → KeepsQuota q₀ ⟨kind, t, []⟩ →
      Calm q₀ (f t)) :
    Inv strict id q₀ w₀ (x.work i kind f) := by
  unfold State.work
  split
  · rename_i k t hv
    by_cases hk : k = kind
    · subst hk
      rw [if_pos rfl]
      refine h.setVisit (fun u hu => ?_) (some_calm (hcalm t hv (h.keepsQuota hv rfl)))
      rw [hv] at hu
      cases hu
      rfl
    · rw [if_neg hk]
      exact h
  · exact h

/-- In a state whose row is finished, a calm visit only leaves the status. -/
theorem exec_calm_finished (cfg : Settings) (id : TaskIdent) (hv : x.visits i = some v)
    (hcalm : Calm q₀ v) (hq : x.row.quota = q₀) (hrow : x.row.status.finished = true)
    (hfair : Fair strict x (.exec i key)) :
    ∃ r u, step cfg id x (.exec i key) = { x with row := r }.setVisit i (some u) ∧
      Calm q₀ u ∧ r.quota = q₀ ∧ r.status = x.row.status := by
  rcases exec_calm cfg id hv hcalm hq hfair with
    ⟨r, u, heq, hu, hrq, hst⟩ | ⟨hno, -⟩ | ⟨hno, -⟩ | ⟨hno, -⟩
  · refine ⟨r, u, heq, hu, hrq, hst.resolve_right ?_⟩
    rintro ⟨hno, -⟩
    rw [hrow] at hno
    cases hno
  all_goals
    rw [hrow] at hno
    cases hno

theorem exec_none (hv : x.visits i = none) : step cfg id x (.exec i key) = x := by
  simp only [step, hv]

/-- **The visit that owes the bill sends it**: the refund, of which the token half is left,
or the settlement. -/
theorem exec_owed (hq : x.row.quota = q₀) (hr : x.refunds = 0) (hs : x.settles = 0)
    (hw : x.accounts = w₀) (hv : x.visits i = some v) (howes : Owes q₀ x.row v)
    (hoth : OthersCalm q₀ x i) : Inv strict id q₀ w₀ (step cfg id x (.exec i key)) := by
  have hrow := howes.finished
  obtain ⟨k, t₀, todo⟩ := v
  rcases howes with ⟨htodo, hst, hkeep⟩ | ⟨a, htodo, hst, hkind, htf⟩
  · obtain rfl : todo = _ := htodo
    simp only [step, hv, State.runStmt, taskAdjustFunding_eq]
    refine .tokenOwed i ⟨k, t₀, [.adjustToken (-q₀)]⟩ (-q₀) hq hrow (by simp [hr, hs])
      (setVisit_visits_self _) rfl hkeep (fun _ => ⟨rfl, by simp [hr], ?_, ?_⟩)
      (OthersCalm.setVisit (fun j v hj hv => hoth j v hj hv) _)
    · simp [FundingBack, hw]
    · simp [hw]
  · obtain rfl : todo = _ := htodo
    -- a settlement changes the quota of the copy, which is finished and not used again
    have hkeep : ∀ t' l, t'.status = t₀.status → KeepsQuota q₀ ⟨k, t', l⟩ :=
      fun t' l ht' _ hcon => absurd (hcon hkind) (by
        rw [show (⟨k, t', l⟩ : Visit).task.status = t₀.status from ht',
          show t₀.status.finished = true from htf]
        decide)
    have hnf : x.row.status ≠ .failure := by
      rw [hst]
      decide
    simp only [step, hv, State.runStmt, taskAdjustFunding_eq]
    split
    · exact .closed hq hrow (by simp [hr, hs]) (fun _ hcon => absurd hcon hnf)
        (OthersCalm.setVisit_all (fun j v hj hv => hoth j v hj hv)
          (some_calm (calm_nil (hkeep t₀ _ rfl))))
    · exact .tokenOwed i _ _ hq hrow (by simp [hr, hs]) (setVisit_visits_self _) rfl
        (hkeep { t₀ with quota := a } _ rfl) (fun hcon => absurd hcon hnf)
        (OthersCalm.setVisit (fun j v hj hv => hoth j v hj hv) _)

/-- **One statement keeps the row and the books in agreement.** -/
theorem Inv.exec (h : Inv strict id q₀ w₀ x) (hfair : Fair strict x (.exec i key)) :
    Inv strict id q₀ w₀ (step cfg id x (.exec i key)) := by
  rcases hvi : x.visits i with _ | u
  · rw [exec_none hvi]
    exact h
  cases h with
  | unbilled hq hrow hr hs hw hall =>
    have hoth := OthersCalm.of_all hall i
    rcases exec_calm cfg id hvi (hall i u hvi) hq hfair with
      ⟨r, u', heq, hu, hrq, hst⟩ | ⟨-, r, u', e, heq, hu, hrq, hrf, hb⟩ |
      ⟨-, r, u', heq, hrq, howes⟩ | ⟨-, u', t, heq, hkind, htodo, hkeep, ht, htq, h0⟩
    · rw [heq]
      refine .unbilled hrq ?_ hr hs hw (OthersCalm.setVisit_all (fun j v hj hv => hoth j v hj hv)
        (some_calm hu))
      rcases hst with hst | ⟨-, hst⟩
      · exact (congrArg TaskStatus.finished hst).trans hrow
      · exact hst
    · rw [heq]
      refine .closed hrq hrf (by simp [hr, hs]) (fun hst hf => ?_)
        (OthersCalm.setVisit_all (fun j v hj hv => hoth j v hj hv) (some_calm hu))
      exact (hb hst hf).imp_right Or.inl
    · rw [heq]
      exact .owed i u' hrq hr hs hw (setVisit_visits_self _) howes
        (OthersCalm.setVisit (fun j v hj hv => hoth j v hj hv) _)
    · rw [heq]
      refine .midSuno i u' t true hq hrow (by simp [hr]) hs (setVisit_visits_self _) hkind htodo
        hkeep ht htq h0 ?_ ?_ (OthersCalm.setVisit (fun j v hj hv => hoth j v hj hv) _)
      · simp [FundingBack, hw]
      · simp [hw]
  | midSuno j v t token hq hrow hr hs hv hkind htodo hkeep ht htq h0 hfund htok hoth =>
    by_cases hij : i = j
    swap
    · -- another visit neither finishes the row nor begins a refund in between
      have hmid : MidSuno v := by
        refine ⟨hkind, ?_⟩
        cases token with
        | true =>
          rw [htodo]
          exact ht
        | false =>
          rw [htodo]
          exact ⟨ht, htq ▸ h0⟩
      obtain ⟨hrow', hr'⟩ := exec_harmless cfg id key hvi
        (hoth i u hij hvi) hrow ((hfair.2 u hvi).2 j v (Ne.symm hij) hv hmid)
      rcases exec_calm cfg id hvi (hoth i u hij hvi) hq hfair with
        ⟨r, u', heq, hu, hrq, -⟩ | ⟨-, r, u', e, heq, -, -, hrf, -⟩ |
        ⟨-, r, u', heq, -, howes⟩ | ⟨-, u', t, heq, -⟩
      · rw [heq] at hrow' ⊢
        exact .midSuno j v t token hrq hrow' hr hs ((setVisit_visits_ne _ (Ne.symm hij)).trans hv)
          hkind htodo hkeep ht htq h0 hfund htok
          (OthersCalm.setVisit_ne (fun k w hk hw => hoth k w hk hw) (some_calm hu) i)
      · rw [heq] at hrow'
        exact absurd (hrf.symm.trans hrow') (by decide)
      · rw [heq] at hrow'
        exact absurd (howes.finished.symm.trans hrow') (by decide)
      · rw [heq] at hr'
        exact absurd hr' (by simp)
    subst hij
    obtain ⟨k, t₀, todo⟩ := v
    obtain rfl : todo = _ := htodo
    cases token with
    | true =>
      -- its own next statement is the token half, and then the save
      simp only [step, hv, State.runStmt, if_true, List.cons_append, List.nil_append]
      refine .midSuno i ⟨k, t₀, [.update t]⟩ t false hq hrow hr hs (setVisit_visits_self _) hkind
        rfl hkeep ht htq h0 ?_ (fun hst htid => ?_)
        (OthersCalm.setVisit (fun j v hj hv => hoth j v hj hv) _)
      · exact (taskAdjustTokenQuota_funding key (-q₀) id.account).trans hfund
      · have hzero : tokenDebit w₀ x.accounts id.tokenId = 0 := htok
        simp only [setVisit_accounts, taskAdjustTokenQuota_token htid (hfair.1 hst), hzero]
        omega
    | false =>
      simp only [step, hv, State.runStmt, Bool.false_eq_true, if_false, List.nil_append]
      refine .closed htq ?_ (by simp [hr, hs]) (fun hst _ => Or.inr (Or.inr ⟨hr, hfund, htok hst⟩))
        (OthersCalm.setVisit_all (fun j v hj hv => hoth j v hj hv) (some_calm (calm_nil hkeep)))
      exact (congrArg TaskStatus.finished ht).trans rfl
  | owed j v hq hr hs hw hv howes hoth =>
    have hrow := howes.finished
    by_cases hij : i = j
    · subst hij
      exact exec_owed hq hr hs hw hv howes hoth
    · obtain ⟨r, u', heq, hu, hrq, hst⟩ :=
        exec_calm_finished cfg id hvi (hoth i u hij hvi) hq hrow hfair
      rw [heq]
      refine .owed j v hrq hr hs hw ((setVisit_visits_ne _ (Ne.symm hij)).trans hv) ?_
        (OthersCalm.setVisit_ne (fun k w hk hw => hoth k w hk hw) (some_calm hu) i)
      rcases howes with ⟨htodo, hst', hkeep⟩ | ⟨a, htodo, hst', hkind, htf⟩
      · exact Or.inl ⟨htodo, hst.trans hst', hkeep⟩
      · exact Or.inr ⟨a, htodo, hst.trans hst', hkind, htf⟩
  | tokenOwed j v d hq hrow hrs hv htodo hkeep hback hoth =>
    by_cases hij : i = j
    · subst hij
      obtain ⟨k, t₀, todo⟩ := v
      obtain rfl : todo = _ := htodo
      simp only [step, hv, State.runStmt]
      refine .closed hq hrow hrs.le
        (fun hst hf => Or.inr (Or.inr ⟨(hback hf).2.1, ?_, fun htid => ?_⟩))
        (OthersCalm.setVisit_all (fun j v hj hv => hoth j v hj hv) (some_calm (calm_nil hkeep)))
      · exact (taskAdjustTokenQuota_funding key d id.account).trans (hback hf).2.2.1
      · obtain ⟨rfl, -, -, hzero⟩ := hback hf
        simp only [setVisit_accounts, taskAdjustTokenQuota_token htid (hfair.1 hst), hzero]
        omega
    · obtain ⟨r, u', heq, hu, hrq, hst⟩ :=
        exec_calm_finished cfg id hvi (hoth i u hij hvi) hq hrow hfair
      rw [heq]
      exact .tokenOwed j v d hrq ((congrArg TaskStatus.finished hst).trans hrow) hrs
        ((setVisit_visits_ne _ (Ne.symm hij)).trans hv) htodo hkeep
        (fun hf => hback (hst.symm.trans hf))
        (OthersCalm.setVisit_ne (fun k w hk hw => hoth k w hk hw) (some_calm hu) i)
  | closed hq hrow hrs hback hall =>
    obtain ⟨r, u', heq, hu, hrq, hst⟩ :=
      exec_calm_finished cfg id hvi (hall i u hvi) hq hrow hfair
    rw [heq]
    exact .closed hrq ((congrArg TaskStatus.finished hst).trans hrow) hrs
      (fun hs hf => hback hs (hst.symm.trans hf))
      (OthersCalm.setVisit_all (fun j v _ hv => hall j v hv) (some_calm hu))

/-- **One event keeps the row and the books in agreement.** -/
theorem Inv.step (h : Inv strict id q₀ w₀ x) {e : Event} (hfair : Fair strict x e) :
    Inv strict id q₀ w₀ (step cfg id x e) := by
  have hq := h.quota
  cases e with
  | sweep i cutoff now =>
    unfold Task.step
    dsimp only
    split
    · rename_i hc
      refine h.enter (calm_sweep hq ?_)
      have hun := hc.2.1
      simp only [State.unfinished, Bool.and_eq_true, Bool.not_eq_true'] at hun
      exact hun.2
    · exact h
  | poll i =>
    unfold Task.step
    dsimp only
    split
    · split
      · exact h.enter ⟨trivial, fun _ _ => hq⟩
      · exact h.enter ⟨trivial, fun _ _ => hq⟩
    · exact h
  | fetch i =>
    unfold Task.step
    dsimp only
    split
    · exact h.enter ⟨trivial, fun _ _ => hq⟩
    · exact h
  | channelMissing i =>
    exact h.work fun t _ _ => ⟨trivial, fun hspent => absurd rfl hspent⟩
  | suno i item => exact h.work fun t _ hkeep => calm_suno (hkeep nofun nofun)
  | video i now r =>
    refine h.work fun t hv hkeep => ?_
    have hs := hfair _ hv
    exact calm_video (hkeep nofun fun _ => hs) hs
  | realtime i ti =>
    exact h.work fun t hv hkeep => calm_realtime (hkeep nofun nofun) (hfair _ hv)
  | exec i key => exact h.exec hfair
  | done i =>
    unfold Task.step
    dsimp only
    split
    · rename_i k t hv
      refine h.setVisit (fun u hu => ?_) (fun u hu => by cases hu)
      rw [hv] at hu
      cases hu
      rfl
    · exact h

theorem enter_row : (x.enter i v).row = x.row := by
  unfold State.enter
  split <;> rfl

theorem work_row {kind : Kind} {f : TaskRow → Visit} : (x.work i kind f).row = x.row := by
  unfold State.work
  split
  · split <;> rfl
  · rfl

/-- **A final status stays**, in every step that is fair: no visit writes over a row that is
finished. -/
theorem Inv.status_step (h : Inv strict id q₀ w₀ x) {e : Event} (hfair : Fair strict x e)
    (hrow : x.row.status.finished = true) : (Task.step cfg id x e).row.status = x.row.status := by
  have hno : x.row.status.finished ≠ false := by simp [hrow]
  cases e with
  | sweep i cutoff now =>
    unfold Task.step
    dsimp only
    split
    · rw [enter_row]
    · rfl
  | poll i =>
    unfold Task.step
    dsimp only
    split
    · split
      · rw [enter_row]
      · rw [enter_row]
    · rfl
  | fetch i =>
    unfold Task.step
    dsimp only
    split
    · rw [enter_row]
    · rfl
  | channelMissing i => exact congrArg TaskRow.status work_row
  | suno i item => exact congrArg TaskRow.status work_row
  | video i now r => exact congrArg TaskRow.status work_row
  | realtime i ti => exact congrArg TaskRow.status work_row
  | done i =>
    unfold Task.step
    dsimp only
    split <;> rfl
  | exec i key =>
    rcases hvi : x.visits i with _ | u
    · rw [exec_none hvi]
    -- the visits that owe something do not write the row any more
    have hcalm : Calm q₀ u → (Task.step cfg id x (.exec i key)).row.status = x.row.status := by
      intro hu
      obtain ⟨r, u', heq, -, -, hst⟩ :=
        exec_calm_finished cfg id hvi hu h.quota hrow hfair
      rw [heq]
      exact hst
    cases h with
    | unbilled hq hrow' => exact absurd hrow' hno
    | midSuno j v t token hq hrow' => exact absurd hrow' hno
    | owed j v hq hr hs hw hv howes hoth =>
      by_cases hij : i = j
      · subst hij
        obtain ⟨k, t₀, todo⟩ := v
        rcases howes with ⟨htodo, -⟩ | ⟨a, htodo, -⟩
        · obtain rfl : todo = _ := htodo
          simp only [Task.step, hv, State.runStmt, taskAdjustFunding_eq]
          rfl
        · obtain rfl : todo = _ := htodo
          simp only [Task.step, hv, State.runStmt, taskAdjustFunding_eq]
          split <;> rfl
      · exact hcalm (hoth i u hij hvi)
    | tokenOwed j v d hq hrow' hrs hv htodo hkeep hback hoth =>
      by_cases hij : i = j
      · subst hij
        obtain ⟨k, t₀, todo⟩ := v
        obtain rfl : todo = _ := htodo
        simp only [Task.step, hv, State.runStmt]
        rfl
      · exact hcalm (hoth i u hij hvi)
    | closed hq hrow' hrs hback hall => exact hcalm (hall i u hvi)

end Steps

/-! ### Whole runs -/

/-- The state of a task no visitor has come to. -/
def State.initial (row : TaskRow) (w₀ : Accounts) : State :=
  ⟨row, fun _ => none, w₀, 0, 0, false⟩

section Runs

variable {cfg : Settings} {id : TaskIdent} {strict : Bool} {row : TaskRow} {w₀ : Accounts}

theorem inv_initial (h : strict = true → row.status.finished = false) :
    Inv strict id row.quota w₀ (.initial row w₀) := by
  have hall : AllCalm row.quota (State.initial row w₀) := fun j v hv => by cases hv
  by_cases hrow : row.status.finished = true
  · refine .closed rfl hrow (Nat.zero_le 1) (fun hs _ => ?_) hall
    exact absurd (hrow.symm.trans (h hs)) (by decide)
  · exact .unbilled rfl (by simpa [State.initial] using hrow) rfl rfl rfl hall

/-- **Along a fair run the row and the books agree.** -/
theorem inv_initial_run (h : strict = true → row.status.finished = false) {es : List Event}
    (hfair : Along (step cfg id) (Fair strict) (.initial row w₀) es) :
    Inv strict id row.quota w₀ (run (step cfg id) (.initial row w₀) es) :=
  inv_run (fun _ _ hinv hf => hinv.step hf) (inv_initial h) hfair

theorem Inv.billed {x : State} {q₀ : Int} (h : Inv strict id q₀ w₀ x) :
    x.refunds + x.settles ≤ 1 := by
  cases h <;> omega

theorem status_run {x : State} {q₀ : Int} (h : Inv strict id q₀ w₀ x)
    (hrow : x.row.status.finished = true) {es : List Event}
    (hfair : Along (step cfg id) (Fair strict) x es) :
    (run (step cfg id) x es).row.status = x.row.status := by
  have hrun := inv_run (I := fun y => Inv strict id q₀ w₀ y ∧ y.row.status = x.row.status)
    (fun y e hy hf => ⟨hy.1.step hf,
      (hy.1.status_step hf ((congrArg TaskStatus.finished hy.2).trans hrow)).trans hy.2⟩)
    ⟨h, rfl⟩ hfair
  exact hrun.2

/-- What is asked of every run: a final status never changes again, and the task is
refunded or settled at most once in all. -/
def BilledOnce (cfg : Settings) (id : TaskIdent) (row : TaskRow) (w₀ : Accounts)
    (es : List Event) : Prop :=
  (∀ before after, es = before ++ after →
    (run (step cfg id) (.initial row w₀) before).row.status.finished = true →
    (run (step cfg id) (.initial row w₀) es).row.status =
      (run (step cfg id) (.initial row w₀) before).row.status) ∧
  (run (step cfg id) (.initial row w₀) es).refunds +
    (run (step cfg id) (.initial row w₀) es).settles ≤ 1

/-- **A task is billed at most once** along every fair run, whatever its row, its
platform, the number of visits and the answers of the upstream. -/
theorem billedOnce_of_fair {es : List Event}
    (hfair : Along (step cfg id) (Fair false) (.initial row w₀) es) :
    BilledOnce cfg id row w₀ es := by
  have hno : false = true → row.status.finished = false := nofun
  refine ⟨fun before after hes hrow => ?_, (inv_initial_run hno hfair).billed⟩
  subst hes
  -- the run is split at the state whose status is final
  obtain ⟨hbefore, hafter⟩ := (along_append _ _ _).mp hfair
  rw [run_append]
  exact status_run (inv_initial_run hno hbefore) hrow hafter

/-- What is asked of a run for the refund: a task that was paid for, has ended in
`FAILURE` and was not exempted has been refunded, once, its whole quota on both
sides. -/
def FailureRefunded (cfg : Settings) (id : TaskIdent) (row : TaskRow) (w₀ : Accounts)
    (es : List Event) : Prop :=
  let x := run (step cfg id) (.initial row w₀) es
  row.quota ≠ 0 → (∀ i v, x.visits i = some v → v.todo = []) → x.row.status = .failure →
    x.exempted = false →
    x.refunds = 1 ∧ fundingDebit w₀ x.accounts id.account = -row.quota ∧
      (0 < id.tokenId → tokenDebit w₀ x.accounts id.tokenId = -row.quota)

/-- **No refund is lost** along a run that is fair in the strict sense. -/
theorem failureRefunded_of_fair (hrow : row.status.finished = false) {es : List Event}
    (hfair : Along (step cfg id) (Fair true) (.initial row w₀) es) :
    FailureRefunded cfg id row w₀ es := by
  intro hquota hquiet hfail hex
  have hinv : Inv true id row.quota w₀ (run (step cfg id) (.initial row w₀) es) :=
    inv_initial_run (fun _ => hrow) hfair
  cases hinv with
  | unbilled hq hrow' =>
    rw [hfail] at hrow'
    cases hrow'
  | midSuno i v t token hq hrow' =>
    rw [hfail] at hrow'
    cases hrow'
  | owed i v hq hr hs hw hv howes hoth =>
    have hnil := hquiet i v hv
    rcases howes with ⟨htodo, -⟩ | ⟨a, htodo, -⟩
    · rw [hnil] at htodo
      cases htodo
    · rw [hnil] at htodo
      cases htodo
  | tokenOwed i v d hq hrow' hrs hv htodo =>
    rw [hquiet i v hv] at htodo
    cases htodo
  | closed hq hrow' hrs hback hall =>
    rcases hback rfl hfail with h | h | h
    · exact absurd h hquota
    · rw [hex] at h
      cases h
    · exact h

end Runs

/-! ### Sample runs -/

/-- The visit an event is about. -/
def Event.visit : Event → Nat
  | .sweep i _ _ => i
  | .poll i => i
  | .fetch i => i
  | .channelMissing i => i
  | .suno i _ => i
  | .video i _ _ => i
  | .realtime i _ => i
  | .exec i _ => i
  | .done i => i

section Frame

variable {cfg : Settings} {id : TaskIdent} {x : State} {i j : Nat} {v : Visit}

theorem enter_visits_ne (h : j ≠ i) : (x.enter i v).visits j = x.visits j := by
  unfold State.enter
  split
  · exact setVisit_visits_ne _ h
  · rfl

theorem work_visits_ne {kind : Kind} {f : TaskRow → Visit} (h : j ≠ i) :
    (x.work i kind f).visits j = x.visits j := by
  unfold State.work
  split
  · split
    · exact setVisit_visits_ne _ h
    · rfl
  · rfl

theorem runStmt_visits_ne {key : String} {rest : List Stmt} {st : Stmt} (h : j ≠ i) :
    (x.runStmt id i v key rest st).visits j = x.visits j := by
  cases st <;> simp only [State.runStmt, taskAdjustFunding_eq]
  case updateWithStatus => split <;> exact setVisit_visits_ne _ h
  case settleFunding => split <;> exact setVisit_visits_ne _ h
  all_goals exact setVisit_visits_ne _ h

/-- **An event touches its own visit only.** -/
theorem step_visits_ne {e : Event} (h : j ≠ e.visit) :
    (step cfg id x e).visits j = x.visits j := by
  cases e with
  | sweep i cutoff now =>
    unfold step
    dsimp only
    split
    · exact enter_visits_ne h
    · rfl
  | poll i =>
    unfold step
    dsimp only
    split
    · split
      · exact enter_visits_ne h
      · exact enter_visits_ne h
    · rfl
  | fetch i =>
    unfold step
    dsimp only
    split
    · exact enter_visits_ne h
    · rfl
  | channelMissing i => exact work_visits_ne h
  | suno i item => exact work_visits_ne h
  | video i now r => exact work_visits_ne h
  | realtime i ti => exact work_visits_ne h
  | exec i key =>
    unfold step
    dsimp only
    split
    · exact runStmt_visits_ne h
    · rfl
  | done i =>
    unfold step
    dsimp only
    split
    · exact setVisit_visits_ne _ h
    · rfl

theorem run_visits_ne {es : List Event} (hes : ∀ e ∈ es, e.visit = i) (h : j ≠ i) :
    (run (step cfg id) x es).visits j = x.visits j := by
  induction es generalizing x with
  | nil => rfl
  | cons e es ih =>
    rw [run_cons, ih fun e' he' => hes e' (List.mem_cons_of_mem _ he')]
    exact step_visits_ne ((hes e List.mem_cons_self).symm ▸ h)

theorem fair_exec_alone {strict : Bool} {key : String} (hkey : key ≠ "") (hv : x.visits i = some v)
    (hlands : Lands strict x v.todo) (halone : ∀ j, j ≠ i → x.visits j = none) :
    Fair strict x (.exec i key) := by
  refine ⟨fun _ => hkey, fun u hu => ?_⟩
  rw [hv] at hu
  cases hu
  refine ⟨hlands, fun j w hj hw => ?_⟩
  rw [halone j hj] at hw
  cases hw

end Frame

section Sample

/-- Settings with a timeout of a day. -/
def sampleSettings : Settings := ⟨1440, "https://localhost", fun s => s.toUTF8.toList⟩

/-- A Suno task paid from the wallet of user 1 with token 2. -/
def sunoTask : TaskIdent := ⟨"task_a", true, "up_a", 3, false, 1, "wallet", 0, 2, false⟩

/-- A video task paid from the wallet of user 1 with token 2. -/
def videoTask : TaskIdent := ⟨"task_b", false, "up_b", 3, true, 1, "wallet", 0, 2, false⟩

/-- A row as it is submitted, with a quota of 10. -/
def submittedRow : TaskRow := ⟨.notStart, "", 1750000000, 0, 0, "0%", 10, "", ""⟩

/-- Accounts with 100 on every wallet and token. -/
def sampleAccounts : Accounts := ⟨fun _ => 100, fun _ => ⟨100, 0⟩, fun _ => 0, fun _ => none⟩

/-- The upstream says that a song has failed. -/
def failedSong : SunoDataResponse := ⟨"FAILURE", "rejected", 0, 0, 0, ""⟩

/-- One poller comes to a failed song and refunds it. -/
def failedSongRun : List Event :=
  [.poll 0, .suno 0 failedSong, .exec 0 "key", .exec 0 "key", .exec 0 "key"]

theorem failedSongRun_fair (strict : Bool) :
    Along (step sampleSettings sunoTask) (Fair strict) (.initial submittedRow sampleAccounts)
      failedSongRun := by
  have halone : ∀ es : List Event, (∀ e ∈ es, e.visit = 0) → ∀ j, j ≠ 0 →
      (run (step sampleSettings sunoTask) (.initial submittedRow sampleAccounts) es).visits j =
        none :=
    fun es hes j hj => run_visits_ne hes hj
  have h₂ := halone [.poll 0, .suno 0 failedSong] (by decide)
  have h₃ := halone [.poll 0, .suno 0 failedSong, .exec 0 "key"] (by decide)
  have h₄ := halone [.poll 0, .suno 0 failedSong, .exec 0 "key", .exec 0 "key"] (by decide)
  refine ⟨trivial, trivial, fair_exec_alone (by decide) rfl ?_ h₂,
    fair_exec_alone (by decide) rfl ?_ h₃, fair_exec_alone (by decide) rfl ?_ h₄, trivial⟩
  · exact ⟨rfl, rfl⟩
  · trivial
  · exact Or.inl rfl

/-- The failed song is billed once. -/
theorem billedOnce_failedSong :
    Along (step sampleSettings sunoTask) (Fair false) (.initial submittedRow sampleAccounts)
      failedSongRun ∧
    BilledOnce sampleSettings sunoTask submittedRow sampleAccounts failedSongRun :=
  ⟨failedSongRun_fair false, billedOnce_of_fair (failedSongRun_fair false)⟩

/-- Its whole quota is back, on both sides. -/
theorem failureRefunded_failedSong :
    Along (step sampleSettings sunoTask) (Fair true) (.initial submittedRow sampleAccounts)
      failedSongRun ∧
    FailureRefunded sampleSettings sunoTask submittedRow sampleAccounts failedSongRun :=
  ⟨failedSongRun_fair true, failureRefunded_of_fair rfl (failedSongRun_fair true)⟩

/-- **Two nodes that poll one failed song refund it twice.** -/
theorem two_pollers_refund_twice :
    ¬ BilledOnce sampleSettings sunoTask submittedRow sampleAccounts
      [.poll 0, .poll 1, .suno 0 failedSong, .suno 1 failedSong, .exec 0 "key", .exec 1 "key"] := by
  rintro ⟨-, hbilled⟩
  revert hbilled
  decide

/-- **A task whose channel is gone fails without a refund.** -/
theorem missing_channel_keeps_quota :
    ¬ FailureRefunded sampleSettings videoTask submittedRow sampleAccounts
      [.poll 0, .channelMissing 0, .exec 0 "key", .done 0] := by
  intro h
  have hquiet : ∀ i v, (run (step sampleSettings videoTask)
      (.initial submittedRow sampleAccounts)
      [.poll 0, .channelMissing 0, .exec 0 "key", .done 0]).visits i = some v → v.todo = [] := by
    intro i v hv
    by_cases hi : i = 0
    · subst hi
      cases hv
    · rw [run_visits_ne (i := 0) (by decide) hi] at hv
      cases hv
  have hrefunds := (h (by decide) hquiet (by decide) (by decide)).1
  revert hrefunds
  decide

end Sample

end NewApiPool.Task
