import NewApiPool.Subscription.Group

/-!
# Getting the group back

Runs of the functions of `NewApiPool.Subscription.Group`, seen by one user who is in
group `g` before any subscription.

The invariant is on the rows of that user. Each upgraded one remembers `g`, or nothing
if it upgrades to `g` itself; one at most is active; the group is `g` or that of the
active one; and an active one ends after all that have expired, so that the expiry task,
which goes by the last end time, finds the right row.
-/

namespace NewApiPool.Subscription

open EventSystem GoText

/-! ### The runs -/

/-- The database and the time of the last call. -/
structure GroupState where
  db : Db
  clock : Int

/-- The calls that can change a group, with the time at which they are made. -/
inductive GroupEvent where
  | create (userId : Int) (plan : SubscriptionPlan) (now : Int)
  | expireDue (limit : Int) (order : MapOrder) (now : Int)
  | invalidate (id now : Int)
  | delete (id now : Int)

def GroupEvent.time : GroupEvent → Int
  | .create _ _ now => now
  | .expireDue _ _ now => now
  | .invalidate _ now => now
  | .delete _ now => now

namespace GroupState

/-- The database a call leaves. -/
def callDb (cal : Calendar) (db : Db) : GroupEvent → Db
  | .create userId plan now =>
    match createUserSubscriptionFromPlanTx cal db userId plan now with
    | .error _ => db
    | .ok (_, _, db') => db'
  | .expireDue limit order now => (expireDueSubscriptions db limit now order).2.2
  | .invalidate id now =>
    match adminInvalidateUserSubscription db id now with
    | .error _ => db
    | .ok (_, db') => db'
  | .delete id now =>
    match adminDeleteUserSubscription db id now with
    | .error _ => db
    | .ok (_, db') => db'

/-- One call at its time, on the subscriptions and the group of the user. -/
def step (cal : Calendar) (x : GroupState) (e : GroupEvent) : GroupState :=
  ⟨callDb cal x.db e, e.time⟩

end GroupState

/-- An active subscription of the user that has an upgrade group. -/
def Upgraded (u : Int) (s : UserSubscription) : Prop :=
  s.userId = u ∧ s.status = .active ∧ s.upgradeGroup ≠ ""

instance decidableUpgraded (u : Int) (s : UserSubscription) : Decidable (Upgraded u s) :=
  inferInstanceAs (Decidable (_ ∧ _ ∧ _))

/-- **The group is restored**: if no active, unexpired subscription with an upgrade group
is left, the user is in `g`. -/
def Restored (u : Int) (g : String) (x : GroupState) : Prop :=
  (∀ i s, x.db.subs i = some s → Upgraded u s → s.endTime ≤ x.clock) → x.db.groups u = some g

/-- No upgraded subscription of the user has come due. -/
def NoneDue (db : Db) (u now : Int) : Prop :=
  ∀ r ∈ db.rows, Upgraded u r.2 → now < r.2.endTime

/-- The user has no upgraded subscription. -/
def NoneActive (db : Db) (u : Int) : Prop := ∀ r ∈ db.rows, ¬ Upgraded u r.2

instance decidableNoneDue (db : Db) (u now : Int) : Decidable (NoneDue db u now) :=
  inferInstanceAs (Decidable (∀ r ∈ db.rows, _ → _))

instance decidableNoneActive (db : Db) (u : Int) : Decidable (NoneActive db u) :=
  inferInstanceAs (Decidable (∀ r ∈ db.rows, ¬ _))

/-- **One upgrade at a time.** The user buys a plan with an upgrade group only while no
other upgraded subscription of theirs is active, and it ends after it begins; the clock
does not go back; and a subscription that has come due is swept before anything else
happens. -/
def OneAtATime (cal : Calendar) (u : Int) (x : GroupState) (e : GroupEvent) : Prop :=
  x.clock ≤ e.time ∧
    match e with
    | .create userId plan now => NoneDue x.db u now ∧
      (userId = u → (trimSpace plan.upgradeGroup ≠ "" → NoneActive x.db u) ∧
        ∀ t ∈ (calcPlanEndTime cal now plan).toOption, now < t)
    | .expireDue limit _ now => NoneDue x.db u now ∨ u ∈ x.db.dueUsers limit now
    | .invalidate _ now => NoneDue x.db u now
    | .delete _ now => NoneDue x.db u now

instance decidableOneAtATime (cal : Calendar) (u : Int) (x : GroupState) :
    ∀ e, Decidable (OneAtATime cal u x e)
  | .create _ _ _ => inferInstanceAs (Decidable (_ ∧ _ ∧ (_ → _ ∧ ∀ t ∈ _, _ < t)))
  | .expireDue _ _ _ => inferInstanceAs (Decidable (_ ∧ (_ ∨ _)))
  | .invalidate _ _ => inferInstanceAs (Decidable (_ ∧ NoneDue _ _ _))
  | .delete _ _ => inferInstanceAs (Decidable (_ ∧ NoneDue _ _ _))

/-! ### The invariant -/

/-- What an upgraded subscription remembers. -/
structure Remembers (g : String) (s : UserSubscription) : Prop where
  trimmed : trimSpace s.upgradeGroup = s.upgradeGroup
  prev : (s.upgradeGroup = g ∧ s.prevUserGroup = "") ∨
    (s.upgradeGroup ≠ g ∧ s.prevUserGroup = g)

/-- The rows and the group of the user at a time. -/
structure InGroup (u : Int) (g : String) (clock : Int) (db : Db) : Prop where
  nonneg : 0 ≤ clock
  rows : ∀ i s, db.subs i = some s → s.userId = u → s.upgradeGroup ≠ "" → Remembers g s
  one : ∀ i s j t, db.subs i = some s → Upgraded u s → db.subs j = some t → Upgraded u t → i = j
  group : db.groups u = some g ∨
    ∃ i s, db.subs i = some s ∧ Upgraded u s ∧ db.groups u = some s.upgradeGroup
  ahead : ∀ i s, db.subs i = some s → Upgraded u s → clock < s.endTime
  behind : ∀ i s, db.subs i = some s → s.userId = u → s.status = .expired →
    s.upgradeGroup ≠ "" → s.endTime ≤ clock

section Inv

variable {u now clock id : Int} {g : String} {db db' d d' : Db} {s : UserSubscription}

theorem InGroup.restored (h : InGroup u g clock db) : Restored u g ⟨db, clock⟩ := by
  intro hnone
  rcases h.group with hg | ⟨i, s, hs, hup, -⟩
  · exact hg
  · have hle := hnone i s hs hup
    have hlt := h.ahead i s hs hup
    exact absurd hlt (not_lt.mpr hle)

theorem InGroup.later (h : InGroup u g clock db) (hle : clock ≤ now)
    (hdue : NoneDue db u now) : InGroup u g now db where
  nonneg := h.nonneg.trans hle
  rows := h.rows
  one := h.one
  group := h.group
  ahead := fun i s hs hup => hdue (i, s) (db.mem_rows_iff.mpr hs) hup
  behind := fun i s hs hu hst hup => (h.behind i s hs hu hst hup).trans hle

/-- What happens to the rows of other users does not matter. -/
theorem InGroup.frame (h : InGroup u g clock db) (hgroup : db'.groups u = db.groups u)
    (hrows : ∀ i s, s.userId = u → (db'.subs i = some s ↔ db.subs i = some s)) :
    InGroup u g clock db' where
  nonneg := h.nonneg
  rows := fun i s hs hu => h.rows i s ((hrows i s hu).mp hs) hu
  one := fun i s j t hs hup ht hup' =>
    h.one i s j t ((hrows i s hup.1).mp hs) hup ((hrows j t hup'.1).mp ht) hup'
  group := by
    rw [hgroup]
    refine h.group.imp_right ?_
    rintro ⟨i, s, hs, hup, hg⟩
    exact ⟨i, s, (hrows i s hup.1).mpr hs, hup, hg⟩
  ahead := fun i s hs hup => h.ahead i s ((hrows i s hup.1).mp hs) hup
  behind := fun i s hs hu => h.behind i s ((hrows i s hu).mp hs) hu

theorem InGroup.group_some (h : InGroup u g clock db) : ∃ old, db.groups u = some old := by
  rcases h.group with hg | ⟨i, s, -, -, hg⟩
  · exact ⟨g, hg⟩
  · exact ⟨s.upgradeGroup, hg⟩

/-! ### A purchase -/

/-- A new subscription of the user, in a database where none is active if it is an
upgraded one. -/
theorem InGroup.insert (h : InGroup u g clock db) (hnew : db.subs id = none)
    (hsubs : db'.subs = Function.update db.subs id (some s)) (hactive : s.status = .active)
    (hend : clock < s.endTime) (hrem : s.userId = u → s.upgradeGroup ≠ "" → Remembers g s)
    (hone : Upgraded u s → ∀ i t, db.subs i = some t → ¬ Upgraded u t)
    (hgroup : db'.groups u = db.groups u ∨ (Upgraded u s ∧ db'.groups u = some s.upgradeGroup)) :
    InGroup u g clock db' := by
  have hrows : ∀ i t, db'.subs i = some t → (i = id ∧ t = s) ∨ (i ≠ id ∧ db.subs i = some t) :=
    fun i t ht => update_eq_some (hsubs ▸ ht)
  refine ⟨h.nonneg, ?_, ?_, ?_, ?_, ?_⟩
  · intro i t ht hu hup
    rcases hrows i t ht with ⟨-, rfl⟩ | ⟨-, ht⟩
    · exact hrem hu hup
    · exact h.rows i t ht hu hup
  · intro i t j t' ht hup ht' hup'
    rcases hrows i t ht with ⟨hi, rfl⟩ | ⟨-, ht⟩
    · rcases hrows j t' ht' with ⟨hj, -⟩ | ⟨-, ht'⟩
      · rw [hi, hj]
      · exact absurd hup' (hone hup j t' ht')
    · rcases hrows j t' ht' with ⟨-, rfl⟩ | ⟨-, ht'⟩
      · exact absurd hup (hone hup' i t ht)
      · exact h.one i t j t' ht hup ht' hup'
  · rcases hgroup with hg | ⟨hup, hg⟩
    · rw [hg]
      refine h.group.imp_right ?_
      rintro ⟨i, t, ht, hup, hgt⟩
      have hi : i ≠ id := by
        rintro rfl
        rw [hnew] at ht
        cases ht
      exact ⟨i, t, by rw [hsubs, Function.update_of_ne hi, ht], hup, hgt⟩
    · exact Or.inr ⟨id, s, by rw [hsubs, Function.update_self], hup, hg⟩
  · intro i t ht hup
    rcases hrows i t ht with ⟨-, rfl⟩ | ⟨-, ht⟩
    · exact hend
    · exact h.ahead i t ht hup
  · intro i t ht hu hst hup
    rcases hrows i t ht with ⟨-, rfl⟩ | ⟨-, ht⟩
    · rw [hactive] at hst
      cases hst
    · exact h.behind i t ht hu hst hup

/-- Where no upgraded subscription is active, the group is `g`. -/
theorem InGroup.group_of_noneActive (h : InGroup u g clock db) (hnone : NoneActive db u) :
    db.groups u = some g := by
  rcases h.group with hg | ⟨i, s, hs, hup, -⟩
  · exact hg
  · exact absurd hup (hnone (i, s) (db.mem_rows_iff.mpr hs))

/-- **A purchase keeps the invariant.** -/
theorem InGroup.create {cal : Calendar} {userId : Int} {plan : SubscriptionPlan}
    (h : InGroup u g now db)
    (hcond : userId = u → (trimSpace plan.upgradeGroup ≠ "" → NoneActive db u) ∧
      ∀ t ∈ (calcPlanEndTime cal now plan).toOption, now < t)
    (hc : createUserSubscriptionFromPlanTx cal db userId plan now = .ok (id, s, db')) :
    InGroup u g now db' := by
  obtain ⟨-, hnew, hu, hactive, hup, hend, hsubs, hgroups⟩ := create_ok hc
  by_cases huser : userId = u
  · obtain ⟨hnone, hlater⟩ := hcond huser
    subst huser
    have hend' : now < s.endTime := hlater s.endTime (by rw [hend]; rfl)
    have hg : s.upgradeGroup ≠ "" → db.groups userId = some g := fun hne =>
      h.group_of_noneActive (hnone (hup ▸ hne))
    refine h.insert hnew hsubs hactive hend' (fun _ hne => ⟨?_, ?_⟩) ?_ ?_
    · rw [hup, trimSpace_trimSpace]
    · rw [hg hne] at hgroups
      rcases hgroups with ⟨hsame, hprev, -⟩ | ⟨-, hother, hprev, -⟩
      · exact Or.inl ⟨(hsame.resolve_left hne).symm, hprev⟩
      · exact Or.inr ⟨fun hcon => hother hcon.symm, hprev⟩
    · intro hs i t ht
      exact hnone (hup ▸ hs.2.2) (i, t) (db.mem_rows_iff.mpr ht)
    · rcases hgroups with ⟨-, -, heq⟩ | ⟨hne, -, -, heq⟩
      · exact Or.inl (by rw [heq])
      · exact Or.inr ⟨⟨hu, hactive, hne⟩, by rw [heq, Db.setGroup_self (hg hne)]⟩
  · refine h.frame ?_ fun i t ht => ?_
    · rcases hgroups with ⟨-, -, heq⟩ | ⟨-, -, -, heq⟩
      · rw [heq]
      · rw [heq, Db.setGroup_ne (fun hcon => huser hcon.symm)]
    · rw [hsubs]
      by_cases hi : i = id
      · subst hi
        rw [Function.update_self, hnew]
        refine ⟨fun hcon => ?_, nofun⟩
        cases hcon
        exact absurd (hu.symm.trans ht) huser
      · rw [Function.update_of_ne hi]

/-! ### The end of a subscription -/

/-- A subscription that moves its user back moves them to `g`. -/
theorem Remembers.target (h : Remembers g s) (hg : trimSpace g = g)
    (hprev : trimSpace s.prevUserGroup ≠ "") : trimSpace s.prevUserGroup = g := by
  rcases h.prev with ⟨-, hp⟩ | ⟨-, hp⟩
  · rw [hp] at hprev
    exact absurd rfl hprev
  · rw [hp, hg]

/-- The group after a subscription has ended, in terms of those that have not. -/
theorem InGroup.group_after_end {target : String} (h : InGroup u g clock db)
    (hg : trimSpace g = g) (hne : g ≠ "") (hs : db.subs id = some s)
    (hsubs : ∀ i, i ≠ id → d.subs i = db.subs i) (hgroups : d.groups = db.groups)
    (hd : downgradeUserGroupForSubscriptionTx d id s now = .ok (target, d')) :
    d'.groups u = some g ∨
      ∃ i t, i ≠ id ∧ db.subs i = some t ∧ Upgraded u t ∧ d'.groups u = some t.upgradeGroup := by
  by_cases hu : s.userId = u
  swap
  · have hsame : d'.groups u = db.groups u := by
      rcases downgrade_ok hd with ⟨rfl, -⟩ | ⟨-, -, rfl⟩
      · rw [hgroups]
      · rw [Db.setGroup_ne (fun hcon => hu hcon.symm), hgroups]
    rw [hsame]
    refine h.group.imp_right ?_
    rintro ⟨i, t, ht, hup, hgt⟩
    refine ⟨i, t, ?_, ht, hup, hgt⟩
    rintro rfl
    rw [hs] at ht
    cases ht
    exact hu hup.1
  rcases downgrade_ok hd with ⟨rfl, hwhy⟩ | ⟨hup, hprev, rfl⟩
  · rw [hgroups] at hwhy ⊢
    rcases h.group with hgr | ⟨i, t, ht, hup, hgt⟩
    · exact Or.inl hgr
    by_cases hi : i = id
    swap
    · exact Or.inr ⟨i, t, hi, ht, hup, hgt⟩
    -- it is the active one that has ended: no reason to leave the group alone applies
    subst hi
    rw [hs] at ht
    cases ht
    have hrem := h.rows i s hs hu hup.2.2
    rcases hrem.prev with ⟨hsame, -⟩ | ⟨hother, hprev⟩
    · exact Or.inl (hsame ▸ hgt)
    rw [hu, hgt, hrem.trimmed, hprev, hg] at hwhy
    rcases hwhy with hcon | hcon | ⟨⟨j, t⟩, hr, hj⟩ | hcon | hcon
    · exact absurd hcon hup.2.2
    · exact absurd rfl hcon
    · obtain ⟨ht, htu, hta, -, htup⟩ := Db.mem_activeUpgrades.mp hr
      rw [hsubs j hj] at ht
      exact absurd (h.one j t i s ht ⟨htu, hta, htup⟩ hs hup) hj
    · exact absurd hcon hne
    · exact absurd hcon.symm hother
  · have hup' : s.upgradeGroup ≠ "" := by
      intro hcon
      rw [hcon] at hup
      exact hup rfl
    obtain ⟨old, hold⟩ := h.group_some
    left
    rw [hu, Db.setGroup_self (hgroups ▸ hold), (h.rows id s hs hu hup').target hg hprev]

/-- **The end of a subscription keeps the invariant**, whether its row is cancelled or
deleted. -/
theorem InGroup.ended {target : String} (h : InGroup u g now db) (hg : trimSpace g = g)
    (hne : g ≠ "") (hs : db.subs id = some s) (hsubs : ∀ i, i ≠ id → d.subs i = db.subs i)
    (hgroups : d.groups = db.groups)
    (hd : downgradeUserGroupForSubscriptionTx d id s now = .ok (target, d'))
    (hrest : ∀ i, i ≠ id → db'.subs i = db.subs i)
    (hself : ∀ t, db'.subs id = some t → t = { s with status := .cancelled, endTime := now })
    (hgroups' : db'.groups = d'.groups) : InGroup u g now db' := by
  have hgone : ∀ t, db'.subs id = some t → ¬ Upgraded u t := by
    rintro t ht ⟨-, hcon, -⟩
    rw [hself t ht] at hcon
    cases hcon
  have hback : ∀ i t, db'.subs i = some t → Upgraded u t → db.subs i = some t := by
    intro i t ht hup
    by_cases hi : i = id
    · subst hi
      exact absurd hup (hgone t ht)
    · rwa [hrest i hi] at ht
  refine ⟨h.nonneg, ?_, ?_, ?_, ?_, ?_⟩
  · intro i t ht hu hup
    by_cases hi : i = id
    · subst hi
      obtain rfl := hself t ht
      obtain ⟨htrim, hprev⟩ := h.rows i s hs hu hup
      exact ⟨htrim, hprev⟩
    · exact h.rows i t (hrest i hi ▸ ht) hu hup
  · intro i t j t' ht hup ht' hup'
    exact h.one i t j t' (hback i t ht hup) hup (hback j t' ht' hup') hup'
  · rw [hgroups']
    refine (h.group_after_end hg hne hs hsubs hgroups hd).imp_right ?_
    rintro ⟨i, t, hi, ht, hup, hgt⟩
    exact ⟨i, t, (hrest i hi).trans ht, hup, hgt⟩
  · intro i t ht hup
    exact h.ahead i t (hback i t ht hup) hup
  · intro i t ht hu hst hup
    by_cases hi : i = id
    · subst hi
      rw [hself t ht] at hst
      cases hst
    · exact h.behind i t (hrest i hi ▸ ht) hu hst hup

theorem InGroup.invalidate {message : String} (h : InGroup u g now db) (hg : trimSpace g = g)
    (hne : g ≠ "") (hc : adminInvalidateUserSubscription db id now = .ok (message, db')) :
    InGroup u g now db' := by
  unfold adminInvalidateUserSubscription at hc
  split at hc
  · cases hc
  split at hc
  · cases hc
  rename_i s hs
  split at hc
  · cases hc
  rename_i target d' hd
  cases hc
  have hsubs : ∀ i, i ≠ id → (db.setSub id { s with status := .cancelled, endTime := now }).subs i =
      db.subs i := fun i hi => Db.setSub_ne _ _ hi
  have hkeep : db'.subs = (db.setSub id { s with status := .cancelled, endTime := now }).subs := by
    rcases downgrade_ok hd with ⟨rfl, -⟩ | ⟨-, -, rfl⟩
    · rfl
    · rfl
  refine h.ended hg hne hs hsubs rfl hd (fun i hi => ?_) (fun t ht => ?_) rfl
  · rw [hkeep, hsubs i hi]
  · rw [hkeep, Db.setSub_self] at ht
    exact (Option.some.inj ht).symm

theorem InGroup.delete {message : String} (h : InGroup u g now db) (hg : trimSpace g = g)
    (hne : g ≠ "") (hc : adminDeleteUserSubscription db id now = .ok (message, db')) :
    InGroup u g now db' := by
  unfold adminDeleteUserSubscription at hc
  split at hc
  · cases hc
  split at hc
  · cases hc
  rename_i s hs
  split at hc
  · cases hc
  rename_i target d' hd
  cases hc
  have hkeep : d'.subs = db.subs := by
    rcases downgrade_ok hd with ⟨rfl, -⟩ | ⟨-, -, rfl⟩
    · rfl
    · rfl
  refine h.ended hg hne hs (fun _ _ => rfl) rfl hd (fun i hi => ?_) (fun t ht => ?_) rfl
  · simp only [Db.deleteSub, Function.update_of_ne hi, hkeep]
  · simp only [Db.deleteSub, Function.update_self] at ht
    cases ht

/-! ### The expiry task -/

variable {i : Int} {t : UserSubscription}

theorem expireRows_origin {v : Int} (h : (db.expireRows v now).subs i = some t) :
    ∃ s, db.subs i = some s ∧
      t = if s.userId = v ∧ Db.isDue now s = true then { s with status := .expired } else s := by
  obtain ⟨s, hs, ht⟩ := Option.map_eq_some_iff.mp h
  exact ⟨s, hs, ht.symm⟩

/-- An active row that the expiry task leaves active was there before, and is not due. -/
theorem upgraded_of_expireRows (h : (db.expireRows u now).subs i = some t) (hup : Upgraded u t) :
    db.subs i = some t ∧ Db.isDue now t = false := by
  obtain ⟨s, hs, rfl⟩ := expireRows_origin h
  split at hup
  · obtain ⟨-, hcon, -⟩ := hup
    cases hcon
  · rename_i hdue
    rw [if_neg hdue]
    refine ⟨hs, ?_⟩
    by_contra hcon
    exact hdue ⟨hup.1, by simpa using hcon⟩

/-- A row that is expired after the expiry task was expired before or has come due. -/
theorem expired_of_expireRows
    (h : (db.expireRows u now).subs i = some t) (hst : t.status = .expired) :
    db.subs i = some t ∨ ∃ s, db.subs i = some s ∧ s.userId = u ∧ Db.isDue now s = true ∧
      t = { s with status := .expired } := by
  obtain ⟨s, hs, rfl⟩ := expireRows_origin h
  split at hst
  · rename_i hdue
    rw [if_pos hdue]
    exact Or.inr ⟨s, hs, hdue.1, hdue.2, rfl⟩
  · rename_i hdue
    rw [if_neg hdue]
    exact Or.inl hs

/-- The rows after the expiry task remember what they did. -/
theorem InGroup.rows_expireRows (h : InGroup u g clock db)
    (ht : (db.expireRows u now).subs i = some t) (hu : t.userId = u) (hup : t.upgradeGroup ≠ "") :
    Remembers g t := by
  obtain ⟨s, hs, rfl⟩ := expireRows_origin ht
  split at hu
  · rename_i hdue
    rw [if_pos hdue] at hup ⊢
    obtain ⟨htrim, hprev⟩ := h.rows i s hs hu hup
    exact ⟨htrim, hprev⟩
  · rename_i hdue
    rw [if_neg hdue] at hup ⊢
    exact h.rows i s hs hu hup

/-- If the active subscription has come due, it is the one that ended last. -/
theorem InGroup.lastExpired_eq (h : InGroup u g clock db) (hs : db.subs i = some s)
    (hup : Upgraded u s) (hdue : Db.isDue now s = true) :
    (db.expireRows u now).lastExpired u = some (i, { s with status := .expired }) := by
  have hrow : (db.expireRows u now).subs i = some { s with status := .expired } := by
    simp [Db.expireRows, hs, hup.1, hdue]
  obtain ⟨⟨j, t⟩, hlast, hafter⟩ := Db.lastExpired_max hrow hup.1 rfl hup.2.2
  obtain ⟨ht, htu, hst, htup⟩ := Db.mem_lastExpired hlast
  have hahead := h.ahead i s hs hup
  by_cases hj : j = i
  · subst hj
    rw [hrow] at ht
    cases ht
    exact hlast
  -- another one that is expired has ended before
  exfalso
  simp only [Db.endsAfter] at hafter
  rcases expired_of_expireRows ht hst with hold | ⟨s', hs', hu', hdue', rfl⟩
  · have := h.behind j t hold htu hst htup
    omega
  · have hact : s'.status = .active := (of_decide_eq_true hdue').1
    exact hj (h.one j s' i s hs' ⟨hu', hact, htup⟩ hs hup)

/-- The group after the expiry task has seen to the user. -/
theorem InGroup.group_after_expiry (h : InGroup u g clock db) (hg : trimSpace g = g)
    (hne : g ≠ "") (hu : 0 < u) (hout : (expireUserTx db u now).2 = .ok db') :
    db'.groups u = some g ∨ ∃ i s, (db.expireRows u now).subs i = some s ∧ Upgraded u s ∧
      db'.groups u = some s.upgradeGroup := by
  obtain ⟨db₁, hout', -, hcases⟩ := expireUser_cases db now hu
  rw [hout] at hout'
  cases hout'
  rcases hcases with ⟨hsame, hwhy⟩ | ⟨⟨j, t⟩, hlast, hprev, hset⟩
  swap
  · obtain ⟨ht, htu, -, htup⟩ := Db.mem_lastExpired hlast
    obtain ⟨old, hold⟩ := h.group_some
    rw [hset, Db.setGroup_self hold, (h.rows_expireRows ht htu htup).target hg hprev]
    exact Or.inl rfl
  rw [hsame]
  rcases h.group with hgr | ⟨i, s, hs, hup, hgs⟩
  · exact Or.inl hgr
  by_cases hdue : Db.isDue now s = true
  swap
  · refine Or.inr ⟨i, s, ?_, hup, hgs⟩
    simp [Db.expireRows, hs, hdue]
  -- the active one has come due: no reason to leave the group alone applies
  have hrem := h.rows i s hs hup.1 hup.2.2
  rcases hrem.prev with ⟨hsg, -⟩ | ⟨hother, hprev⟩
  · exact Or.inl (hsg ▸ hgs)
  have hlast := h.lastExpired_eq hs hup hdue
  exfalso
  rcases hwhy with hact | hnone | ⟨r, hr, hwhy⟩
  · obtain ⟨⟨j, t⟩, hj⟩ := List.exists_mem_of_ne_nil _ hact
    obtain ⟨ht, htu, hta, -, htup⟩ := Db.mem_activeUpgrades.mp hj
    obtain ⟨ht', hnot⟩ := upgraded_of_expireRows ht ⟨htu, hta, htup⟩
    obtain rfl := h.one j t i s ht' ⟨htu, hta, htup⟩ hs hup
    rw [hs] at ht'
    cases ht'
    rw [hdue] at hnot
    cases hnot
  · rw [hlast] at hnone
    cases hnone
  · rw [hlast] at hr
    cases hr
    dsimp only at hwhy
    rw [hgs, hrem.trimmed, hprev, hg] at hwhy
    rcases hwhy with hcon | hcon | hcon | hcon
    · exact hup.2.2 hcon
    · exact hne hcon
    · exact hcon rfl
    · exact hother hcon

/-- **The expiry task keeps the invariant**, and brings it up to its own time. -/
theorem InGroup.expireUser (h : InGroup u g clock db) (hg : trimSpace g = g) (hne : g ≠ "")
    (hu : 0 < u) (hle : clock ≤ now) (hout : (expireUserTx db u now).2 = .ok db') :
    InGroup u g now db' := by
  obtain ⟨db₁, hout', hsubs, -⟩ := expireUser_cases db now hu
  have hgroup := h.group_after_expiry hg hne hu hout
  rw [hout] at hout'
  cases hout'
  refine ⟨h.nonneg.trans hle, ?_, ?_, ?_, ?_, ?_⟩
  · intro i t ht htu htup
    rw [hsubs] at ht
    exact h.rows_expireRows ht htu htup
  · intro i t j t' ht hup ht' hup'
    rw [hsubs] at ht ht'
    exact h.one i t j t' (upgraded_of_expireRows ht hup).1 hup
      (upgraded_of_expireRows ht' hup').1 hup'
  · rw [hsubs]
    exact hgroup
  · intro i t ht hup
    rw [hsubs] at ht
    obtain ⟨hold, hnot⟩ := upgraded_of_expireRows ht hup
    have hahead := h.ahead i t hold hup
    have hnonneg := h.nonneg
    simp only [Db.isDue, hup.2.1, decide_eq_false_iff_not, true_and] at hnot
    omega
  · intro i t ht htu hst htup
    rw [hsubs] at ht
    rcases expired_of_expireRows ht hst with hold | ⟨s, -, -, hdue, rfl⟩
    · exact (h.behind i t hold htu hst htup).trans hle
    · exact (of_decide_eq_true hdue).2.2

theorem InGroup.expireOther {v : Int} (h : InGroup u g clock db) (hv : 0 < v) (hne : v ≠ u)
    (hout : (expireUserTx db v now).2 = .ok db') : InGroup u g clock db' := by
  obtain ⟨db₁, hout', hsubs, hcases⟩ := expireUser_cases db now hv
  rw [hout] at hout'
  cases hout'
  refine h.frame ?_ fun i t ht => ?_
  · rcases hcases with ⟨hsame, -⟩ | ⟨r, -, -, hset⟩
    · rw [hsame]
    · rw [hset, Db.setGroup_ne hne.symm]
  · rw [hsubs]
    constructor
    · intro hrow
      obtain ⟨s, hs, rfl⟩ := expireRows_origin hrow
      split at ht
      · rename_i hdue
        exact absurd (hdue.1.symm.trans ht) hne
      · rename_i hdue
        rwa [if_neg hdue]
    · intro hrow
      have hnot : ¬ (t.userId = v ∧ Db.isDue now t = true) := fun hcon =>
        hne (hcon.1.symm.trans ht)
      simp only [Db.expireRows, hrow, Option.map_some, if_neg hnot]

/-- **The loop over the users.** If the user is among them, the invariant is brought up
to the time of the task. -/
theorem InGroup.expireUsers {users : List Int} (count : Nat) (h : InGroup u g clock db)
    (hg : trimSpace g = g) (hne : g ≠ "") (hle : clock ≤ now) (hpos : ∀ v ∈ users, 0 < v) :
    InGroup u g (if u ∈ users then now else clock) (expireUsers now users count db).2.2 := by
  induction users generalizing db count clock with
  | nil => simpa [Subscription.expireUsers] using h
  | cons v users ih =>
    have hv := hpos v List.mem_cons_self
    have hrest : ∀ w ∈ users, 0 < w := fun w hw => hpos w (List.mem_cons_of_mem v hw)
    obtain ⟨db', hout, -, -⟩ := expireUser_cases db now hv
    rcases hfull : expireUserTx db v now with ⟨n, e | db₁⟩
    · rw [hfull] at hout
      cases hout
    have hout' : (expireUserTx db v now).2 = .ok db₁ := by rw [hfull]
    unfold Subscription.expireUsers
    rw [hfull]
    by_cases hvu : v = u
    · subst hvu
      have hnext := ih (count + n) (h.expireUser hg hne hv hle hout') (le_refl now) hrest
      rw [if_pos List.mem_cons_self]
      rwa [ite_self] at hnext
    · have hnext := ih (count + n) (h.expireOther hv hvu hout') hle hrest
      have hmem : u ∈ v :: users ↔ u ∈ users := by
        rw [List.mem_cons]
        exact or_iff_right fun hcon => hvu hcon.symm
      simpa only [hmem] using hnext

theorem dueUsers_pos {limit v : Int} (h : v ∈ db.dueUsers limit now) : 0 < v :=
  of_decide_eq_true (List.mem_filter.mp (List.mem_dedup.mp h)).2

/-- `ExpireDueSubscriptions` keeps the invariant, if it reaches the user or nothing of
theirs is due. -/
theorem InGroup.expireDue {limit : Int} {order : MapOrder} (h : InGroup u g clock db)
    (hg : trimSpace g = g) (hne : g ≠ "") (hle : clock ≤ now)
    (hreach : NoneDue db u now ∨ u ∈ db.dueUsers limit now) :
    InGroup u g now (expireDueSubscriptions db limit now order).2.2 := by
  have hmem : ∀ v, v ∈ order.arrange (db.dueUsers limit now) ↔ v ∈ db.dueUsers limit now :=
    fun v => (order.perm _).mem_iff
  have hpos : ∀ v ∈ order.arrange (db.dueUsers limit now), 0 < v :=
    fun v hv => dueUsers_pos ((hmem v).mp hv)
  unfold expireDueSubscriptions
  by_cases hu : u ∈ db.dueUsers limit now
  · have hrun := h.expireUsers 0 hg hne hle hpos
    rwa [if_pos ((hmem u).mpr hu)] at hrun
  · have hrun := (h.later hle (hreach.resolve_right hu)).expireUsers 0 hg hne (le_refl now) hpos
    rwa [ite_self] at hrun

end Inv

/-! ### Every run -/

/-- **A call keeps the invariant.** -/
theorem InGroup.step {cal : Calendar} {u : Int} {g : String} (hg : trimSpace g = g) (hne : g ≠ "")
    (x : GroupState) (e : GroupEvent) (h : InGroup u g x.clock x.db)
    (hc : OneAtATime cal u x e) :
    InGroup u g (x.step cal e).clock (x.step cal e).db := by
  obtain ⟨hle, hc⟩ := hc
  cases e with
  | create userId plan now =>
    have hlater := h.later hle hc.1
    simp only [GroupState.step, GroupState.callDb, GroupEvent.time]
    split
    · exact hlater
    · rename_i id s db' hok
      exact hlater.create hc.2 hok
  | expireDue limit order now => exact h.expireDue hg hne hle hc
  | invalidate id now =>
    have hlater := h.later hle hc
    simp only [GroupState.step, GroupState.callDb, GroupEvent.time]
    split
    · exact hlater
    · rename_i message db' hok
      exact hlater.invalidate hg hne hok
  | delete id now =>
    have hlater := h.later hle hc
    simp only [GroupState.step, GroupState.callDb, GroupEvent.time]
    split
    · exact hlater
    · rename_i message db' hok
      exact hlater.delete hg hne hok

/-- **A user who holds one upgraded subscription at a time gets the group back**: in every
run from a state in which they have no subscription and are in group `g`, whenever no
active, unexpired one with an upgrade group remains, they are in `g`. -/
theorem restored_of_oneAtATime {cal : Calendar} {u : Int} {g : String} {db : Db} {clock : Int}
    {es : List GroupEvent} (hclock : 0 ≤ clock) (hg : trimSpace g = g) (hne : g ≠ "")
    (hgroup : db.groups u = some g) (hnone : ∀ i s, db.subs i = some s → s.userId ≠ u)
    (h : Along (GroupState.step cal) (OneAtATime cal u) ⟨db, clock⟩ es) :
    Restored u g (run (GroupState.step cal) ⟨db, clock⟩ es) := by
  have hstart : InGroup u g clock db := by
    refine ⟨hclock, ?_, ?_, Or.inl hgroup, ?_, ?_⟩
    · intro i s hs hu
      exact absurd hu (hnone i s hs)
    · intro i s j t hs hup
      exact absurd hup.1 (hnone i s hs)
    · intro i s hs hup
      exact absurd hup.1 (hnone i s hs)
    · intro i s hs hu
      exact absurd hu (hnone i s hs)
  have hinv : InGroup u g (run (GroupState.step cal) ⟨db, clock⟩ es).clock
      (run (GroupState.step cal) ⟨db, clock⟩ es).db :=
    inv_run (I := fun x : GroupState => InGroup u g x.clock x.db)
      (fun x e hx hc => InGroup.step hg hne x e hx hc) hstart h
  exact hinv.restored

section Sample

/-- A plan for one hour in the group `vip`. -/
def vipPlan : SubscriptionPlan where
  id := 2
  durationUnit := "hour"
  durationValue := 1
  customSeconds := 0
  maxPurchasePerUser := 0
  upgradeGroup := "vip"
  totalAmount := 1000
  quotaResetPeriod := "never"
  quotaResetCustomSeconds := 0

/-- A user without subscriptions. -/
def emptyDb : Db where
  ids := []
  nodup := List.nodup_nil
  subs _ := none
  subs_ids := by
    intro i s hs
    cases hs
  plans i := if i = 2 then some vipPlan else none
  record _ := none
  groups u := if u = 7 then some "default" else none

/-- A map gone through in the order of its keys in the list. -/
def listOrder : MapOrder := ⟨fun l => l, fun l => List.Perm.refl l⟩

/-- The plan is bought, expires and is bought again; the second one is cancelled. -/
def boughtTwice : List GroupEvent :=
  [.create 7 vipPlan 1000, .expireDue 200 listOrder 5000, .create 7 vipPlan 6000,
    .invalidate 2 7000, .delete 1 7001]

theorem boughtTwice_oneAtATime :
    Along (GroupState.step sampleCalendar) (OneAtATime sampleCalendar 7) ⟨emptyDb, 0⟩
      boughtTwice := by
  decide +kernel

/-- The user is back in the default group. -/
theorem restored_boughtTwice :
    Restored 7 "default" (run (GroupState.step sampleCalendar) ⟨emptyDb, 0⟩ boughtTwice) := by
  have htrim : trimSpace "default" = "default" := by decide +kernel
  have hnone : ∀ i s, emptyDb.subs i = some s → s.userId ≠ 7 := by
    intro i s hs
    cases hs
  exact restored_of_oneAtATime (by decide) htrim (by decide) rfl hnone boughtTwice_oneAtATime

/-- **A subscription renewed before its end is never undone**: the second one remembers no
group, and it is the last to expire. -/
theorem renewal_keeps_upgrade :
    ¬ Restored 7 "default" (run (GroupState.step sampleCalendar) ⟨emptyDb, 0⟩
      [.create 7 vipPlan 1000, .create 7 vipPlan 2000, .expireDue 200 listOrder 10000]) := by
  intro h
  have hgroup := h fun i s hs hup => by
    have hall : ∀ r ∈ (run (GroupState.step sampleCalendar) ⟨emptyDb, 0⟩
        [.create 7 vipPlan 1000, .create 7 vipPlan 2000,
          .expireDue 200 listOrder 10000]).db.rows, ¬ Upgraded 7 r.2 := by
      decide +kernel
    exact absurd hup (hall (i, s) (Db.mem_rows_iff _ |>.mpr hs))
  revert hgroup
  decide +kernel

end Sample

end NewApiPool.Subscription
