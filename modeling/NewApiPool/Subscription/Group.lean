import Mathlib.Data.List.Dedup
import Mathlib.Data.List.Perm.Basic
import NewApiPool.Subscription.Balance

/-!
# The group a subscription lends

A plan can move its buyer to another user group, and the end of the subscription is to
move the user back. A subscription remembers the group its user was in when it was
created, unless that was its own upgrade group already. Whoever ends a subscription –
the expiry task, an administrator who cancels or deletes it – puts that group back, but
only while no other upgraded subscription of the user is running.

The two do not fit together when subscriptions overlap. A second purchase before the
first has ended remembers the group of the first, or nothing; if the first one ends
before it, the group of the user from before both is lost. A user who never holds two
upgraded subscriptions at a time does get the group back
(`NewApiPool.Subscription.restored_of_oneAtATime`).
-/

namespace NewApiPool.Subscription

open EventSystem GoText

/-! ### The functions -/

namespace Db

variable (db : Db)

/-- The id of the next subscription. -/
def nextId : Int := db.ids.foldr max 0 + 1

theorem lt_nextId {i : Int} (h : i ∈ db.ids) : i < db.nextId := by
  have hle : ∀ l : List Int, i ∈ l → i ≤ l.foldr max 0 := by
    intro l hi
    induction l with
    | nil => cases hi
    | cons a l ih =>
      rw [List.foldr_cons]
      rcases List.mem_cons.mp hi with rfl | hl
      · exact le_max_left _ _
      · exact (ih hl).trans (le_max_right _ _)
  have := hle db.ids h
  unfold nextId
  omega

/-- The database with the group of a user updated, if there is such a user. -/
def setGroup (userId : Int) (group : String) : Db :=
  { db with groups := fun u => if u = userId then (db.groups u).map fun _ => group
      else db.groups u }

/-- The database without a subscription. -/
def deleteSub (id : Int) : Db :=
  { db with
    subs := Function.update db.subs id none
    subs_ids := by
      intro i s hs
      by_cases hi : i = id
      · subst hi
        rw [Function.update_self] at hs
        cases hs
      · rw [Function.update_of_ne hi] at hs
        exact db.subs_ids i s hs }

/-- A subscription that `ExpireDueSubscriptions` marks as expired. -/
def isDue (now : Int) (s : UserSubscription) : Bool :=
  decide (s.status = .active ∧ 0 < s.endTime ∧ s.endTime ≤ now)

/-- The database with the due subscriptions of a user marked as expired. -/
def expireRows (userId now : Int) : Db :=
  { db with
    subs := fun i => (db.subs i).map fun s =>
      if s.userId = userId ∧ isDue now s = true then { s with status := .expired } else s
    subs_ids := by
      intro i s hs
      obtain ⟨t, ht, -⟩ := Option.map_eq_some_iff.mp hs
      exact db.subs_ids i t ht }

/-- The running subscriptions of a user that have an upgrade group. -/
def activeUpgrades (userId now : Int) : List (Int × UserSubscription) :=
  db.rows.filter fun r => decide (r.2.userId = userId ∧ r.2.status = .active ∧
    now < r.2.endTime ∧ r.2.upgradeGroup ≠ "")

/-- The order `end_time desc, id desc`. -/
def endsAfter (a b : Int × UserSubscription) : Prop :=
  b.2.endTime < a.2.endTime ∨ (b.2.endTime = a.2.endTime ∧ b.1 ≤ a.1)

instance decidableEndsAfter : DecidableRel endsAfter := fun _ _ =>
  inferInstanceAs (Decidable (_ ∨ _))

/-- The expired subscription of a user with an upgrade group that ended last. -/
def lastExpired (userId : Int) : Option (Int × UserSubscription) :=
  ((db.rows.filter fun r => decide (r.2.userId = userId ∧ r.2.status = .expired ∧
    r.2.upgradeGroup ≠ "")).insertionSort endsAfter).head?

/-- The users of the first `limit` subscriptions that are due. -/
def dueUsers (limit now : Int) : List Int :=
  ((((db.rows.filter fun r => isDue now r.2).insertionSort endsBefore).take
    (if limit ≤ 0 then 200 else limit.toNat)).map fun r => r.2.userId).filter
    (fun u => decide (0 < u)) |>.dedup

end Db

def calcPlanEndTime (cal : Calendar) (start : Int) (plan : SubscriptionPlan) : Except String Int :=
  if plan.durationValue ≤ 0 ∧ plan.durationUnit ≠ "custom" then
    .error "duration_value must be > 0"
  else match plan.durationUnit with
    | "year" => .ok (cal.addDate start plan.durationValue 0)
    | "month" => .ok (cal.addDate start 0 plan.durationValue)
    | "day" => .ok (addDuration start (plan.durationValue * 24 * 3600 * 10 ^ 9))
    | "hour" => .ok (addDuration start (plan.durationValue * 3600 * 10 ^ 9))
    | "custom" =>
      if plan.customSeconds ≤ 0 then .error "custom_seconds must be > 0"
      else .ok (addDuration start (plan.customSeconds * 10 ^ 9))
    | unit => .error ("invalid duration_unit: " ++ unit)

/-- `getUserGroupByIdTx`. The query finds no row for a user that does not exist, which
is not an error. -/
def getUserGroupByIdTx (db : Db) (userId : Int) : Except String String :=
  if userId ≤ 0 then .error "invalid userId" else .ok ((db.groups userId).getD "")

/-- The part of `CreateUserSubscriptionFromPlanTx` that moves the user to the upgrade
group: the group to remember, and the database. -/
def upgradeUserGroup (db : Db) (userId : Int) (upgradeGroup : String) :
    Except String (String × Db) :=
  if upgradeGroup = "" then .ok ("", db)
  else match getUserGroupByIdTx db userId with
    | .error e => .error e
    | .ok currentGroup =>
      if currentGroup = upgradeGroup then .ok ("", db)
      else .ok (currentGroup, db.setGroup userId upgradeGroup)

/-- `CreateUserSubscriptionFromPlanTx`: the new subscription, with its id, and the
database. -/
def createUserSubscriptionFromPlanTx (cal : Calendar) (db : Db) (userId : Int)
    (plan : SubscriptionPlan) (now : Int) : Except String (Int × UserSubscription × Db) :=
  if plan.id = 0 then .error "invalid plan"
  else if userId ≤ 0 then .error "invalid user id"
  else if plan.maxPurchasePerUser > 0 ∧ plan.maxPurchasePerUser ≤
      (db.rows.countP fun r => decide (r.2.userId = userId ∧ r.2.planId = plan.id)) then
    .error "已达到该套餐购买上限"
  else match calcPlanEndTime cal now plan with
    | .error e => .error e
    | .ok endUnix =>
      let nextReset := calcNextResetTime cal now plan endUnix
      let upgradeGroup := trimSpace plan.upgradeGroup
      match upgradeUserGroup db userId upgradeGroup with
      | .error e => .error e
      | .ok (prevGroup, db') =>
        let sub : UserSubscription :=
          { userId := userId
            planId := plan.id
            amountTotal := plan.totalAmount
            amountUsed := 0
            startTime := now
            endTime := endUnix
            status := .active
            lastResetTime := if nextReset > 0 then now else 0
            nextResetTime := nextReset
            upgradeGroup := upgradeGroup
            prevUserGroup := prevGroup }
        .ok (db'.nextId, sub, db'.setSub db'.nextId sub)

/-- `downgradeUserGroupForSubscriptionTx`: the group the user is moved back to, or the
empty text, and the database. -/
def downgradeUserGroupForSubscriptionTx (db : Db) (id : Int) (sub : UserSubscription) (now : Int) :
    Except String (String × Db) :=
  let upgradeGroup := trimSpace sub.upgradeGroup
  if upgradeGroup = "" then .ok ("", db)
  else match getUserGroupByIdTx db sub.userId with
    | .error e => .error e
    | .ok currentGroup =>
      let prevGroup := trimSpace sub.prevUserGroup
      if currentGroup ≠ upgradeGroup then .ok ("", db)
      else if (db.activeUpgrades sub.userId now).any (fun r => decide (r.1 ≠ id)) then .ok ("", db)
      else if prevGroup = "" ∨ prevGroup = currentGroup then .ok ("", db)
      else .ok (prevGroup, db.setGroup sub.userId prevGroup)

/-- The message of the two functions for administrators. -/
def downgradeMessage (downgradeGroup : String) : String :=
  if downgradeGroup = "" then "" else "用户分组将回退到 " ++ downgradeGroup

def adminInvalidateUserSubscription (db : Db) (id now : Int) : Except String (String × Db) :=
  if id ≤ 0 then .error "invalid userSubscriptionId"
  else match db.subs id with
    | none => .error "record not found"
    | some sub =>
      match downgradeUserGroupForSubscriptionTx
          (db.setSub id { sub with status := .cancelled, endTime := now }) id sub now with
      | .error e => .error e
      | .ok (target, db') => .ok (downgradeMessage target, db')

def adminDeleteUserSubscription (db : Db) (id now : Int) : Except String (String × Db) :=
  if id ≤ 0 then .error "invalid userSubscriptionId"
  else match db.subs id with
    | none => .error "record not found"
    | some sub =>
      match downgradeUserGroupForSubscriptionTx db id sub now with
      | .error e => .error e
      | .ok (target, db') => .ok (downgradeMessage target, db'.deleteSub id)

/-- The transaction of `ExpireDueSubscriptions` for one user: how many subscriptions it
has marked, and its error or the database. -/
def expireUserTx (db : Db) (userId now : Int) : Nat × Except String Db :=
  let count := db.rows.countP fun r => decide (r.2.userId = userId ∧ Db.isDue now r.2 = true)
  let db := db.expireRows userId now
  if db.activeUpgrades userId now ≠ [] then (count, .ok db)
  else match db.lastExpired userId with
    | none => (count, .ok db)
    | some (_, last) =>
      let upgradeGroup := trimSpace last.upgradeGroup
      let prevGroup := trimSpace last.prevUserGroup
      if upgradeGroup = "" ∨ prevGroup = "" then (count, .ok db)
      else match getUserGroupByIdTx db userId with
        | .error e => (count, .error e)
        | .ok currentGroup =>
          if currentGroup ≠ upgradeGroup ∨ currentGroup = prevGroup then (count, .ok db)
          else (count, .ok (db.setGroup userId prevGroup))

/-- The loop of `ExpireDueSubscriptions` over the users: the number of subscriptions
marked, the error it has stopped at, if any, and the database. -/
def expireUsers (now : Int) : List Int → Nat → Db → Nat × Option String × Db
  | [], count, db => (count, none, db)
  | userId :: users, count, db =>
    match expireUserTx db userId now with
    | (n, .error e) => (count + n, some e, db)
    | (n, .ok db') => expireUsers now users (count + n) db'

/-- An order in which a map is gone through. -/
structure MapOrder where
  arrange : List Int → List Int
  perm : ∀ l, (arrange l).Perm l

def expireDueSubscriptions (db : Db) (limit now : Int) (order : MapOrder) :
    Nat × Option String × Db :=
  expireUsers now (order.arrange (db.dueUsers limit now)) 0 db

/-! ### What they do -/

section Spec

variable {cal : Calendar} {db db' : Db} {userId now u : Int}

@[simp] theorem Db.setGroup_subs (userId : Int) (group : String) :
    (db.setGroup userId group).subs = db.subs := rfl

theorem Db.setGroup_self {old group : String} (h : db.groups userId = some old) :
    (db.setGroup userId group).groups userId = some group := by
  simp [Db.setGroup, h]

theorem Db.setGroup_ne {group : String} (h : u ≠ userId) :
    (db.setGroup userId group).groups u = db.groups u := by
  simp [Db.setGroup, h]

@[simp] theorem Db.setSub_groups (id : Int) (sub : UserSubscription) :
    (db.setSub id sub).groups = db.groups := rfl

theorem Db.subs_nextId (db : Db) : db.subs db.nextId = none := by
  rcases h : db.subs db.nextId with _ | s
  · rfl
  · have := db.lt_nextId (db.subs_ids _ s h)
    omega

/-- **What a purchase does**: the plan's upgrade group is the user's group now, and the
subscription remembers the one before, if it was another. -/
theorem create_ok {plan : SubscriptionPlan} {id : Int} {sub : UserSubscription}
    (h : createUserSubscriptionFromPlanTx cal db userId plan now = .ok (id, sub, db')) :
    0 < userId ∧ db.subs id = none ∧ sub.userId = userId ∧ sub.status = .active ∧
      sub.upgradeGroup = trimSpace plan.upgradeGroup ∧
      calcPlanEndTime cal now plan = .ok sub.endTime ∧
      db'.subs = Function.update db.subs id (some sub) ∧
      (((sub.upgradeGroup = "" ∨ (db.groups userId).getD "" = sub.upgradeGroup) ∧
          sub.prevUserGroup = "" ∧ db'.groups = db.groups) ∨
        (sub.upgradeGroup ≠ "" ∧ (db.groups userId).getD "" ≠ sub.upgradeGroup ∧
          sub.prevUserGroup = (db.groups userId).getD "" ∧
          db'.groups = (db.setGroup userId sub.upgradeGroup).groups)) := by
  unfold createUserSubscriptionFromPlanTx at h
  split at h
  · cases h
  split at h
  · cases h
  rename_i huser
  split at h
  · cases h
  split at h
  · cases h
  rename_i endUnix hend
  dsimp only at h
  split at h
  · cases h
  rename_i prevGroup db₁ hup
  cases h
  unfold upgradeUserGroup at hup
  have hgroup : getUserGroupByIdTx db userId = .ok ((db.groups userId).getD "") := if_neg huser
  rw [hgroup] at hup
  split at hup
  · rename_i hempty
    cases hup
    exact ⟨not_le.mp huser, db.subs_nextId, rfl, rfl, rfl, hend, rfl,
      Or.inl ⟨Or.inl hempty, rfl, rfl⟩⟩
  rename_i hempty
  dsimp only at hup
  split at hup
  · rename_i hsame
    cases hup
    exact ⟨not_le.mp huser, db.subs_nextId, rfl, rfl, rfl, hend, rfl,
      Or.inl ⟨Or.inr hsame, rfl, rfl⟩⟩
  · rename_i hother
    cases hup
    exact ⟨not_le.mp huser, Db.subs_nextId _, rfl, rfl, rfl, hend, rfl,
      Or.inr ⟨hempty, hother, rfl, rfl⟩⟩

/-- **What the end of a subscription does to the group**: nothing, for one of the
reasons of the source, or the remembered group is put back. -/
theorem downgrade_ok {id : Int} {sub : UserSubscription} {target : String}
    (h : downgradeUserGroupForSubscriptionTx db id sub now = .ok (target, db')) :
    (db' = db ∧ (trimSpace sub.upgradeGroup = "" ∨
        (db.groups sub.userId).getD "" ≠ trimSpace sub.upgradeGroup ∨
        (∃ r ∈ db.activeUpgrades sub.userId now, r.1 ≠ id) ∨ trimSpace sub.prevUserGroup = "" ∨
        trimSpace sub.prevUserGroup = (db.groups sub.userId).getD "")) ∨
      (trimSpace sub.upgradeGroup ≠ "" ∧ trimSpace sub.prevUserGroup ≠ "" ∧
        db' = db.setGroup sub.userId (trimSpace sub.prevUserGroup)) := by
  unfold downgradeUserGroupForSubscriptionTx at h
  dsimp only at h
  split at h
  · rename_i hup
    cases h
    exact Or.inl ⟨rfl, Or.inl hup⟩
  rename_i hup
  unfold getUserGroupByIdTx at h
  split at h
  · cases h
  rename_i currentGroup hcur
  split at hcur
  · cases hcur
  cases hcur
  split at h
  · rename_i hne
    cases h
    exact Or.inl ⟨rfl, Or.inr (Or.inl hne)⟩
  split at h
  · rename_i hany
    cases h
    obtain ⟨r, hr, hne⟩ := List.any_eq_true.mp hany
    exact Or.inl ⟨rfl, Or.inr (Or.inr (Or.inl ⟨r, hr, of_decide_eq_true hne⟩))⟩
  split at h
  · rename_i hprev
    cases h
    exact Or.inl ⟨rfl, Or.inr (Or.inr (Or.inr hprev))⟩
  · rename_i hprev
    cases h
    exact Or.inr ⟨hup, fun hcon => hprev (Or.inl hcon), rfl⟩

theorem Db.mem_activeUpgrades {i : Int} {s : UserSubscription} :
    (i, s) ∈ db.activeUpgrades userId now ↔ db.subs i = some s ∧ s.userId = userId ∧
      s.status = .active ∧ now < s.endTime ∧ s.upgradeGroup ≠ "" := by
  unfold Db.activeUpgrades
  rw [List.mem_filter, db.mem_rows_iff, decide_eq_true_iff]

instance isTransEndsAfter : IsTrans (Int × UserSubscription) Db.endsAfter where
  trans a b c hab hbc := by
    unfold Db.endsAfter at *
    omega

instance totalEndsAfter : Std.Total Db.endsAfter where
  total a b := by
    unfold Db.endsAfter
    omega

/-- The expired subscriptions the expiry task looks at. -/
theorem Db.mem_lastExpired {r : Int × UserSubscription} (h : db.lastExpired userId = some r) :
    db.subs r.1 = some r.2 ∧ r.2.userId = userId ∧ r.2.status = .expired ∧
      r.2.upgradeGroup ≠ "" := by
  have hmem := (List.mem_insertionSort _).mp
    (List.mem_of_mem_head? (Option.mem_def.mpr h))
  rw [List.mem_filter, decide_eq_true_iff] at hmem
  exact ⟨db.mem_rows hmem.1, hmem.2⟩

theorem Db.lastExpired_max {i : Int} {s : UserSubscription} (hs : db.subs i = some s)
    (huser : s.userId = userId) (hstatus : s.status = .expired) (hup : s.upgradeGroup ≠ "") :
    ∃ r, db.lastExpired userId = some r ∧ Db.endsAfter r (i, s) := by
  unfold Db.lastExpired
  have hmem : (i, s) ∈ (db.rows.filter fun r => decide (r.2.userId = userId ∧
      r.2.status = .expired ∧ r.2.upgradeGroup ≠ "")).insertionSort Db.endsAfter :=
    (List.mem_insertionSort _).mpr (List.mem_filter.mpr
      ⟨db.mem_rows_iff.mpr hs, decide_eq_true ⟨huser, hstatus, hup⟩⟩)
  have hsorted := List.pairwise_insertionSort Db.endsAfter
    (db.rows.filter fun r => decide (r.2.userId = userId ∧ r.2.status = .expired ∧
      r.2.upgradeGroup ≠ ""))
  generalize (db.rows.filter fun r => decide (r.2.userId = userId ∧ r.2.status = .expired ∧
      r.2.upgradeGroup ≠ "")).insertionSort Db.endsAfter = l at hmem hsorted
  cases l with
  | nil => cases hmem
  | cons r l =>
    refine ⟨r, rfl, ?_⟩
    rcases List.mem_cons.mp hmem with rfl | hl
    · exact Or.inr ⟨rfl, le_refl _⟩
    · exact (List.pairwise_cons.mp hsorted).1 _ hl

/-- **What the expiry task does for one user**: it marks what is due; then it leaves the
group alone, for one of the reasons of the source, or puts back the group that the last
subscription remembers. -/
theorem expireUser_cases (db : Db) (now : Int) (huser : 0 < userId) :
    ∃ db', (expireUserTx db userId now).2 = .ok db' ∧
      db'.subs = (db.expireRows userId now).subs ∧
      ((db'.groups = db.groups ∧
        ((db.expireRows userId now).activeUpgrades userId now ≠ [] ∨
          (db.expireRows userId now).lastExpired userId = none ∨
          ∃ r, (db.expireRows userId now).lastExpired userId = some r ∧
            (trimSpace r.2.upgradeGroup = "" ∨ trimSpace r.2.prevUserGroup = "" ∨
              (db.groups userId).getD "" ≠ trimSpace r.2.upgradeGroup ∨
              (db.groups userId).getD "" = trimSpace r.2.prevUserGroup))) ∨
        ∃ r, (db.expireRows userId now).lastExpired userId = some r ∧
          trimSpace r.2.prevUserGroup ≠ "" ∧
          db'.groups = (db.setGroup userId (trimSpace r.2.prevUserGroup)).groups) := by
  unfold expireUserTx
  dsimp only
  split
  · rename_i hact
    exact ⟨_, rfl, rfl, Or.inl ⟨rfl, Or.inl hact⟩⟩
  split
  · rename_i hnone
    exact ⟨_, rfl, rfl, Or.inl ⟨rfl, Or.inr (Or.inl hnone)⟩⟩
  rename_i i last hlast
  split
  · rename_i hempty
    refine ⟨_, rfl, rfl, Or.inl ⟨rfl, Or.inr (Or.inr ⟨_, hlast, ?_⟩)⟩⟩
    exact hempty.elim Or.inl fun hprev => Or.inr (Or.inl hprev)
  rename_i hempty
  have hgroup : getUserGroupByIdTx (db.expireRows userId now) userId =
      .ok ((db.groups userId).getD "") := if_neg (not_le.mpr huser)
  rw [hgroup]
  dsimp only
  split
  · rename_i hcur
    refine ⟨_, rfl, rfl, Or.inl ⟨rfl, Or.inr (Or.inr ⟨_, hlast, ?_⟩)⟩⟩
    exact Or.inr (Or.inr hcur)
  · exact ⟨_, rfl, rfl, Or.inr ⟨_, hlast, fun hcon => hempty (Or.inr hcon), rfl⟩⟩

end Spec

end NewApiPool.Subscription
