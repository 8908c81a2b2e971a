import NewApiPool.Lib.Runs
import NewApiPool.Lib.Tally

/-!
# The quota in the cache

The fields of a user that a request needs are kept in a hash of Redis with a time to live. A
miss of `GetUserCache` reads the row and writes the hash from a goroutine of its own; a change of
the quota adds its amount to the hash from a goroutine, if the key is there, and to the row; a
completed payment and a redeemed code add to the row alone; `User.Update` writes both.

What is owed is the sum of the additions to the row that are under way, less those to the hash.
The hash is right if it has the quota of the row and what is owed, and so is a copy of the row
that is still to be written (`NewApiPool.QuotaCache.Accounted`). Five statements can spoil this,
each in a state of its own (`NewApiPool.QuotaCache.Task.Harmless`); as long as none of them does,
the hash has the quota of the row whenever nothing is under way
(`NewApiPool.QuotaCache.coherent_of_harmless`).

The statements do not fail. An addition that is put off by the batch is one that is under way.
-/

namespace NewApiPool.QuotaCache

open EventSystem Tally

/-! ### The row and the hash -/

/-- The fields of `UserBase` besides the quota. -/
structure Profile where
  id : Int
  group : String
  email : String
  status : Int
  username : String
  setting : String
deriving DecidableEq, Repr

/-- `UserBase`, which is also all of a row of `users` that is read here. -/
structure UserBase extends Profile where
  quota : Int
deriving DecidableEq, Repr

/-- `Updates` with a struct: the columns that are not zero in it are written. -/
def UserBase.updates (user newUser : UserBase) : UserBase where
  id := if newUser.id = 0 then user.id else newUser.id
  group := if newUser.group = "" then user.group else newUser.group
  email := if newUser.email = "" then user.email else newUser.email
  status := if newUser.status = 0 then user.status else newUser.status
  username := if newUser.username = "" then user.username else newUser.username
  setting := if newUser.setting = "" then user.setting else newUser.setting
  quota := if newUser.quota = 0 then user.quota else newUser.quota

/-- The hash of a user: its quota, the other fields, which are missing if the hash was created
by an increment, and whether it has a time to live. -/
structure Hash where
  quota : Int
  profile : Option Profile
  expires : Bool
deriving DecidableEq, Repr

/-! ### The calls, statement by statement -/

/-- The next statement of a call or a goroutine. -/
inductive Task where
  /-- `RedisHGetObj` in `GetUserCache`. -/
  | hGetAll
  /-- `GetUserById` after a miss. -/
  | selectUser
  /-- `RedisHSetObj` of the fields of a user. -/
  | hSet (user : UserBase)
  /-- The look at the time to live in `RedisHIncrBy`. -/
  | ttl (delta : Int)
  /-- The increment in `RedisHIncrBy`. -/
  | hIncrBy (delta : Int)
  /-- The `UPDATE` of `increaseUserQuota` and `decreaseUserQuota`. -/
  | addQuota (delta : Int)
  /-- The `UPDATE` of `Redeem` and `Recharge`. -/
  | credit (delta : Int)
  /-- The `First` of `User.Update`. -/
  | first (newUser : UserBase)
  /-- The `Updates` of `User.Update`, where `user` is what `First` has read. -/
  | updates (user newUser : UserBase)
deriving DecidableEq, Repr

/-- The row, the hash if there is one, what is under way, and the hashes that `GetUserCache`
has taken for a hit. -/
structure State where
  row : UserBase
  hash : Option Hash
  tasks : List Task
  hits : List Hash
deriving DecidableEq, Repr

namespace State

variable (s : State)

def spawn (tasks : List Task) : State := { s with tasks := s.tasks ++ tasks }

/-- The key has a time to live. -/
def live : Bool := s.hash.any Hash.expires

def addToRow (delta : Int) : State :=
  { s with row := { s.row with quota := s.row.quota + delta } }

end State

/-- What a statement does. `cacheSeconds` is `RedisKeyCacheSeconds()`, without which the hash is
written with no time to live. -/
def Task.exec (cacheSeconds : Int) (s : State) : Task → State
  | hGetAll =>
    match s.hash with
    | some hash => { s with hits := hash :: s.hits }
    | none => s.spawn [selectUser]
  | selectUser => s.spawn [hSet s.row]
  | hSet user =>
    { s with hash := some ⟨user.quota, some user.toProfile, decide (0 < cacheSeconds) || s.live⟩ }
  | ttl delta => if s.live then s.spawn [hIncrBy delta] else s
  | hIncrBy delta =>
    { s with hash := some (match s.hash with
      | some hash => { hash with quota := hash.quota + delta, expires := true }
      | none => ⟨delta, none, true⟩) }
  | addQuota delta => s.addToRow delta
  | credit delta => s.addToRow delta
  | first newUser => s.spawn [updates s.row newUser]
  | updates user newUser =>
    { s with row := s.row.updates newUser }.spawn [hSet (user.updates newUser)]

/-- A call, the next statement of what is under way in some place, or the end of the hash. -/
inductive Event where
  | getUserCache
  | increaseUserQuota (quota : Int)
  | decreaseUserQuota (quota : Int)
  | redeem (quota : Int)
  | recharge (quota : Int)
  | update (newUser : UserBase)
  | run (i : Nat)
  | expire
deriving DecidableEq, Repr

def step (cacheSeconds : Int) (s : State) : Event → State
  | .getUserCache => s.spawn [.hGetAll]
  | .increaseUserQuota quota => if quota < 0 then s else s.spawn [.ttl quota, .addQuota quota]
  | .decreaseUserQuota quota =>
    if quota < 0 then s else s.spawn [.ttl (-quota), .addQuota (-quota)]
  | .redeem quota => s.spawn [.credit quota]
  | .recharge quota => s.spawn [.credit quota]
  | .update newUser => s.spawn [.first newUser]
  | .run i =>
    match s.tasks[i]? with
    | none => s
    | some t => t.exec cacheSeconds { s with tasks := s.tasks.eraseIdx i }
  | .expire => { s with hash := s.hash.filter fun hash => !hash.expires }

/-! ### What is owed -/

/-- What a statement will add to the row, less what it will add to the hash. -/
def Task.owes : Task → Int
  | ttl delta => -delta
  | hIncrBy delta => -delta
  | addQuota delta => delta
  | _ => 0

/-- The statement writes the hash. -/
def Task.isSet : Task → Bool
  | hSet _ => true
  | _ => false

namespace State

variable (s : State)

def owed : Int := tally s.tasks Task.owes

/-- No copy of the row is still to be written to the hash. -/
def NoSet : Prop := ∀ t ∈ s.tasks, t.isSet = false

instance decidableNoSet : Decidable s.NoSet :=
  inferInstanceAs (Decidable (∀ t ∈ s.tasks, t.isSet = false))

end State

/-- **What is asked for**: with nothing under way, the hash has the quota of the row; and no hit
was a hash without the other fields. -/
structure Coherent (s : State) : Prop where
  quota : s.tasks = [] → ∀ hash, s.hash = some hash → hash.quota = s.row.quota
  hits : ∀ hash ∈ s.hits, hash.profile ≠ none

/-- **The hash and the copies are right**, up to what is owed and what is `missing` between two
statements. A hash that will be written need not be. -/
structure Accounted (missing : Int) (s : State) : Prop where
  sets : ∀ user, Task.hSet user ∈ s.tasks → user.quota = s.row.quota + s.owed + missing
  hash : s.NoSet → ∀ hash, s.hash = some hash → hash.quota = s.row.quota + s.owed + missing
  profile : ∀ hash, s.hash = some hash → hash.profile ≠ none
  hits : ∀ hash ∈ s.hits, hash.profile ≠ none

theorem Accounted.coherent {s : State} (h : Accounted 0 s) : Coherent s := by
  refine ⟨fun hdone hash hhash => ?_, h.hits⟩
  have howed : s.owed = 0 := by
    rw [State.owed, hdone, tally_nil]
  have hset : s.NoSet := by
    intro t ht
    rw [hdone] at ht
    cases ht
  rw [h.hash hset hash hhash, howed, add_zero, add_zero]

/-- **When a statement does no harm**: a miss reads the row while nothing is owed; an increment
finds the key, or there is neither a hash nor a copy on its way; it does not find the key at first
and miss it then, or pass a copy on its way; a payment is credited while there is neither a hash
nor a copy; and `Updates` writes the quota that its copy has, which no other copy misses. -/
def Task.Harmless (s : State) : Task → Prop
  | selectUser => s.owed = 0
  | ttl delta => delta = 0 ∨ s.live = true ∨ (s.hash = none ∧ s.NoSet)
  | hIncrBy delta => s.hash ≠ none ∧ (delta = 0 ∨ s.NoSet)
  | credit delta => delta = 0 ∨ (s.hash = none ∧ s.NoSet)
  | updates user newUser =>
    (user.updates newUser).quota = (s.row.updates newUser).quota + s.owed ∧
      ((s.row.updates newUser).quota = s.row.quota ∨ s.NoSet)
  | _ => True

/-- The condition on an event: the statement that runs does no harm. -/
def Harmless (s : State) : Event → Prop
  | .run i => ∀ t ∈ s.tasks[i]?, t.Harmless s
  | _ => True

instance decidableTaskHarmless (s : State) : ∀ t : Task, Decidable (t.Harmless s)
  | .hGetAll => inferInstanceAs (Decidable True)
  | .selectUser => inferInstanceAs (Decidable (_ = _))
  | .hSet _ => inferInstanceAs (Decidable True)
  | .ttl _ => inferInstanceAs (Decidable (_ ∨ _ ∨ _ ∧ _))
  | .hIncrBy _ => inferInstanceAs (Decidable (_ ∧ (_ ∨ _)))
  | .addQuota _ => inferInstanceAs (Decidable True)
  | .credit _ => inferInstanceAs (Decidable (_ ∨ _ ∧ _))
  | .first _ => inferInstanceAs (Decidable True)
  | .updates _ _ => inferInstanceAs (Decidable (_ ∧ (_ ∨ _)))

instance decidableHarmless (s : State) : ∀ e : Event, Decidable (Harmless s e)
  | .run i => inferInstanceAs (Decidable (∀ t ∈ s.tasks[i]?, t.Harmless s))
  | .getUserCache | .increaseUserQuota _ | .decreaseUserQuota _ | .redeem _ | .recharge _
  | .update _ | .expire => inferInstanceAs (Decidable True)

/-! ### What a step does to the accounts -/

section Steps

variable {s : State} {missing delta : Int} {i : Nat} {t : Task} {ts : List Task}

@[simp] theorem State.owed_spawn (s : State) (ts : List Task) :
    (s.spawn ts).owed = s.owed + tally ts Task.owes :=
  tally_append _ _ _

theorem State.noSet_of_spawn (h : (s.spawn ts).NoSet) : s.NoSet :=
  fun t ht => h t (List.mem_append_left _ ht)

/-- A state without the statement that runs. -/
def State.without (s : State) (i : Nat) : State := { s with tasks := s.tasks.eraseIdx i }

theorem State.owed_without (ht : s.tasks[i]? = some t) : (s.without i).owed = s.owed - t.owes :=
  tally_eraseIdx ht _

theorem State.noSet_of_without (ht : s.tasks[i]? = some t) (hset : t.isSet = false)
    (h : (s.without i).NoSet) : s.NoSet := by
  intro t' ht'
  by_cases heq : t' = t
  · rw [heq]
    exact hset
  · refine h t' ?_
    obtain ⟨j, hj⟩ := List.mem_iff_getElem?.mp ht'
    refine List.mem_eraseIdx_iff_getElem?.mpr ⟨j, fun hji => heq ?_, hj⟩
    rw [hji, ht] at hj
    exact (Option.some.inj hj).symm

theorem State.noSet_without (h : s.NoSet) : (s.without i).NoSet :=
  fun t ht => h t (List.mem_of_mem_eraseIdx ht)

/-- The statement that runs is missing from what is owed. -/
theorem Accounted.without (h : Accounted 0 s) (ht : s.tasks[i]? = some t)
    (hset : t.isSet = false) : Accounted t.owes (s.without i) := by
  have howed := State.owed_without ht
  refine ⟨fun user huser => ?_, fun hno hash hhash => ?_, h.profile, h.hits⟩
  · have := h.sets user (List.mem_of_mem_eraseIdx huser)
    rw [howed]
    show user.quota = s.row.quota + _ + _
    omega
  · have := h.hash (State.noSet_of_without ht hset hno) hash hhash
    rw [howed]
    show hash.quota = s.row.quota + _ + _
    omega

theorem Accounted.spawn (h : Accounted missing s) (hset : ∀ t ∈ ts, t.isSet = false)
    (howes : tally ts Task.owes = missing) : Accounted 0 (s.spawn ts) := by
  refine ⟨fun user huser => ?_, fun hno hash hhash => ?_, h.profile, h.hits⟩
  · rcases List.mem_append.mp huser with huser | huser
    · rw [State.owed_spawn, howes, add_zero, ← add_assoc]
      exact h.sets user huser
    · exact absurd (hset _ huser) Bool.noConfusion
  · rw [State.owed_spawn, howes, add_zero, ← add_assoc]
    exact h.hash (State.noSet_of_spawn hno) hash hhash

theorem Accounted.addToRow (h : Accounted delta s) : Accounted 0 (s.addToRow delta) := by
  refine ⟨fun user huser => ?_, fun hno hash hhash => ?_, h.profile, h.hits⟩
  · have hright := h.sets user huser
    show user.quota = s.row.quota + delta + s.owed + 0
    omega
  · have hright := h.hash hno hash hhash
    show hash.quota = s.row.quota + delta + s.owed + 0
    omega

/-- A copy that is right is on its way, and the hash will be written. -/
theorem Accounted.spawn_hSet {user : UserBase} (hcopy : user.quota = s.row.quota + s.owed)
    (hsets : ∀ user, Task.hSet user ∈ s.tasks → user.quota = s.row.quota + s.owed)
    (hprofile : ∀ hash, s.hash = some hash → hash.profile ≠ none)
    (hhits : ∀ hash ∈ s.hits, hash.profile ≠ none) : Accounted 0 (s.spawn [.hSet user]) := by
  have howed : (s.spawn [.hSet user]).owed = s.owed := by
    rw [State.owed_spawn]
    exact add_zero _
  refine ⟨fun user' huser' => ?_, fun hno => ?_, hprofile, hhits⟩
  · rw [howed, add_zero]
    rcases List.mem_append.mp huser' with huser' | huser'
    · exact hsets user' huser'
    · obtain rfl : user' = user := by simpa using huser'
      exact hcopy
  · exact absurd (hno (.hSet user) (List.mem_append_right _ List.mem_cons_self)) Bool.noConfusion

/-- With neither a hash nor a copy nothing can be wrong. -/
theorem Accounted.of_absent (h : Accounted missing s) (hhash : s.hash = none) (hno : s.NoSet)
    (missing' : Int) : Accounted missing' s := by
  refine ⟨fun user huser => ?_, fun _ hash hsome => ?_, h.profile, h.hits⟩
  · exact absurd (hno _ huser) Bool.noConfusion
  · rw [hhash] at hsome
    cases hsome

/-- **A statement that does no harm keeps the accounts.** -/
theorem Accounted.exec {cacheSeconds : Int} (h : Accounted 0 s) (ht : s.tasks[i]? = some t)
    (hsafe : t.Harmless s) : Accounted 0 (t.exec cacheSeconds (s.without i)) := by
  cases t with
  | hGetAll =>
    have hrest : Accounted 0 (s.without i) := h.without ht rfl
    rw [Task.exec]
    split
    · rename_i hash hhash
      refine ⟨hrest.sets, hrest.hash, hrest.profile, fun hit hmem => ?_⟩
      rcases List.mem_cons.mp hmem with rfl | hmem
      · exact hrest.profile hit hhash
      · exact hrest.hits hit hmem
    · exact hrest.spawn (by simp [Task.isSet]) rfl
  | selectUser =>
    have hrest : Accounted 0 (s.without i) := h.without ht rfl
    have howed : (s.without i).owed = 0 := by
      rw [State.owed_without ht, hsafe]
      rfl
    refine Accounted.spawn_hSet ?_ (fun user huser => ?_) hrest.profile hrest.hits
    · rw [howed, add_zero]
    · rw [← add_zero (_ + _)]
      exact hrest.sets user huser
  | hSet user =>
    have huser := h.sets user (List.mem_of_getElem? ht)
    have howed : (s.without i).owed = s.owed := by
      rw [State.owed_without ht]
      exact sub_zero _
    refine ⟨fun user' huser' => ?_, fun _ hash hhash => ?_, fun hash hhash => ?_, h.hits⟩
    · have hright := h.sets user' (List.mem_of_mem_eraseIdx huser')
      show user'.quota = s.row.quota + (s.without i).owed + 0
      rw [howed]
      exact hright
    · cases hhash
      show user.quota = s.row.quota + (s.without i).owed + 0
      rw [howed]
      exact huser
    · cases hhash
      exact Option.some_ne_none _
  | ttl delta =>
    have hrest : Accounted (-delta) (s.without i) := h.without ht rfl
    rw [Task.exec]
    split
    · exact hrest.spawn (by simp [Task.isSet]) (by simp [Task.owes])
    · rename_i hdead
      rcases hsafe with rfl | hlive | ⟨hhash, hno⟩
      · exact hrest
      · exact absurd hlive hdead
      · exact hrest.of_absent hhash (State.noSet_without hno) 0
  | hIncrBy delta =>
    have hrest : Accounted (-delta) (s.without i) := h.without ht rfl
    obtain ⟨hhash, hpass⟩ := hsafe
    obtain ⟨hash, hhash⟩ := Option.ne_none_iff_exists'.mp hhash
    have hsome : (s.without i).hash = some hash := hhash
    rw [Task.exec]
    rw [hsome]
    refine ⟨fun user huser => ?_, fun hno hash' hhash' => ?_, fun hash' hhash' => ?_, hrest.hits⟩
    · rcases hpass with rfl | hno
      · exact hrest.sets user huser
      · exact absurd (State.noSet_without hno _ huser) Bool.noConfusion
    · cases hhash'
      have hright := hrest.hash hno hash hsome
      show hash.quota + delta = s.row.quota + (s.without i).owed + 0
      have hrow : (s.without i).row.quota = s.row.quota := rfl
      omega
    · cases hhash'
      exact hrest.profile hash hsome
  | addQuota delta => exact (h.without ht rfl).addToRow
  | credit delta =>
    have hrest : Accounted 0 (s.without i) := h.without ht rfl
    refine Accounted.addToRow ?_
    rcases hsafe with rfl | ⟨hhash, hno⟩
    · exact hrest
    · exact hrest.of_absent hhash (State.noSet_without hno) delta
  | first newUser => exact (h.without ht rfl).spawn (by simp [Task.isSet]) rfl
  | updates user newUser =>
    have hrest : Accounted 0 (s.without i) := h.without ht rfl
    obtain ⟨hcopy, hothers⟩ := hsafe
    have howed : (s.without i).owed = s.owed := by
      rw [State.owed_without ht]
      exact sub_zero _
    refine Accounted.spawn_hSet ?_ (fun user' huser' => ?_) hrest.profile hrest.hits
    · show _ = (s.row.updates newUser).quota + (s.without i).owed
      rw [howed]
      exact hcopy
    · show _ = (s.row.updates newUser).quota + (s.without i).owed
      rcases hothers with hsame | hno
      · rw [hsame, ← add_zero (_ + _)]
        exact hrest.sets user' huser'
      · exact absurd (State.noSet_without hno _ huser') Bool.noConfusion

/-- **A step that does no harm keeps the accounts**: a call only adds what it will do to both. -/
theorem Accounted.step {cacheSeconds : Int} (h : Accounted 0 s) {e : Event}
    (hsafe : Harmless s e) : Accounted 0 (step cacheSeconds s e) := by
  cases e with
  | getUserCache => exact h.spawn (by simp [Task.isSet]) rfl
  | increaseUserQuota quota =>
    rw [QuotaCache.step]
    split
    · exact h
    · exact h.spawn (by simp [Task.isSet]) (by simp [Task.owes])
  | decreaseUserQuota quota =>
    rw [QuotaCache.step]
    split
    · exact h
    · exact h.spawn (by simp [Task.isSet]) (by simp [Task.owes])
  | redeem quota => exact h.spawn (by simp [Task.isSet]) rfl
  | recharge quota => exact h.spawn (by simp [Task.isSet]) rfl
  | update newUser => exact h.spawn (by simp [Task.isSet]) rfl
  | run i =>
    rw [QuotaCache.step]
    split
    · exact h
    · rename_i t ht
      exact h.exec ht (hsafe t ht)
  | expire =>
    refine ⟨h.sets, fun hno hash hhash => ?_, fun hash hhash => ?_, h.hits⟩
    · exact h.hash hno hash (Option.filter_eq_some_iff.mp hhash).1
    · exact h.profile hash (Option.filter_eq_some_iff.mp hhash).1

end Steps

/-! ### Every interleaving -/

/-- Nothing is under way, and the hash, if there is one, is that of the row. -/
structure Settled (s : State) : Prop where
  tasks : s.tasks = []
  hits : s.hits = []
  hash : ∀ hash, s.hash = some hash → hash.quota = s.row.quota ∧ hash.profile ≠ none

theorem Settled.accounted {s : State} (h : Settled s) : Accounted 0 s := by
  refine ⟨fun user huser => ?_, fun _ hash hhash => ?_, fun hash hhash => (h.hash hash hhash).2,
    fun hash hhash => ?_⟩
  · rw [h.tasks] at huser
    cases huser
  · rw [State.owed, h.tasks, tally_nil, add_zero, add_zero]
    exact (h.hash hash hhash).1
  · rw [h.hits] at hhash
    cases hhash

/-- **The cache is coherent in every state** of an interleaving in which no statement does
harm. -/
theorem coherent_of_harmless (cacheSeconds : Int) {s : State} (hs : Settled s) {es : List Event}
    (h : Along (step cacheSeconds) Harmless s es) (n : Nat) :
    Coherent (run (step cacheSeconds) s (es.take n)) :=
  (inv_run (fun _ _ hs he => hs.step he) hs.accounted (along_take h n)).coherent

section Sample

def alice : UserBase where
  id := 1
  group := "default"
  email := "alice@example.com"
  status := 1
  username := "alice"
  setting := "{}"
  quota := 100

def uncached : State := ⟨alice, none, [], []⟩

/-- The row and its hash. -/
def cached : State := ⟨alice, some ⟨100, some alice.toProfile, true⟩, [], []⟩

/-- A miss fills the hash, and then the quota is raised. -/
def fillThenIncrease : List Event :=
  [.getUserCache, .run 0, .run 0, .run 0, .increaseUserQuota 50, .run 0, .run 0, .run 0]

theorem coherent_fillThenIncrease :
    (run (step 60) uncached fillThenIncrease).hash = some ⟨150, some alice.toProfile, true⟩ ∧
      Coherent (run (step 60) uncached fillThenIncrease) := by
  have hsettled : Settled uncached := ⟨rfl, rfl, fun hash hhash => by cases hhash⟩
  have hsafe : Along (step 60) Harmless uncached fillThenIncrease := by decide
  exact ⟨by decide, coherent_of_harmless 60 hsettled hsafe 8⟩

/-- **A code is redeemed** and the hash stays as it was; **a quota is raised** between the two
halves of a miss; and **the hash ends** between the two halves of an increment, so that the next
request takes a hash with a quota alone for a hit. -/
theorem not_coherent :
    ¬Coherent (run (step 60) cached [.redeem 50, .run 0]) ∧
      ¬Coherent (run (step 60) uncached [.getUserCache, .run 0, .run 0, .increaseUserQuota 50,
        .run 1, .run 1, .run 0]) ∧
      ¬Coherent (run (step 60) cached [.increaseUserQuota 50, .run 0, .expire, .run 1,
        .getUserCache, .run 1]) := by
  refine ⟨fun h => ?_, fun h => ?_, fun h => ?_⟩
  · exact absurd (h.quota (by decide) ⟨100, some alice.toProfile, true⟩ (by decide)) (by decide)
  · exact absurd (h.quota (by decide) ⟨100, some alice.toProfile, true⟩ (by decide)) (by decide)
  · exact absurd rfl (h.hits ⟨50, none, true⟩ (by decide))

end Sample

end NewApiPool.QuotaCache
