import Mathlib.Algebra.Ring.Nat
import Mathlib.Data.List.Infix

/-!
# Retries across the automatic groups

For a token of the group `auto`, `CacheGetRandomSatisfiedChannel` looks for a channel in one
group after the other. Where it is, is kept in the context of the request; the retry is kept
in the `RetryParam` of the loop in `Relay`, which the selection sets back to `0`, also for
the next increase (`ResetRetryNextTry`), when it leaves a group.

So the counter of the loop is no measure of the loop. `autoGroups_in_order` says what it
does: it ends, with at most `RetryTimes + 1` attempts in each group, the groups in their
order, the priorities of a group from `0` on, and no group before those ahead of it are
exhausted; and it does not end before all of them are, unless an attempt settles the request.
`Position` is what holds whenever the loop begins again.

The first attempt is on the channel that `Distribute` has put into the context. Mostly it was
selected like the others, but it can be one that was given: the channel of the token, or the one
that the affinity prefers, in whatever group that is. The selection then begins after it, in the
first group, where the channel that was given has taken the place of the retry `0`
(`preferred_not_in_order`).
-/

namespace NewApiPool.Routing

/-! ### The retry parameter -/

/-- `RetryParam`: what changes in it. -/
structure RetryParam where
  retry : ℕ := 0
  resetNextTry : Bool := false
  deriving DecidableEq

def RetryParam.increaseRetry (p : RetryParam) : RetryParam :=
  if p.resetNextTry then { p with resetNextTry := false } else { p with retry := p.retry + 1 }

/-- The keys of the context that the selection sets. -/
structure ContextKeys where
  autoGroupIndex : Option ℕ := none
  autoGroupRetryIndex : Option ℕ := none
  autoGroup : Option String := none
  deriving DecidableEq

/-- A channel that was selected, for the `index`-th group and a priority retry. -/
structure Visit (χ : Type*) where
  index : ℕ
  group : String
  priorityRetry : ℕ
  channel : χ
  deriving DecidableEq

/-- An attempt on a channel, one that was given or one that was selected. A channel that is given
is the one of the token, for no group, or the one the affinity prefers for a group. -/
inductive Attempt (χ : Type*) where
  | given (group : Option String) (channel : χ)
  | selected (visit : Visit χ)
  deriving DecidableEq

/-- The group an attempt is made for. -/
def Attempt.group? {χ : Type*} : Attempt χ → Option String
  | given group _ => group
  | selected visit => some visit.group

/-- The error of an attempt, as `shouldRetry` sees it. -/
structure ApiError where
  isChannelError : Bool := false
  isSkipRetry : Bool := false
  statusCode : ℤ
  /-- `IsAlwaysSkipRetryCode` of its code -/
  alwaysSkipRetryCode : Bool := false
  deriving DecidableEq

/-- How an attempt goes: whether the context cannot be set up for the channel, whether the
body cannot be read, and the error of the handler. -/
structure AttemptResult where
  setupError : Bool := false
  bodyError : Bool := false
  newAPIError : Option ApiError := none
  deriving DecidableEq

/-- What the loop runs in: the groups of `auto` in their order, the channels that satisfy each retry
in each group, the outcome of each attempt, and the settings. -/
structure RelayEnv (χ : Type*) where
  retryTimes : ℕ
  tokenGroup : String
  crossGroupRetry : Bool
  /-- `setting.GetAutoGroups` -/
  settingGroups : List String
  /-- the groups of `GetUserUsableGroups` -/
  usable : String → Bool
  /-- `GetRandomSatisfiedChannel` for the model -/
  satisfied : String → ℕ → Except String (Option χ)
  /-- the channel that the token names -/
  specific : Option χ := none
  /-- the channel of `GetPreferredChannelByAffinity`, if there is one and it is enabled -/
  preferred : Option χ := none
  /-- `IsChannelEnabledForGroupModel` for the model -/
  enabledForGroupModel : String → χ → Bool := fun _ _ => false
  skipAfterAffinityFailure : Bool := false
  shouldRetryByStatusCode : ℤ → Bool
  attempt : ℕ → AttemptResult

variable {χ : Type*}

namespace RelayEnv

variable (env : RelayEnv χ)

/-- `GetUserAutoGroup`. -/
def autoGroups : List String := env.settingGroups.filter env.usable

/-- A channel that satisfies the request, if any; the error is dropped. -/
def channelIn (group : String) (retry : ℕ) : Option χ :=
  match env.satisfied group retry with
  | .ok channel => channel
  | .error _ => none

/-- The loop over the groups, from the `i`-th on. -/
def search (startGroupIndex : ℕ) :
    ℕ → List String → RetryParam × ContextKeys → Option (Visit χ) × (RetryParam × ContextKeys)
  | _, [], s => (none, s)
  | i, autoGroup :: groups, (param, keys) =>
    let priorityRetry := if startGroupIndex < i then 0 else param.retry
    match env.channelIn autoGroup priorityRetry with
    | none =>
      search startGroupIndex (i + 1) groups
        ({ param with retry := 0 },
          { keys with autoGroupIndex := some (i + 1), autoGroupRetryIndex := some 0 })
    | some channel =>
      let keys := { keys with autoGroup := some autoGroup }
      (some ⟨i, autoGroup, priorityRetry, channel⟩,
        if env.crossGroupRetry ∧ env.retryTimes ≤ priorityRetry then
          -- the next retry uses the next group
          (⟨0, true⟩, { keys with autoGroupIndex := some (i + 1) })
        else (param, { keys with autoGroupIndex := some i }))

/-- **`CacheGetRandomSatisfiedChannel`**. -/
def cacheGetRandomSatisfiedChannel (s : RetryParam × ContextKeys) :
    Except String (Option (Visit χ)) × (RetryParam × ContextKeys) :=
  if env.tokenGroup = "auto" then
    if env.settingGroups = [] then (.error "auto groups is not enabled", s)
    else
      let startGroupIndex := s.2.autoGroupIndex.getD 0
      let (visit, s) :=
        env.search startGroupIndex startGroupIndex (env.autoGroups.drop startGroupIndex) s
      (.ok visit, s)
  else
    ((env.satisfied env.tokenGroup s.1.retry).map fun channel =>
      channel.map fun channel => ⟨0, env.tokenGroup, s.1.retry, channel⟩, s)

def shouldRetry (openaiErr : ApiError) (retryTimes : ℤ) : Bool :=
  if env.skipAfterAffinityFailure then false
  else if openaiErr.isChannelError then true
  else if openaiErr.isSkipRetry then false
  else if retryTimes ≤ 0 then false
  else if env.specific.isSome then false
  else if 200 ≤ openaiErr.statusCode ∧ openaiErr.statusCode < 300 then false
  else if openaiErr.statusCode < 100 ∨ 599 < openaiErr.statusCode then true
  else if openaiErr.alwaysSkipRetryCode then false
  else env.shouldRetryByStatusCode openaiErr.statusCode

/-! ### The distributor -/

/-- The group that the preferred channel is used for. -/
def preferredGroup (channel : χ) : Option String :=
  if env.tokenGroup = "auto" then
    env.autoGroups.find? fun group => env.enabledForGroupModel group channel
  else if env.enabledForGroupModel env.tokenGroup channel then some env.tokenGroup
  else none

/-- The channel that is given, if there is one. -/
def given : Option (Attempt χ) :=
  match env.specific with
  | some channel => some (.given none channel)
  | none => env.preferred.bind fun channel =>
      (env.preferredGroup channel).map fun group => .given (some group) channel

/-- `Distribute`: the first channel, and the keys of the context. A channel is selected with a
retry parameter of its own. -/
def distribute : Option (Attempt χ) × ContextKeys :=
  match env.given with
  | some attempt => (some attempt, { autoGroup := attempt.group? })
  | none =>
    match env.cacheGetRandomSatisfiedChannel ({}, {}) with
    | (.ok visit, _, keys) => (visit.map .selected, keys)
    | (.error _, _, keys) => (none, keys)

end RelayEnv

/-! ### The loop -/

/-- The state of the loop. While there is no channel meta, the channel is the one that the
distributor has chosen. -/
structure RelayState (χ : Type*) where
  param : RetryParam := {}
  keys : ContextKeys := {}
  preselected : Option (Attempt χ) := none
  tried : List (Attempt χ) := []

namespace RelayEnv

variable (env : RelayEnv χ)

/-- `getChannel`: none if there is no channel, or the context cannot be set up for it. -/
def getChannel (s : RelayState χ) : Option (Attempt χ) × RelayState χ :=
  match s.preselected with
  | some attempt => (some attempt, s)
  | none =>
    match env.cacheGetRandomSatisfiedChannel (s.param, s.keys) with
    | (.ok (some visit), param, keys) =>
      (if (env.attempt s.tried.length).setupError then none else some (.selected visit),
        { s with param, keys })
    | (_, param, keys) => (none, { s with param, keys })

/-- The iteration from the channel on, and whether the loop goes on. -/
def attemptWith (s : RelayState χ) (attempt : Attempt χ) : RelayState χ × Bool :=
  let result := env.attempt s.tried.length
  if result.bodyError then (s, false)
  else
    -- the handler begins with `InitChannelMeta`
    let s := { s with preselected := none, tried := s.tried ++ [attempt] }
    match result.newAPIError with
    | none => (s, false)
    | some newAPIError =>
      if env.shouldRetry newAPIError (env.retryTimes - s.param.retry) then
        ({ s with param := s.param.increaseRetry }, true)
      else (s, false)

/-- **One iteration of the loop in `Relay`**, and whether it goes on. -/
def iteration (s : RelayState χ) : RelayState χ × Bool :=
  if env.retryTimes < s.param.retry then (s, false)
  else
    match env.getChannel s with
    | (none, s) => (s, false)
    | (some attempt, s) => env.attemptWith s attempt

/-- The loop, for at most so many iterations. -/
def loop : ℕ → RelayState χ → Option (List (Attempt χ))
  | 0, _ => none
  | n + 1, s =>
    match env.iteration s with
    | (s, false) => some s.tried
    | (s, true) => loop n s

/-- **A request**: the upstream attempts. -/
def relay (n : ℕ) : Option (List (Attempt χ)) :=
  match env.distribute with
  | (some attempt, keys) => env.loop n { keys, preselected := some attempt }
  | (none, _) => some []

end RelayEnv

/-! ### In order -/

/-- The priority retries that were used for a group. -/
def retriesIn (tried : List (Visit χ)) (i : ℕ) : List ℕ :=
  (tried.filter fun v => v.index = i).map Visit.priorityRetry

namespace RelayEnv

variable (env : RelayEnv χ)

/-- The first priority retry that is used in a group: a channel that was given takes the place of
the retry `0` of the first group. -/
def firstRetry (i : ℕ) : ℕ := if env.given.isSome ∧ i = 0 then 1 else 0

/-- A group has nothing more to try: all its retries were used, or there is no channel for
the next one. -/
def Exhausted (visits : List (Visit χ)) (i : ℕ) : Prop :=
  env.firstRetry i + (retriesIn visits i).length = env.retryTimes + 1 ∨
    ∃ group, env.autoGroups[i]? = some group ∧
      env.channelIn group (env.firstRetry i + (retriesIn visits i).length) = none

/-- **Attempts in order**: the channel that was given, and then those that were selected. -/
structure InOrder (visits : List (Visit χ)) : Prop where
  count : env.given.toList.length + visits.length ≤
    max env.given.toList.length (env.autoGroups.length * (env.retryTimes + 1))
  order : visits.Pairwise fun v w => v.index ≤ w.index
  retries : ∀ i, retriesIn visits i =
    List.range' (env.firstRetry i) (retriesIn visits i).length
  satisfied : ∀ v ∈ visits, env.autoGroups[v.index]? = some v.group ∧
    env.satisfied v.group v.priorityRetry = .ok (some v.channel)
  exhausted : ∀ pre v, pre ++ [v] <+: visits → ∀ i < v.index, env.Exhausted pre i

/-- **The request is settled after so many attempts**: the body cannot be read for the next one or
the context cannot be set up for its channel, the last one has succeeded, its error is not
retried, or there are no retries. -/
def Settled (n : ℕ) : Prop :=
  (env.attempt n).bodyError = true ∨ (0 < n ∧ (env.attempt n).setupError = true) ∨
    (∃ m, n = m + 1 ∧ ((env.attempt m).newAPIError = none ∨
      ∃ err ∈ (env.attempt m).newAPIError, env.shouldRetry err env.retryTimes = false)) ∨
    (env.retryTimes = 0 ∧ n = 1)

/-- **The outcome of a request**: its attempts are in order, and there are no more of them only
because all groups are exhausted or the request is settled. -/
structure Outcome (tried : List (Attempt χ)) (visits : List (Visit χ)) : Prop where
  attempts : (tried = [] ∧ visits = []) ∨ tried = env.given.toList ++ visits.map .selected
  inOrder : env.InOrder visits
  ended : (∀ i < env.autoGroups.length, env.Exhausted visits i) ∨ env.Settled tried.length

/-- **Where the loop is**: in group `i`, of which the retries below `r` were used. -/
structure Position (visits : List (Visit χ)) (i r : ℕ) : Prop where
  first_le : env.firstRetry i ≤ r
  le : r ≤ env.retryTimes + 1
  length : env.given.toList.length + visits.length ≤ i * (env.retryTimes + 1) + r
  index_le : ∀ v ∈ visits, v.index ≤ i
  here : retriesIn visits i = List.range' (env.firstRetry i) (r - env.firstRetry i)
  before : ∀ j < i, env.Exhausted visits j

variable {env}

theorem retriesIn_append (tried : List (Visit χ)) (v : Visit χ) (i : ℕ) :
    retriesIn (tried ++ [v]) i =
      retriesIn tried i ++ if v.index = i then [v.priorityRetry] else [] := by
  rw [retriesIn, List.filter_append, List.map_append, List.filter_singleton]
  by_cases h : v.index = i
  · rw [if_pos h, decide_eq_true h]
    rfl
  · rw [if_neg h, decide_eq_false h]
    rfl

theorem retriesIn_eq_nil {tried : List (Visit χ)} {i : ℕ} (h : ∀ v ∈ tried, v.index ≠ i) :
    retriesIn tried i = [] := by
  rw [retriesIn, List.map_eq_nil_iff, List.filter_eq_nil_iff]
  simpa using h

variable {visits : List (Visit χ)}

theorem Exhausted.append {v : Visit χ} {i : ℕ}
    (h : env.Exhausted visits i) (hv : v.index ≠ i) : env.Exhausted (visits ++ [v]) i := by
  rw [Exhausted, retriesIn_append, if_neg hv, List.append_nil]
  exact h

theorem firstRetry_succ (i : ℕ) : env.firstRetry (i + 1) = 0 :=
  if_neg fun h => Nat.succ_ne_zero i h.2

/-- Without a channel that was given the loop begins with the first group. -/
theorem position_zero (hgiven : env.given = none) : env.Position [] 0 0 where
  first_le := by rw [firstRetry, hgiven]; rfl
  le := Nat.zero_le _
  length := by rw [hgiven]; exact Nat.zero_le _
  index_le := nofun
  here := by rw [firstRetry, hgiven]; rfl
  before := nofun

/-- A channel that was given is one attempt in the first group. -/
theorem position_one (hgiven : env.given.isSome = true) : env.Position [] 0 1 where
  first_le := by rw [firstRetry, if_pos ⟨hgiven, rfl⟩]
  le := Nat.succ_le_succ (Nat.zero_le _)
  length := by
    obtain ⟨attempt, hattempt⟩ := Option.isSome_iff_exists.mp hgiven
    rw [hattempt]
    exact le_of_eq (by rw [Nat.zero_mul, Nat.zero_add]; rfl)
  index_le := nofun
  here := by rw [firstRetry, if_pos ⟨hgiven, rfl⟩]; rfl
  before := nofun

namespace Position

variable {visits : List (Visit χ)} {i r : ℕ}

/-- So many retries of the group were used, with the one that was given. -/
theorem firstRetry_add_length (h : env.Position visits i r) :
    env.firstRetry i + (retriesIn visits i).length = r := by
  rw [h.here, List.length_range']
  exact Nat.add_sub_cancel' h.first_le

theorem leave (h : env.Position visits i r) (hdone : env.Exhausted visits i) :
    env.Position visits (i + 1) 0 where
  first_le := by rw [firstRetry_succ]
  le := Nat.zero_le _
  length := by
    have hle := h.le
    have hlength := h.length
    rw [Nat.succ_mul]
    omega
  index_le := fun v hv => (h.index_le v hv).trans (Nat.le_succ i)
  here := by
    rw [firstRetry_succ, retriesIn_eq_nil fun v hv =>
      (Nat.lt_succ_of_le (h.index_le v hv)).ne]
    rfl
  before := fun j hj => by
    rcases Nat.lt_succ_iff_lt_or_eq.mp hj with hj | rfl
    · exact h.before j hj
    · exact hdone

/-- A group without a channel for the next retry is left. -/
theorem leave_of_none (h : env.Position visits i r) {group : String}
    (hgroup : env.autoGroups[i]? = some group) (hnone : env.channelIn group r = none) :
    env.Position visits (i + 1) 0 := by
  refine h.leave (Or.inr ⟨group, hgroup, ?_⟩)
  rwa [h.firstRetry_add_length]

theorem visit (h : env.Position visits i r) (hr : r ≤ env.retryTimes) (group : String)
    (channel : χ) : env.Position (visits ++ [⟨i, group, r, channel⟩]) i (r + 1) where
  first_le := h.first_le.trans (Nat.le_succ r)
  le := Nat.succ_le_succ hr
  length := by
    have hlength := h.length
    rw [List.length_append, List.length_singleton]
    omega
  index_le := fun v hv => by
    rcases List.mem_append.mp hv with hv | hv
    · exact h.index_le v hv
    · rw [List.mem_singleton.mp hv]
  here := by
    rw [retriesIn_append, if_pos rfl, h.here, Nat.succ_sub h.first_le, List.range'_1_concat,
      Nat.add_sub_cancel' h.first_le]
  before := fun j hj => (h.before j hj).append (Nat.ne_of_gt hj)

theorem visit_last (h : env.Position visits i env.retryTimes) (group : String) (channel : χ) :
    env.Position (visits ++ [⟨i, group, env.retryTimes, channel⟩]) (i + 1) 0 := by
  have hvisit := h.visit le_rfl group channel
  exact hvisit.leave (Or.inl hvisit.firstRetry_add_length)

/-- **An attempt where the loop is keeps the attempts in order.** -/
theorem inOrder (h : env.Position visits i r) (hr : r ≤ env.retryTimes)
    (hinOrder : env.InOrder visits) {group : String} (hgroup : env.autoGroups[i]? = some group)
    {channel : χ} (hchannel : env.channelIn group r = some channel) :
    env.InOrder (visits ++ [⟨i, group, r, channel⟩]) where
  count := by
    have hlt : i < env.autoGroups.length := (List.getElem?_eq_some_iff.mp hgroup).1
    have hlength := h.length
    have hmul : (i + 1) * (env.retryTimes + 1) ≤ env.autoGroups.length * (env.retryTimes + 1) :=
      Nat.mul_le_mul_right _ hlt
    rw [Nat.succ_mul] at hmul
    rw [List.length_append, List.length_singleton]
    omega
  order := by
    rw [List.pairwise_append]
    refine ⟨hinOrder.order, List.pairwise_singleton _ _, fun v hv w hw => ?_⟩
    rw [List.mem_singleton.mp hw]
    exact h.index_le v hv
  -- the new visit has the retry that is next in its own group
  retries := fun j => by
    rw [retriesIn_append]
    by_cases hj : i = j
    · subst hj
      have hlength := h.firstRetry_add_length
      rw [if_pos rfl, List.length_append, List.length_singleton, List.range'_1_concat, hlength,
        ← hinOrder.retries]
    · rw [if_neg hj, List.append_nil]
      exact hinOrder.retries j
  satisfied := fun v hv => by
    rcases List.mem_append.mp hv with hv | hv
    · exact hinOrder.satisfied v hv
    · rw [List.mem_singleton.mp hv]
      refine ⟨hgroup, ?_⟩
      rw [channelIn] at hchannel
      split at hchannel
      · next heq => rw [heq, hchannel]
      · cases hchannel
  exhausted := fun pre v hpre => by
    rcases List.prefix_concat_iff.mp hpre with heq | hpre
    · obtain ⟨rfl, hv⟩ := List.append_inj' heq rfl
      rw [List.singleton_inj.mp hv]
      exact h.before
    · exact hinOrder.exhausted pre v hpre

end Position

theorem inOrder_nil : env.InOrder [] where
  count := le_max_left _ _
  order := .nil
  retries := fun _ => rfl
  satisfied := nofun
  exhausted := fun pre v h => absurd (List.prefix_nil.mp h) (by simp)

/-! ### The selection -/

/-- **What the selection finds** for where the loop is, and what it sets for the next
attempt. -/
structure Found (env : RelayEnv χ) (visits : List (Visit χ)) (v : Visit χ) (param : RetryParam)
    (keys : ContextKeys) : Prop where
  position : env.Position visits v.index v.priorityRetry
  le : v.priorityRetry ≤ env.retryTimes
  group : env.autoGroups[v.index]? = some v.group
  channel : env.channelIn v.group v.priorityRetry = some v.channel
  next : (param = ⟨v.priorityRetry, false⟩ ∧ v.priorityRetry < env.retryTimes ∧
      keys.autoGroupIndex = some v.index) ∨
    (param = ⟨0, true⟩ ∧ v.priorityRetry = env.retryTimes ∧
      keys.autoGroupIndex = some (v.index + 1))

section Selection

variable {visits : List (Visit χ)}

section Cross

variable (hcross : env.crossGroupRetry = true)
include hcross

theorem found_search {start i r : ℕ} {groups : List String} {param : RetryParam}
    {keys keys' : ContextKeys} {v : Visit χ} (hgroups : groups = env.autoGroups.drop i)
    (hpos : env.Position visits i r) (hr : r ≤ env.retryTimes) (hi : start ≤ i)
    (hstart : start < i → r = 0)
    (h : env.search start i groups (⟨r, false⟩, keys) = (some v, param, keys')) :
    env.Found visits v param keys' := by
  induction groups generalizing i r keys with
  | nil => cases h
  | cons group groups ih =>
    have hgroup : env.autoGroups[i]? = some group := by
      rw [← List.head?_drop, ← hgroups]
      rfl
    have hretry : (if start < i then 0 else r) = r := by
      split
      · next hlt => exact (hstart hlt).symm
      · rfl
    rw [search] at h
    simp only [hretry] at h
    split at h
    · next hnone =>
      -- a group without a channel for the retry is left, and the next one begins with 0
      refine ih ?_ (hpos.leave_of_none hgroup hnone) (Nat.zero_le _) (hi.trans (Nat.le_succ i))
        (fun _ => rfl) h
      rw [← List.drop_drop, ← hgroups]
      rfl
    · next channel hchannel =>
      rw [Prod.mk.injEq, Option.some_inj] at h
      obtain ⟨rfl, h⟩ := h
      refine ⟨hpos, hr, hgroup, hchannel, ?_⟩
      split at h
      · next hlast =>
        cases h
        exact Or.inr ⟨rfl, hr.antisymm hlast.2, rfl⟩
      · next hmore =>
        cases h
        exact Or.inl ⟨rfl, lt_of_not_ge fun hge => hmore ⟨hcross, hge⟩, rfl⟩

theorem found_cacheGet (hauto : env.tokenGroup = "auto") {r : ℕ} {param : RetryParam}
    {keys keys' : ContextKeys} {v : Visit χ}
    (hpos : env.Position visits (keys.autoGroupIndex.getD 0) r) (hr : r ≤ env.retryTimes)
    (h : env.cacheGetRandomSatisfiedChannel (⟨r, false⟩, keys) = (.ok (some v), param, keys')) :
    env.Found visits v param keys' := by
  rw [cacheGetRandomSatisfiedChannel, if_pos hauto] at h
  split at h
  · cases h
  · simp only [Prod.mk.injEq, Except.ok.injEq] at h
    exact found_search hcross rfl hpos hr le_rfl (fun hlt => absurd hlt (lt_irrefl _))
      (Prod.ext h.1 h.2)

end Cross

variable {keys : ContextKeys}

/-- **A search that finds nothing has exhausted all groups.** -/
theorem exhausted_of_search {start i r : ℕ} {groups : List String}
    {s : RetryParam × ContextKeys} (hgroups : groups = env.autoGroups.drop i)
    (hpos : env.Position visits i r) (hi : start ≤ i) (hstart : start < i → r = 0)
    (h : env.search start i groups (⟨r, false⟩, keys) = (none, s)) :
    ∀ j < env.autoGroups.length, env.Exhausted visits j := by
  induction groups generalizing i r keys with
  | nil =>
    intro j hj
    exact hpos.before j (hj.trans_le (List.drop_eq_nil_iff.mp hgroups.symm))
  | cons group groups ih =>
    have hgroup : env.autoGroups[i]? = some group := by
      rw [← List.head?_drop, ← hgroups]
      rfl
    have hretry : (if start < i then 0 else r) = r := by
      split
      · next hlt => exact (hstart hlt).symm
      · rfl
    rw [search] at h
    simp only [hretry] at h
    split at h
    · next hnone =>
      refine ih ?_ (hpos.leave_of_none hgroup hnone) (hi.trans (Nat.le_succ i)) (fun _ => rfl) h
      rw [← List.drop_drop, ← hgroups]
      rfl
    · cases h

/-- **No channel is selected only where all groups are exhausted.** -/
theorem exhausted_of_cacheGet (hauto : env.tokenGroup = "auto") {r : ℕ}
    {found : Except String (Option (Visit χ))}
    {s : RetryParam × ContextKeys} (hpos : env.Position visits (keys.autoGroupIndex.getD 0) r)
    (h : env.cacheGetRandomSatisfiedChannel (⟨r, false⟩, keys) = (found, s))
    (hfound : ∀ v, found ≠ .ok (some v)) :
    ∀ j < env.autoGroups.length, env.Exhausted visits j := by
  rw [cacheGetRandomSatisfiedChannel, if_pos hauto] at h
  split at h
  · next hnone =>
    intro j hj
    rw [autoGroups, hnone] at hj
    exact absurd hj (Nat.not_lt_zero j)
  · simp only [Prod.mk.injEq] at h
    obtain ⟨hvisit, -⟩ := h
    rcases hsearch : env.search (keys.autoGroupIndex.getD 0) (keys.autoGroupIndex.getD 0)
      (env.autoGroups.drop (keys.autoGroupIndex.getD 0)) (⟨r, false⟩, keys) with ⟨visit, s'⟩
    rw [hsearch] at hvisit
    cases visit with
    | none =>
      exact exhausted_of_search rfl hpos le_rfl (fun hlt => absurd hlt (lt_irrefl _)) hsearch
    | some v => exact absurd hvisit.symm (hfound v)

/-- The attempt on what was found leaves the loop in its next position. -/
theorem Found.next_position {v : Visit χ} {param : RetryParam} (h : env.Found visits v param keys) :
    param.increaseRetry.resetNextTry = false ∧ param.increaseRetry.retry ≤ env.retryTimes ∧
      env.Position (visits ++ [v]) (keys.autoGroupIndex.getD 0) param.increaseRetry.retry := by
  rcases h.next with ⟨rfl, hlt, hkeys⟩ | ⟨rfl, heq, hkeys⟩
  · rw [hkeys]
    exact ⟨rfl, hlt, h.position.visit h.le v.group v.channel⟩
  · rw [hkeys]
    have hpos := h.position
    obtain ⟨i, group, r, channel⟩ := v
    dsimp only at heq
    subst heq
    exact ⟨rfl, Nat.zero_le _, hpos.visit_last group channel⟩

/-- The counter that `shouldRetry` is asked with has not run out, unless there are no retries. -/
theorem Found.retry_lt {v : Visit χ} {param : RetryParam}
    (h : env.Found visits v param keys) (hpos : 0 < env.retryTimes) :
    param.retry < env.retryTimes := by
  rcases h.next with ⟨rfl, hlt, -⟩ | ⟨rfl, -, -⟩
  · exact hlt
  · exact hpos

end Selection

/-! ### An iteration -/

/-- Of the counter, `shouldRetry` reads only whether it has run out. -/
theorem shouldRetry_congr (openaiErr : ApiError) {m n : ℤ} (h : m ≤ 0 ↔ n ≤ 0) :
    env.shouldRetry openaiErr m = env.shouldRetry openaiErr n := by
  rw [shouldRetry, shouldRetry]
  simp only [h]

/-- **What holds whenever the loop begins again.** Without retries the counter has run out after
the first attempt. -/
structure Ready (env : RelayEnv χ) (s : RelayState χ) (visits : List (Visit χ)) : Prop where
  tried : s.tried = env.given.toList ++ visits.map .selected
  pos : 0 < s.tried.length
  inOrder : env.InOrder visits
  preselected : s.preselected = none
  position : (s.param.resetNextTry = false ∧ s.param.retry ≤ env.retryTimes ∧
      env.Position visits (s.keys.autoGroupIndex.getD 0) s.param.retry) ∨
    (env.retryTimes = 0 ∧ env.retryTimes < s.param.retry ∧ s.tried.length = 1)

/-- What an iteration does: where the loop ends the request has its outcome, and where it goes on
there is one more attempt. -/
def Advances (env : RelayEnv χ) (tried : List (Attempt χ)) (r : RelayState χ × Bool) : Prop :=
  ∃ visits, (r.2 = false → env.Outcome r.1.tried visits) ∧
    (r.2 = true → env.Ready r.1 visits ∧ r.1.tried.length = tried.length + 1)

variable {s : RelayState χ}

/-- **An attempt**, from what is true before it and what is true if the loop goes on after it. -/
theorem attemptWith_advances {attempt : Attempt χ} {visits' : List (Visit χ)}
    (htried : (s.tried = [] ∧ visits = []) ∨
      s.tried = env.given.toList ++ visits.map .selected)
    (hvisits : env.InOrder visits)
    (htried' : s.tried ++ [attempt] = env.given.toList ++ visits'.map .selected)
    (hvisits' : env.InOrder visits') (hretry : 0 < env.retryTimes → s.param.retry < env.retryTimes)
    (hpos : (s.param.increaseRetry.resetNextTry = false ∧
        s.param.increaseRetry.retry ≤ env.retryTimes ∧
        env.Position visits' (s.keys.autoGroupIndex.getD 0) s.param.increaseRetry.retry) ∨
      (env.retryTimes = 0 ∧ env.retryTimes < s.param.increaseRetry.retry ∧ s.tried = [])) :
    env.Advances s.tried (env.attemptWith s attempt) := by
  have hlength : (s.tried ++ [attempt]).length = s.tried.length + 1 := by
    rw [List.length_append, List.length_singleton]
  rw [attemptWith]
  -- the body is read again for every attempt
  split
  · next hbody => exact ⟨visits, fun _ => ⟨htried, hvisits, Or.inr (Or.inl hbody)⟩, nofun⟩
  · have hsettled (hlast : (env.attempt s.tried.length).newAPIError = none ∨
        ∃ err ∈ (env.attempt s.tried.length).newAPIError,
          env.shouldRetry err env.retryTimes = false) :
        env.Outcome (s.tried ++ [attempt]) visits' :=
      ⟨Or.inr htried', hvisits', Or.inr (Or.inr (Or.inr (Or.inl ⟨_, hlength, hlast⟩)))⟩
    split
    · next hok => exact ⟨visits', fun _ => hsettled (Or.inl hok), nofun⟩
    · next err herr =>
      dsimp only
      split
      · refine ⟨visits', nofun, fun _ => ⟨⟨htried', ?_, hvisits', rfl, ?_⟩, hlength⟩⟩
        · rw [hlength]
          exact Nat.succ_pos _
        · refine hpos.imp_right fun hover => ⟨hover.1, hover.2.1, ?_⟩
          rw [hlength, hover.2.2]
          rfl
      · next hretried =>
        refine ⟨visits', fun _ => hsettled (Or.inr ⟨err, herr, ?_⟩), nofun⟩
        rw [← Bool.not_eq_true, shouldRetry_congr err (n := env.retryTimes - s.param.retry)]
        · exact hretried
        · omega

theorem iteration_advances (hauto : env.tokenGroup = "auto") (hcross : env.crossGroupRetry = true)
    (hs : env.Ready s visits) :
    env.Advances s.tried (env.iteration s) := by
  rw [iteration]
  rcases hs.position with ⟨hreset, hle, hpos⟩ | ⟨hzero, hlt, hone⟩
  · rw [if_neg (not_lt.mpr hle), getChannel, hs.preselected]
    have hparam : s.param = ⟨s.param.retry, false⟩ := by
      rw [← hreset]
    dsimp only
    rw [hparam]
    rcases hget : env.cacheGetRandomSatisfiedChannel (⟨s.param.retry, false⟩, s.keys) with
      ⟨found, param, keys⟩
    by_cases hfound : ∃ v, found = .ok (some v)
    · obtain ⟨v, rfl⟩ := hfound
      have hfound := found_cacheGet hcross hauto hpos hle hget
      dsimp only
      split
      · next heq =>
        split at heq
        · next hsetup =>
          rw [Prod.mk.injEq] at heq
          obtain ⟨-, rfl⟩ := heq
          exact ⟨visits, fun _ => ⟨Or.inr hs.tried, hs.inOrder,
            Or.inr (Or.inr (Or.inl ⟨hs.pos, hsetup⟩))⟩, nofun⟩
        · cases heq
      · next attempt s' heq =>
        split at heq
        · cases heq
        · cases heq
          refine attemptWith_advances (Or.inr hs.tried) hs.inOrder ?_
            (hfound.position.inOrder hfound.le hs.inOrder hfound.group hfound.channel)
            hfound.retry_lt (Or.inl hfound.next_position)
          rw [hs.tried, List.map_append, List.append_assoc]
          rfl
    · -- no channel is found: the groups are exhausted
      have hnone (v : Visit χ) : found ≠ .ok (some v) := fun h => hfound ⟨v, h⟩
      have hdone := exhausted_of_cacheGet hauto hpos hget hnone
      have houtcome : env.Outcome s.tried visits := ⟨Or.inr hs.tried, hs.inOrder, Or.inl hdone⟩
      split
      · next heq =>
        split at heq
        · next hok => exact absurd (Prod.mk.inj hok).1 (hnone _)
        · cases heq
          exact ⟨visits, fun _ => houtcome, nofun⟩
      · next heq =>
        split at heq
        · next hok => exact absurd (Prod.mk.inj hok).1 (hnone _)
        · cases heq
  · rw [if_pos hlt]
    exact ⟨visits, fun _ => ⟨Or.inr hs.tried, hs.inOrder,
      Or.inr (Or.inr (Or.inr (Or.inr ⟨hzero, hone⟩)))⟩, nofun⟩

/-! ### The loop -/

/-- There is a bound on the attempts, so the loop ends. -/
theorem exists_outcome_of_advances (hauto : env.tokenGroup = "auto")
    (hcross : env.crossGroupRetry = true) {n : ℕ} (hs : env.Advances s.tried (env.iteration s))
    (hn : max env.given.toList.length (env.autoGroups.length * (env.retryTimes + 1)) ≤
      n + s.tried.length) :
    ∃ tried visits, env.loop (n + 1) s = some tried ∧ env.Outcome tried visits := by
  -- every iteration that goes on makes an attempt, of which there are not more than the bound
  induction n generalizing s with
  | zero =>
    obtain ⟨visits, hended, hgoes⟩ := hs
    rw [loop]
    rcases hiter : env.iteration s with ⟨s', goesOn⟩
    rw [hiter] at hended hgoes
    rcases goesOn
    · exact ⟨s'.tried, visits, rfl, hended rfl⟩
    · obtain ⟨hready, hlength⟩ := hgoes rfl
      have hcount := hready.inOrder.count
      have htried := congrArg List.length hready.tried
      rw [List.length_append, List.length_map] at htried
      dsimp only at hlength htried
      omega
  | succ n ih =>
    obtain ⟨visits, hended, hgoes⟩ := hs
    rw [loop]
    rcases hiter : env.iteration s with ⟨s', goesOn⟩
    rw [hiter] at hended hgoes
    rcases goesOn
    · exact ⟨s'.tried, visits, rfl, hended rfl⟩
    · obtain ⟨hready, hlength⟩ := hgoes rfl
      dsimp only at hlength
      exact ih (iteration_advances hauto hcross hready) (by omega)

/-- The first attempt is on the channel that was given. -/
theorem advances_given {attempt : Attempt χ} (hgiven : env.given = some attempt)
    (keys : ContextKeys) (hkeys : keys.autoGroupIndex = none) :
    env.Advances [] (env.iteration { keys, preselected := some attempt }) := by
  rw [iteration, if_neg (Nat.not_lt_zero _)]
  refine attemptWith_advances (Or.inl ⟨rfl, rfl⟩) inOrder_nil ?_ inOrder_nil id ?_
  · rw [hgiven]
    rfl
  · rcases Nat.eq_zero_or_pos env.retryTimes with hzero | hpos
    · exact Or.inr ⟨hzero, hzero.trans_lt Nat.one_pos, rfl⟩
    · refine Or.inl ⟨rfl, hpos, ?_⟩
      rw [hkeys]
      exact position_one (by rw [hgiven]; rfl)

/-- The first attempt is on a channel that was selected. The retry parameter of the distributor is
not that of the loop, but it is the same unless there are no retries. -/
theorem advances_selected (hgiven : env.given = none) {v : Visit χ} {param : RetryParam}
    {keys : ContextKeys} (hfound : env.Found [] v param keys) :
    env.Advances [] (env.iteration { keys, preselected := some (.selected v) }) := by
  have hfirst : env.firstRetry v.index = 0 := by
    rw [firstRetry, hgiven]
    rfl
  have hzero : v.priorityRetry = 0 := by
    have hlength := hfound.position.firstRetry_add_length
    rw [hfirst] at hlength
    exact hlength.symm
  rw [iteration, if_neg (Nat.not_lt_zero _)]
  refine attemptWith_advances (Or.inl ⟨rfl, rfl⟩) inOrder_nil ?_
    (hfound.position.inOrder hfound.le inOrder_nil hfound.group hfound.channel) id ?_
  · rw [hgiven]
    rfl
  · rcases hfound.next with ⟨hparam, -, -⟩ | ⟨-, hlast, -⟩
    · have hnext := hfound.next_position
      rw [hparam, hzero] at hnext
      exact Or.inl hnext
    · rw [hzero] at hlast
      exact Or.inr ⟨hlast.symm, hlast.symm.trans_lt Nat.one_pos, rfl⟩

/-- **A request for the automatic groups** ends, with its attempts in order, and only because all
groups are exhausted or it is settled. -/
theorem autoGroups_in_order (env : RelayEnv χ) (hauto : env.tokenGroup = "auto")
    (hcross : env.crossGroupRetry = true) :
    ∃ tried visits,
      env.relay (env.autoGroups.length * (env.retryTimes + 1) + 2) = some tried ∧
        env.Outcome tried visits := by
  have hbound : max env.given.toList.length (env.autoGroups.length * (env.retryTimes + 1)) ≤
      env.autoGroups.length * (env.retryTimes + 1) + 1 + 0 := by
    have hgiven : env.given.toList.length ≤ 1 := by cases env.given <;> simp
    omega
  rw [relay, distribute]
  -- the first channel is selected by `Distribute`, or it is given
  rcases hgiven : env.given with - | attempt
  · rcases hget : env.cacheGetRandomSatisfiedChannel ({}, {}) with ⟨found, param, keys⟩
    have hpos := position_zero hgiven
    by_cases hfound : ∃ v, found = .ok (some v)
    · obtain ⟨v, rfl⟩ := hfound
      have hfound := found_cacheGet hcross hauto hpos (Nat.zero_le _) hget
      exact exists_outcome_of_advances hauto hcross (advances_selected hgiven hfound) hbound
    · have hnone (v : Visit χ) : found ≠ .ok (some v) := fun h => hfound ⟨v, h⟩
      have hdone := exhausted_of_cacheGet hauto hpos hget hnone
      refine ⟨[], [], ?_, Or.inl ⟨rfl, rfl⟩, inOrder_nil, Or.inl hdone⟩
      rcases found with err | - | v
      · rfl
      · rfl
      · exact absurd rfl (hnone v)
  · exact exists_outcome_of_advances hauto hcross (advances_given hgiven _ rfl) hbound

/-! ### Two runs -/

/-- The groups `a`, `b` and `c` with one retry; `a` has no channel for its second priority and
`b` has none at all. Every attempt fails. -/
def threeGroups : RelayEnv ℕ where
  retryTimes := 1
  tokenGroup := "auto"
  crossGroupRetry := true
  settingGroups := ["a", "b", "c"]
  usable _ := true
  satisfied group retry :=
    .ok (if group = "a" ∧ retry = 0 then some 1 else if group = "c" then some (2 + retry) else none)
  shouldRetryByStatusCode _ := true
  attempt _ := { newAPIError := some { statusCode := 500 } }

theorem threeGroups_in_order :
    ∃ tried visits, threeGroups.relay 8 = some tried ∧ threeGroups.Outcome tried visits :=
  autoGroups_in_order threeGroups rfl rfl

example : threeGroups.relay 8 = some [.selected ⟨0, "a", 0, 1⟩, .selected ⟨2, "c", 0, 2⟩,
    .selected ⟨2, "c", 1, 3⟩] := by
  decide

/-- The same groups, where `a` has a channel for each priority and `c` one for its first, which
the affinity prefers. -/
def preferredLast : RelayEnv ℕ :=
  { threeGroups with
    preferred := some 2
    enabledForGroupModel := fun group channel => group = "c" ∧ channel = 2
    satisfied := fun group retry =>
      .ok (if group = "a" then some (10 + retry)
        else if group = "c" ∧ retry = 0 then some 2 else none) }

/-- **The affinity comes before the order of the groups**: the first attempt is made for the last
group, the next one for the first, and the channel that it has for its first priority is not
tried. -/
theorem preferred_not_in_order :
    ∃ tried, preferredLast.relay 8 = some tried ∧
      ¬(tried.filterMap Attempt.group?).Pairwise (fun group group' =>
        preferredLast.autoGroups.idxOf group ≤ preferredLast.autoGroups.idxOf group') ∧
      preferredLast.channelIn "a" 0 = some 10 ∧
      ∀ visit, .selected visit ∈ tried → visit.group = "a" → visit.priorityRetry = 1 := by
  refine ⟨[.given (some "c") 2, .selected ⟨0, "a", 1, 11⟩, .selected ⟨2, "c", 0, 2⟩], by decide,
    by decide, rfl, ?_⟩
  intro visit hvisit hgroup
  simp only [List.mem_cons, Attempt.selected.injEq, reduceCtorEq, false_or, List.not_mem_nil,
    or_false] at hvisit
  rcases hvisit with rfl | rfl
  · rfl
  · exact absurd hgroup (by decide)

end RelayEnv

end NewApiPool.Routing
