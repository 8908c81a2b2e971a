import Mathlib.Algebra.Ring.Int.Defs
import Mathlib.Algebra.GroupWithZero.Nat
import Mathlib.Data.Set.Basic
import NewApiPool.Routing.Cache

/-!
# Selecting a channel

`GetRandomSatisfiedChannel` has two paths: with the memory cache it reads the lists of
`Routing.Cache`, without it `GetChannel` queries the abilities. Both take the priority tier
of the retry, the `retry`-th distinct priority from the top and the last one from there on,
and draw in it by weight. They differ in three places. The memory path falls back to a
normalised name where nothing lists the exact one; it leaves a channel of weight `0` out
unless the whole tier weighs `0`, while the other path adds `10` to every weight; and the
two draw loops stop at `< 0` and at `<= 0`.

* `candidates`, `tier` – what both paths choose from, in terms of the channels.
* `mem_cachedReturns`, `mem_storedReturns` – the channels each path can return over all
  draws, as part of the tier.
* `returns_agree_iff` – these are the same channels exactly when the normalised name was
  not needed or did not help, and the weights of the tier are all zero or all positive.

The random generator is a parameter `intn`, of which `rand.Intn` promises a number below
its argument.
-/

namespace NewApiPool.Routing

open Choice GoText

/-! ### The memory path -/

def handleThinkingBudgetModel (name start wildcard : String) : String :=
  if startsWith name start && contains name "-thinking-" then wildcard else name

def formatMatchingModelName (name : String) : String :=
  let name :=
    if startsWith name "gemini-2.5-flash-lite" then
      handleThinkingBudgetModel name "gemini-2.5-flash-lite" "gemini-2.5-flash-lite-thinking-*"
    else if startsWith name "gemini-2.5-flash" then
      handleThinkingBudgetModel name "gemini-2.5-flash" "gemini-2.5-flash-thinking-*"
    else if startsWith name "gemini-2.5-pro" then
      handleThinkingBudgetModel name "gemini-2.5-pro" "gemini-2.5-pro-thinking-*"
    else name
  let name := if startsWith name "gpt-4-gizmo" then "gpt-4-gizmo-*" else name
  if startsWith name "gpt-4o-gizmo" then "gpt-4o-gizmo-*" else name

/-- `channelsIDM[id]`, or the error for a listed channel that is not there. -/
def Cache.get (cache : Cache) (id : ℕ) : Except String Channel :=
  match cache.channelsIDM id with
  | some c => .ok c
  | none => .error s!"数据库一致性错误，渠道# {id} 不存在，请联系管理员修复"

/-- The priority of the tier for a retry, out of the priorities of the candidates. -/
def targetPriority (priorities : List ℤ) (retry : ℕ) : ℤ :=
  let sortedUniquePriorities := ranks priorities
  let retry :=
    if sortedUniquePriorities.length ≤ retry then sortedUniquePriorities.length - 1 else retry
  -- in range: there is at least one candidate
  sortedUniquePriorities.getD retry 0

/-- The total, `smoothingFactor` and `smoothingAdjustment` for the channels of a tier. -/
def smoothing (targetChannels : List Channel) : ℕ × ℕ × ℕ :=
  let sumWeight := (targetChannels.map Channel.getWeight).sum
  if sumWeight = 0 then (targetChannels.length * 100, 1, 100)
  else if sumWeight / targetChannels.length < 10 then (sumWeight, 100, 0)
  else (sumWeight, 1, 0)

/-- The rest of `GetRandomSatisfiedChannel`, once the listed channels are found. -/
def pickSatisfied (intn : ℕ → ℕ) (group model : String) (retry : ℕ) (channels : List Channel) :
    Except String Channel :=
  let target := targetPriority (channels.map Channel.getPriority) retry
  let targetChannels := channels.filter fun c => c.getPriority = target
  if targetChannels = [] then
    .error s!"no channel found, group: {group}, model: {model}, priority: {target}"
  else
    let (sumWeight, smoothingFactor, smoothingAdjustment) := smoothing targetChannels
    let randomWeight := intn (sumWeight * smoothingFactor)
    match draw (fun r => r < 0) (fun c => c.getWeight * smoothingFactor + smoothingAdjustment)
      randomWeight targetChannels with
    | some c => .ok c
    | none => .error "channel not found"

/-- The choice among the ids that were found for a name. A single one is returned without a
draw. -/
def pickListed (intn : ℕ → ℕ) (cache : Cache) (group model : String) (retry : ℕ) :
    List ℕ → Except String (Option Channel)
  | [] => .ok none
  | [id] => (cache.get id).map some
  | id :: id' :: ids =>
    match (id :: id' :: ids).mapM cache.get with
    | .error e => .error e
    | .ok channels => (pickSatisfied intn group model retry channels).map some

/-- **`GetRandomSatisfiedChannel`** with the memory cache on: the exact name first, then the
normalised one. -/
def getRandomSatisfiedChannel (intn : ℕ → ℕ) (cache : Cache) (group model : String)
    (retry : ℕ) : Except String (Option Channel) :=
  let listed := cache.listed group model
  let ids := if listed = [] then cache.listed group (formatMatchingModelName model) else listed
  pickListed intn cache group model retry ids

/-! ### The database path -/

/-- The rows of the queries: `group = ? and model = ? and enabled = ?`. -/
def enabledAbilities (db : DB) (group model : String) : List Ability :=
  db.abilities.filter fun a => a.group = group ∧ a.model = model ∧ a.enabled

def getPriority (db : DB) (group model : String) (retry : ℕ) : Except String ℤ :=
  let priorities := ranks ((enabledAbilities db group model).map Ability.priority)
  if priorities = [] then .error "数据库一致性被破坏"
  else if priorities.length ≤ retry then .ok (priorities.getD (priorities.length - 1) 0)
  else .ok (priorities.getD retry 0)

/-- `getChannelQuery`, run: the rows of the tier. Without a retry the tier is that of
`MAX(priority)`, which is NULL, and equal to nothing, where there is no row. -/
def getChannelQuery (db : DB) (group model : String) (retry : ℕ) :
    Except String (List Ability) :=
  let rows := enabledAbilities db group model
  if retry ≠ 0 then
    match getPriority db group model retry with
    | .error e => .error e
    | .ok priority => .ok (rows.filter fun a => a.priority = priority)
  else .ok (rows.filter fun a => some a.priority = (rows.map Ability.priority).max?)

/-- The rest of `GetChannel`, on the rows in the order of their weights. -/
def pickAbility (intn : ℕ → ℕ) (db : DB) (abilities : List Ability) :
    Except String (Option Channel) :=
  if abilities = [] then .ok none
  else
    let weightSum := (abilities.map fun a => a.weight + 10).sum
    let weight := intn weightSum
    let chosen := draw (fun r => r ≤ 0) (fun a : Ability => a.weight + 10) weight abilities
    match db.first ((chosen.map Ability.channelId).getD 0) with
    | some c => .ok (some c)
    | none => .error "record not found"

/-- **`GetChannel`**. The order of equal weights is the database's. -/
def getChannel (orderByWeight : Sorter Ability fun a b => b.weight ≤ a.weight) (intn : ℕ → ℕ)
    (db : DB) (group model : String) (retry : ℕ) : Except String (Option Channel) :=
  match getChannelQuery db group model retry with
  | .error e => .error e
  | .ok rows => pickAbility intn db (orderByWeight.sort rows)

/-! ### What a path can return -/

/-- What `rand.Intn` promises. -/
def Intn (intn : ℕ → ℕ) : Prop := ∀ n, 0 < n → intn n < n

/-- **The channels the memory path can return**, over all draws. -/
def cachedReturns (cache : Cache) (group model : String) (retry : ℕ) : Set ℕ :=
  {id | ∃ intn c, Intn intn ∧
    getRandomSatisfiedChannel intn cache group model retry = .ok (some c) ∧ c.id = id}

/-- **The channels the database path can return**, over all draws. -/
def storedReturns (orderByWeight : Sorter Ability fun a b => b.weight ≤ a.weight) (db : DB)
    (group model : String) (retry : ℕ) : Set ℕ :=
  {id | ∃ intn c, Intn intn ∧
    getChannel orderByWeight intn db group model retry = .ok (some c) ∧ c.id = id}

/-- The enabled channels that list a group and a model. -/
def candidates (channels : List Channel) (group model : String) : List Channel :=
  channels.filter fun c => c.isEnabled ∧ group ∈ c.groupList ∧ model ∈ c.modelList

/-- The candidates of the priority a retry leads to. -/
def tierOf (channels : List Channel) (retry : ℕ) : List Channel :=
  channels.filter fun c => c.getPriority = targetPriority (channels.map Channel.getPriority) retry

/-- **The tier**: the candidates of the `retry`-th distinct priority from the top, or of the
last one. -/
def tier (channels : List Channel) (group model : String) (retry : ℕ) : List Channel :=
  tierOf (candidates channels group model) retry

/-! ### The tier -/

theorem getD_mem {l : List ℤ} {i : ℕ} (h : i < l.length) : l.getD i 0 ∈ l := by
  rw [List.getD_eq_getElem?_getD, List.getElem?_eq_getElem h]
  exact List.getElem_mem h

theorem targetPriority_mem {priorities : List ℤ} (hne : priorities ≠ []) (retry : ℕ) :
    targetPriority priorities retry ∈ priorities := by
  have hpos : 0 < (ranks priorities).length := by
    rw [List.length_pos_iff, Ne, ranks_eq_nil]
    exact hne
  rw [← mem_ranks]
  unfold targetPriority
  simp only
  split
  · exact getD_mem (by omega)
  · exact getD_mem (by omega)

/-- The tier depends on the set of the priorities only. -/
theorem targetPriority_congr {ps ps' : List ℤ} (h : ∀ p, p ∈ ps ↔ p ∈ ps') (retry : ℕ) :
    targetPriority ps retry = targetPriority ps' retry := by
  unfold targetPriority
  rw [ranks_congr h]

variable {channels : List Channel} {retry : ℕ} {c : Channel}

theorem mem_tierOf :
    c ∈ tierOf channels retry ↔
      c ∈ channels ∧ c.getPriority = targetPriority (channels.map Channel.getPriority) retry := by
  unfold tierOf
  rw [List.mem_filter, decide_eq_true_iff]

theorem tierOf_ne_nil (hne : channels ≠ []) (retry : ℕ) :
    tierOf channels retry ≠ [] := by
  have hprios : channels.map Channel.getPriority ≠ [] := mt List.map_eq_nil_iff.1 hne
  have hmem := targetPriority_mem hprios retry
  obtain ⟨c, hc, hprio⟩ := List.mem_map.1 hmem
  exact List.ne_nil_of_mem (mem_tierOf.2 ⟨hc, hprio⟩)

theorem mem_candidates {g m : String} :
    c ∈ candidates channels g m ↔
      c ∈ channels ∧ c.isEnabled ∧ g ∈ c.groupList ∧ m ∈ c.modelList := by
  unfold candidates
  rw [List.mem_filter, decide_eq_true_iff]

variable {cs : List Channel}

/-- Channels that keep their priority keep their tier. -/
theorem mem_tierOf_image {cands : List Channel} {f : Channel → Channel}
    (hf : ∀ c, (f c).getPriority = c.getPriority) (h : ∀ x, x ∈ cs ↔ ∃ c ∈ cands, f c = x)
    {x : Channel} : x ∈ tierOf cs retry ↔ ∃ c ∈ tierOf cands retry, f c = x := by
  have hprio : targetPriority (cs.map Channel.getPriority) retry =
      targetPriority (cands.map Channel.getPriority) retry := by
    refine targetPriority_congr (fun p => ?_) retry
    simp only [List.mem_map, h]
    constructor
    · rintro ⟨x, ⟨c, hc, rfl⟩, rfl⟩
      exact ⟨c, hc, (hf c).symm⟩
    · rintro ⟨c, hc, rfl⟩
      exact ⟨f c, ⟨c, hc, rfl⟩, hf c⟩
  simp only [mem_tierOf, h, hprio]
  constructor
  · rintro ⟨⟨c, hc, rfl⟩, hp⟩
    exact ⟨c, ⟨hc, (hf c).symm.trans hp⟩, rfl⟩
  · rintro ⟨c, ⟨hc, hp⟩, rfl⟩
    exact ⟨⟨c, hc, rfl⟩, (hf c).trans hp⟩

/-! ### The draw of the memory path -/

/-- A draw over all generators is a draw over all numbers below the bound. -/
theorem exists_intn_iff {n : ℕ} (hn : 0 < n) {P : ℕ → Prop} :
    (∃ intn, Intn intn ∧ P (intn n)) ↔ ∃ d < n, P d := by
  constructor
  · rintro ⟨intn, hintn, hP⟩
    exact ⟨intn n, hintn n hn, hP⟩
  · rintro ⟨d, hd, hP⟩
    refine ⟨fun k => if k = n then d else 0, fun k hk => ?_, by simpa using hP⟩
    show (if k = n then d else 0) < k
    split
    · omega
    · exact hk

/-- The members of a tier that are drawn: those with a weight, or all if none has one. -/
def Drawn (cs : List Channel) (c : Channel) : Prop :=
  c ∈ cs ∧ (0 < c.getWeight ∨ ∀ c' ∈ cs, c'.getWeight = 0)

instance (cs : List Channel) (c : Channel) : Decidable (Drawn cs c) :=
  inferInstanceAs (Decidable (_ ∧ (_ ∨ _)))

instance (cs : List Channel) (id : ℕ) : Decidable (∃ c, Drawn cs c ∧ c.id = id) :=
  decidable_of_iff (∃ c ∈ cs, Drawn cs c ∧ c.id = id)
    ⟨fun ⟨c, _, h⟩ => ⟨c, h⟩, fun ⟨c, h⟩ => ⟨c, h.1.1, h⟩⟩

theorem sum_getWeight_eq_zero :
    (cs.map Channel.getWeight).sum = 0 ↔ ∀ c ∈ cs, c.getWeight = 0 := by
  induction cs with
  | nil => simp
  | cons c cs ih => simp [ih]

theorem sum_smoothed (cs : List Channel) (k a : ℕ) :
    (cs.map fun c => c.getWeight * k + a).sum =
      (cs.map Channel.getWeight).sum * k + cs.length * a := by
  induction cs with
  | nil => simp
  | cons c cs ih =>
    simp only [List.map_cons, List.sum_cons, List.length_cons, ih, Nat.add_mul]
    omega

/-- **The smoothed weights** add up to the total that is drawn from, and are positive for
the channels that can be drawn. -/
theorem smoothing_spec {ts : List Channel} (hne : ts ≠ []) {total factor adjustment : ℕ}
    (h : smoothing ts = (total, factor, adjustment)) :
    (ts.map fun c => c.getWeight * factor + adjustment).sum = total * factor ∧
      0 < total * factor ∧
      ∀ c ∈ ts, 0 < c.getWeight * factor + adjustment ↔
        0 < c.getWeight ∨ ∀ c' ∈ ts, c'.getWeight = 0 := by
  have hlen : 0 < ts.length := List.length_pos_iff.2 hne
  -- with a positive sum not every weight is `0`
  have hpos : (ts.map Channel.getWeight).sum ≠ 0 → ∀ k, 0 < k → ∀ c ∈ ts,
      (0 < c.getWeight * k + 0 ↔ 0 < c.getWeight ∨ ∀ c' ∈ ts, c'.getWeight = 0) := by
    intro hsum k hk c _
    rw [or_iff_left (mt sum_getWeight_eq_zero.2 hsum), Nat.add_zero]
    exact Nat.mul_pos_iff_of_pos_right hk
  unfold smoothing at h
  simp only at h
  split at h
  · rename_i hsum
    cases h
    have hzero := sum_getWeight_eq_zero.1 hsum
    refine ⟨?_, by omega, fun c _ => ⟨fun _ => Or.inr hzero, fun _ => by omega⟩⟩
    rw [sum_smoothed, hsum]
    omega
  · rename_i hsum
    split at h
    · cases h
      exact ⟨sum_smoothed ts 100 0, by omega, hpos hsum 100 (by omega)⟩
    · cases h
      exact ⟨sum_smoothed ts 1 0, by omega, hpos hsum 1 (by omega)⟩

/-- **What the memory path draws from the listed channels.** -/
theorem pickSatisfied_iff (group model : String) (hne : cs ≠ []) :
    (∃ intn, Intn intn ∧ pickSatisfied intn group model retry cs = .ok c) ↔
      Drawn (tierOf cs retry) c := by
  have htier := tierOf_ne_nil hne retry
  rcases hsmooth : smoothing (tierOf cs retry) with ⟨total, factor, adjustment⟩
  obtain ⟨hsum, hpos, hdrawn⟩ := smoothing_spec htier hsmooth
  have hpick : ∀ intn, pickSatisfied intn group model retry cs = .ok c ↔
      draw (fun r => r < 0) (fun c => c.getWeight * factor + adjustment)
        (intn (total * factor) : ℕ) (tierOf cs retry) = some c := by
    intro intn
    unfold pickSatisfied
    simp only
    rw [show (cs.filter fun c => c.getPriority =
      targetPriority (cs.map Channel.getPriority) retry) = tierOf cs retry from rfl,
      if_neg htier, hsmooth]
    simp only
    cases draw (fun r => r < 0) (fun c => c.getWeight * factor + adjustment)
      (intn (total * factor) : ℕ) (tierOf cs retry) <;> simp
  simp only [hpick]
  rw [exists_intn_iff hpos (P := fun d => draw (fun r => r < 0)
    (fun c => c.getWeight * factor + adjustment) d (tierOf cs retry) = some c), ← hsum,
    exists_draw_lt_zero_iff]
  unfold Drawn
  exact and_congr_right fun hc => hdrawn c hc

/-! ### The memory path on a cache that was built -/

variable {cache : Cache}

theorem get_eq_ok {id : ℕ} (h : cache.channelsIDM id = some c) :
    cache.get id = .ok c := by
  unfold Cache.get
  rw [h]

theorem mapM_get {ids : List ℕ} (h : ∀ id ∈ ids, (cache.channelsIDM id).isSome) :
    ∃ cs, ids.mapM cache.get = .ok cs ∧ cs.length = ids.length ∧
      ∀ c, c ∈ cs ↔ ∃ id ∈ ids, cache.channelsIDM id = some c := by
  induction ids with
  | nil => exact ⟨[], rfl, rfl, by simp⟩
  | cons id ids ih =>
    obtain ⟨cs, hcs, hlen, hmem⟩ := ih fun id' hid' => h id' (List.mem_cons_of_mem id hid')
    obtain ⟨c, hc⟩ := Option.isSome_iff_exists.1 (h id List.mem_cons_self)
    refine ⟨c :: cs, ?_, by rw [List.length_cons, hlen, List.length_cons], fun c' => ?_⟩
    · rw [List.mapM_cons, get_eq_ok hc, hcs]
      rfl
    · simp only [List.mem_cons, hmem, exists_eq_or_imp, hc, Option.some.injEq]
      exact or_congr_left eq_comm

theorem drawn_singleton {c₀ : Channel} :
    Drawn (tierOf [c₀] retry) c ↔ c = c₀ := by
  have htier : tierOf [c₀] retry = [c₀] := by
    have hprio : targetPriority [c₀.getPriority] retry = c₀.getPriority :=
      List.mem_singleton.1 (targetPriority_mem (List.cons_ne_nil _ _) retry)
    unfold tierOf
    rw [List.map_cons, List.map_nil, hprio]
    simp
  rw [htier]
  unfold Drawn
  simp only [List.mem_singleton, forall_eq]
  constructor
  · exact fun h => h.1
  · rintro rfl
    exact ⟨rfl, by omega⟩

/-- **What the memory path returns for a list of ids**, as the cached channels they name. -/
theorem pickListed_iff (group model : String) (retry : ℕ) {ids : List ℕ}
    (hfound : ∀ id ∈ ids, (cache.channelsIDM id).isSome) (hne : ids ≠ []) :
    ∃ cs : List Channel, (∀ c, c ∈ cs ↔ ∃ id ∈ ids, cache.channelsIDM id = some c) ∧
      ∀ c, (∃ intn, Intn intn ∧ pickListed intn cache group model retry ids = .ok (some c)) ↔
          Drawn (tierOf cs retry) c := by
  obtain ⟨cs, hcs, hlen, hmem⟩ := mapM_get hfound
  refine ⟨cs, hmem, fun c => ?_⟩
  match ids, hne with
  | [id], _ =>
    obtain ⟨c₀, hc₀⟩ := Option.isSome_iff_exists.1 (hfound id List.mem_cons_self)
    obtain ⟨c₁, rfl⟩ := List.length_eq_one_iff.1 hlen
    have hsame : c₁ = c₀ := by
      have := (hmem c₁).1 List.mem_cons_self
      simpa [hc₀, eq_comm] using this
    subst hsame
    rw [drawn_singleton]
    have hpick : ∀ intn, pickListed intn cache group model retry [id] = .ok (some c₁) := by
      intro intn
      rw [pickListed, get_eq_ok hc₀]
      rfl
    constructor
    · rintro ⟨intn, -, h⟩
      rw [hpick] at h
      cases h
      rfl
    · rintro rfl
      exact ⟨fun _ => 0, fun n hn => hn, hpick _⟩
  | id :: id' :: rest, _ =>
    have hcsne : cs ≠ [] := by
      rw [← List.length_pos_iff, hlen]
      exact Nat.succ_pos _
    rw [← pickSatisfied_iff group model hcsne]
    refine exists_congr fun intn => and_congr_right fun _ => ?_
    simp only [pickListed, hcs]
    cases hp : pickSatisfied intn group model retry cs <;> simp [Except.map]

/-- What is drawn from copies of the channels is drawn from the channels. -/
theorem drawn_image {cands : List Channel} {f : Channel → Channel}
    (hprio : ∀ c, (f c).getPriority = c.getPriority) (hweight : ∀ c, (f c).getWeight = c.getWeight)
    (h : ∀ x, x ∈ cs ↔ ∃ c ∈ cands, f c = x) {x : Channel} :
    Drawn (tierOf cs retry) x ↔ ∃ c, Drawn (tierOf cands retry) c ∧ f c = x := by
  unfold Drawn
  simp only [mem_tierOf_image hprio h]
  have hzero : (∀ y, (∃ c ∈ tierOf cands retry, f c = y) → y.getWeight = 0) ↔
      ∀ c ∈ tierOf cands retry, c.getWeight = 0 := by
    constructor
    · intro hall c hc
      rw [← hweight]
      exact hall (f c) ⟨c, hc, rfl⟩
    · rintro hall y ⟨c, hc, rfl⟩
      rw [hweight]
      exact hall c hc
  rw [hzero]
  constructor
  · rintro ⟨⟨c, hc, rfl⟩, hw⟩
    exact ⟨c, ⟨hc, by rwa [hweight] at hw⟩, rfl⟩
  · rintro ⟨c, ⟨hc, hw⟩, rfl⟩
    exact ⟨⟨c, hc, rfl⟩, by rwa [hweight]⟩

/-- The name under which the memory path looks. -/
def lookupName (channels : List Channel) (group model : String) : String :=
  if candidates channels group model = [] then formatMatchingModelName model else model

section Cached

variable {jsonArray : String → Option (List String)}
  {sortSlice : ∀ key : ℕ → ℤ, Sorter ℕ fun a b => key b ≤ key a} {old : ℕ → Option Channel}
  {channels : List Channel} {abilities : List Ability} {cache : Cache}

theorem mem_listed_iff
    (hinit : initChannelCache jsonArray sortSlice old channels abilities = some cache)
    (g m : String) (id : ℕ) : id ∈ cache.listed g m ↔
      ∃ c ∈ candidates channels g m, c.id = id := by
  rw [mem_listed_initChannelCache hinit]
  simp only [mem_candidates, and_assoc]

theorem listed_eq_nil_iff
    (hinit : initChannelCache jsonArray sortSlice old channels abilities = some cache)
    (g m : String) : cache.listed g m = [] ↔ candidates channels g m = [] := by
  rw [List.eq_nil_iff_forall_not_mem, List.eq_nil_iff_forall_not_mem]
  simp only [mem_listed_iff hinit]
  constructor
  · intro h c hc
    exact h c.id ⟨c, hc, rfl⟩
  · rintro h id ⟨c, hc, -⟩
    exact h c hc

/-- **What the memory path can return**: the channels of the tier that have a weight, or all
of them if none has one. -/
theorem mem_cachedReturns (hids : DistinctIds channels)
    (hinit : initChannelCache jsonArray sortSlice old channels abilities = some cache)
    (group model : String) (retry id : ℕ) : id ∈ cachedReturns cache group model retry ↔
      ∃ c, Drawn (tier channels group (lookupName channels group model) retry) c ∧ c.id = id := by
  -- the ids the path works on are those listed under the name it looks for
  have hpath : ∀ intn, getRandomSatisfiedChannel intn cache group model retry =
      pickListed intn cache group model retry
        (cache.listed group (lookupName channels group model)) := by
    intro intn
    unfold getRandomSatisfiedChannel lookupName
    simp only [listed_eq_nil_iff hinit]
    split <;> rfl
  have hkeep := keepPolling_fields jsonArray old
  unfold cachedReturns tier
  simp only [Set.mem_ofPred_eq, hpath]
  generalize lookupName channels group model = name
  by_cases hnil : candidates channels group name = []
  · rw [hnil, (listed_eq_nil_iff hinit group name).2 hnil]
    constructor
    · rintro ⟨intn, c, -, h, -⟩
      cases h
    · rintro ⟨c, ⟨hc, -⟩, -⟩
      cases hc
  · have hfound : ∀ id ∈ cache.listed group name, (cache.channelsIDM id).isSome := by
      intro id hid
      obtain ⟨c, hc, hcid⟩ := (mem_listed_iff hinit group name id).1 hid
      have hby := (byId_eq_some hids).2 ⟨(mem_candidates.1 hc).1, hcid⟩
      rw [channelsIDM_eq hinit, hby]
      rfl
    obtain ⟨cs, hcs, hpick⟩ := pickListed_iff group model retry hfound
       (mt (listed_eq_nil_iff hinit group name).1 hnil)
    have himage : ∀ x, x ∈ cs ↔
        ∃ c ∈ candidates channels group name, keepPolling jsonArray old c = x := by
      intro x
      rw [hcs]
      simp only [mem_listed_iff hinit, channelsIDM_eq hinit, Option.map_eq_some_iff,
        byId_eq_some hids]
      constructor
      · rintro ⟨_, ⟨c, hc, rfl⟩, c', ⟨hc', hid⟩, rfl⟩
        rw [List.inj_on_of_nodup_map hids hc' (mem_candidates.1 hc).1 hid]
        exact ⟨c, hc, rfl⟩
      · rintro ⟨c, hc, rfl⟩
        exact ⟨c.id, ⟨c, hc, rfl⟩, c, ⟨(mem_candidates.1 hc).1, rfl⟩, rfl⟩
    have hdrawn : ∀ x, (∃ intn, Intn intn ∧
        pickListed intn cache group model retry (cache.listed group name) = .ok (some x)) ↔
          ∃ c, Drawn (tierOf (candidates channels group name) retry) c ∧
            keepPolling jsonArray old c = x := by
      intro x
      rw [hpick, drawn_image (fun c => (hkeep c).2.1) (fun c => (hkeep c).2.2) himage]
    constructor
    · rintro ⟨intn, x, hintn, hret, rfl⟩
      obtain ⟨c, hc, rfl⟩ := (hdrawn x).1 ⟨intn, hintn, hret⟩
      exact ⟨c, hc, (hkeep c).1.symm⟩
    · rintro ⟨c, hc, rfl⟩
      obtain ⟨intn, hintn, hret⟩ := (hdrawn (keepPolling jsonArray old c)).2 ⟨c, hc, rfl⟩
      exact ⟨intn, _, hintn, hret, (hkeep c).1⟩

end Cached

/-! ### The database path on abilities that mirror the channels -/

section Stored

variable {db : DB} {group model : String} {retry : ℕ}

theorem mem_enabledAbilities (hdb : Mirrors db) {a : Ability} :
    a ∈ enabledAbilities db group model ↔
      ∃ c ∈ candidates db.channels group model, c.ability group model = a := by
  unfold enabledAbilities
  rw [List.mem_filter, decide_eq_true_iff, hdb.mem_iff]
  simp only [mem_candidates]
  constructor
  · rintro ⟨⟨c, hc, hg, hm, ha⟩, rfl, rfl, hen⟩
    rw [ha] at hen
    exact ⟨c, ⟨hc, hen, hg, hm⟩, ha.symm⟩
  · rintro ⟨c, ⟨hc, hen, hg, hm⟩, rfl⟩
    exact ⟨⟨c, hc, hg, hm, rfl⟩, rfl, rfl, hen⟩

theorem enabledAbilities_eq_nil_iff (hdb : Mirrors db) :
    enabledAbilities db group model = [] ↔ candidates db.channels group model = [] := by
  rw [List.eq_nil_iff_forall_not_mem, List.eq_nil_iff_forall_not_mem]
  simp only [mem_enabledAbilities hdb]
  constructor
  · intro h c hc
    exact h _ ⟨c, hc, rfl⟩
  · rintro h _ ⟨c, hc, -⟩
    exact h c hc

/-- Without a retry the tier is that of the greatest priority. -/
theorem targetPriority_zero {ps : List ℤ} (hne : ps ≠ []) :
    some (targetPriority ps 0) = ps.max? := by
  rw [← ranks_head?]
  unfold targetPriority
  cases hranks : ranks ps with
  | nil => exact absurd (ranks_eq_nil.1 hranks) hne
  | cons p rest => simp

theorem getPriority_eq (hne : enabledAbilities db group model ≠ []) :
    getPriority db group model retry =
      .ok (targetPriority ((enabledAbilities db group model).map Ability.priority) retry) := by
  have hranks : ranks ((enabledAbilities db group model).map Ability.priority) ≠ [] :=
    mt ranks_eq_nil.1 (mt List.map_eq_nil_iff.1 hne)
  unfold getPriority targetPriority
  simp only [if_neg hranks]
  split <;> rfl

/-- The rows of the tier. -/
def tierRows (db : DB) (group model : String) (retry : ℕ) : List Ability :=
  (enabledAbilities db group model).filter fun a => a.priority =
    targetPriority ((enabledAbilities db group model).map Ability.priority) retry

/-- **The query selects the tier.** -/
theorem getChannelQuery_eq (hne : enabledAbilities db group model ≠ []) :
    getChannelQuery db group model retry = .ok (tierRows db group model retry) := by
  unfold getChannelQuery tierRows
  by_cases hretry : retry = 0
  · subst hretry
    simp only [ne_eq, not_true_eq_false, if_false,
      ← targetPriority_zero (mt List.map_eq_nil_iff.1 hne), Option.some.injEq]
  · simp only [ne_eq, hretry, not_false_eq_true, if_true, getPriority_eq hne]

theorem mem_tierRows (hdb : Mirrors db) {a : Ability} :
    a ∈ tierRows db group model retry ↔
      ∃ c ∈ tier db.channels group model retry, c.ability group model = a := by
  have hprio : targetPriority ((enabledAbilities db group model).map Ability.priority) retry =
      targetPriority ((candidates db.channels group model).map Channel.getPriority) retry := by
    refine targetPriority_congr (fun p => ?_) retry
    simp only [List.mem_map, mem_enabledAbilities hdb]
    constructor
    · rintro ⟨_, ⟨c, hc, rfl⟩, rfl⟩
      exact ⟨c, hc, rfl⟩
    · rintro ⟨c, hc, rfl⟩
      exact ⟨_, ⟨c, hc, rfl⟩, rfl⟩
  unfold tierRows tier
  rw [List.mem_filter, decide_eq_true_iff, mem_enabledAbilities hdb, hprio]
  simp only [mem_tierOf]
  constructor
  · rintro ⟨⟨c, hc, rfl⟩, hp⟩
    exact ⟨c, ⟨hc, hp⟩, rfl⟩
  · rintro ⟨c, ⟨hc, hp⟩, rfl⟩
    exact ⟨⟨c, hc, rfl⟩, hp⟩

/-- **Every row is drawn by some number**: each weighs at least `10`. -/
theorem pickAbility_iff {abilities : List Ability} (hne : abilities ≠ [])
    (hfirst : ∀ a ∈ abilities, ∃ c, db.first a.channelId = some c) (id : ℕ) :
    (∃ intn c, Intn intn ∧ pickAbility intn db abilities = .ok (some c) ∧ c.id = id) ↔
      ∃ a ∈ abilities, a.channelId = id := by
  have hpos : 0 < (abilities.map fun a => a.weight + 10).sum := by
    cases abilities with
    | nil => exact absurd rfl hne
    | cons a rest =>
      rw [List.map_cons, List.sum_cons]
      omega
  have hid : ∀ {i c}, db.first i = some c → c.id = i := by
    intro i c h
    simpa using List.find?_some h
  -- the loop always stops: the drawn number is below the total
  have hpick : ∀ intn, Intn intn → ∃ a ∈ abilities,
      draw (fun r => r ≤ 0) (fun a : Ability => a.weight + 10)
        (intn (abilities.map fun a => a.weight + 10).sum : ℕ) abilities = some a ∧
      ∃ c, db.first a.channelId = some c ∧ pickAbility intn db abilities = .ok (some c) := by
    intro intn hintn
    obtain ⟨a, ha⟩ := Option.isSome_iff_exists.1 (draw_le_zero_isSome (hintn _ hpos))
    obtain ⟨c, hc⟩ := hfirst a (mem_of_draw ha)
    refine ⟨a, mem_of_draw ha, ha, c, hc, ?_⟩
    unfold pickAbility
    simp only [if_neg hne, ha, Option.map_some, Option.getD_some, hc]
  constructor
  · rintro ⟨intn, c, hintn, hret, rfl⟩
    obtain ⟨a, ha, -, c', hc', hret'⟩ := hpick intn hintn
    rw [hret] at hret'
    cases hret'
    exact ⟨a, ha, (hid hc').symm⟩
  · rintro ⟨a, ha, rfl⟩
    have hdraw := (exists_draw_le_zero_iff (w := fun a : Ability => a.weight + 10)
      fun a => by omega).2 ha
    obtain ⟨intn, hintn, heq⟩ := (exists_intn_iff hpos (P := fun d => draw (fun r => r ≤ 0)
      (fun a : Ability => a.weight + 10) d abilities = some a)).2 hdraw
    obtain ⟨a', -, ha', c, hc, hret⟩ := hpick intn hintn
    rw [heq] at ha'
    cases ha'
    exact ⟨intn, c, hintn, hret, hid hc⟩

/-- **What the database path can return**: every channel of the tier. -/
theorem mem_storedReturns (orderByWeight : Sorter Ability fun a b => b.weight ≤ a.weight)
    (hdb : Mirrors db) (group model : String) (retry id : ℕ) :
    id ∈ storedReturns orderByWeight db group model retry ↔
      ∃ c ∈ tier db.channels group model retry, c.id = id := by
  unfold storedReturns
  simp only [Set.mem_ofPred_eq]
  by_cases hnil : enabledAbilities db group model = []
  · -- no row: the answer is nil, or an error on a retry
    have hcands := (enabledAbilities_eq_nil_iff hdb).1 hnil
    unfold tier tierOf
    rw [hcands]
    constructor
    · rintro ⟨intn, c, -, hret, -⟩
      unfold getChannel getChannelQuery getPriority at hret
      rw [hnil] at hret
      by_cases hretry : retry = 0
      · simp [hretry, pickAbility, (orderByWeight.perm []).eq_nil] at hret
      · simp [hretry] at hret
    · rintro ⟨c, hc, -⟩
      cases hc
  · have hmem : ∀ a, a ∈ orderByWeight.sort (tierRows db group model retry) ↔
        ∃ c ∈ tier db.channels group model retry, c.ability group model = a := by
      intro a
      rw [Sorter.mem_sort, mem_tierRows hdb]
    obtain ⟨c₀, hc₀⟩ := List.exists_mem_of_ne_nil _
      (tierOf_ne_nil (mt (enabledAbilities_eq_nil_iff hdb).2 hnil) retry)
    have hfirst : ∀ a ∈ orderByWeight.sort (tierRows db group model retry),
        ∃ c, db.first a.channelId = some c := by
      intro a ha
      obtain ⟨c, hc, rfl⟩ := (hmem a).1 ha
      have hstored : c ∈ db.channels := (mem_candidates.1 (mem_tierOf.1 hc).1).1
      exact Option.ne_none_iff_exists'.1 fun h => first_eq_none h c hstored rfl
    unfold getChannel
    rw [getChannelQuery_eq hnil]
    simp only
    rw [pickAbility_iff (List.ne_nil_of_mem ((hmem _).2 ⟨c₀, hc₀, rfl⟩)) hfirst]
    simp only [hmem]
    constructor
    · rintro ⟨_, ⟨c, hc, rfl⟩, rfl⟩
      exact ⟨c, hc, rfl⟩
    · rintro ⟨c, hc, rfl⟩
      exact ⟨_, ⟨c, hc, rfl⟩, rfl⟩

end Stored

/-! ### The two paths against each other -/

/-- Where the abilities mirror the channels, every group has a row. -/
theorem groupsSeen_of_mirrors {db : DB} (hdb : Mirrors db) :
    GroupsSeen db.channels db.abilities := by
  intro c hc _ g hg
  obtain ⟨m, hm⟩ := List.exists_mem_of_ne_nil _ c.modelList_ne_nil
  exact ⟨c.ability g m, (hdb.mem_iff _).2 ⟨c, hc, hg, hm, rfl⟩, rfl⟩

theorem exists_drawn (hne : cs ≠ []) : ∃ c, Drawn cs c := by
  by_cases hzero : ∀ c ∈ cs, c.getWeight = 0
  · obtain ⟨c, hc⟩ := List.exists_mem_of_ne_nil _ hne
    exact ⟨c, hc, Or.inr hzero⟩
  · push Not at hzero
    obtain ⟨c, hc, hw⟩ := hzero
    exact ⟨c, hc, Or.inl (Nat.pos_of_ne_zero hw)⟩

/-- All of a tier is drawn exactly when its weights are all zero or all positive. -/
theorem forall_drawn_iff : (∀ c ∈ cs, Drawn cs c) ↔
    (∀ c ∈ cs, c.getWeight = 0) ∨ ∀ c ∈ cs, 0 < c.getWeight := by
  constructor
  · intro h
    by_cases hzero : ∀ c ∈ cs, c.getWeight = 0
    · exact Or.inl hzero
    · exact Or.inr fun c hc => (h c hc).2.resolve_right hzero
  · rintro (hzero | hpos) c hc
    · exact ⟨hc, Or.inr hzero⟩
    · exact ⟨hc, Or.inl (hpos c hc)⟩

/-- The members of a tier are told apart by their ids. -/
theorem forall_id_iff (hids : DistinctIds channels) (hcs : ∀ c ∈ cs, c ∈ channels) :
    (∀ id, (∃ c, Drawn cs c ∧ c.id = id) ↔ ∃ c ∈ cs, c.id = id) ↔ ∀ c ∈ cs, Drawn cs c := by
  constructor
  · intro h c hc
    obtain ⟨c', hc', hid⟩ := (h c.id).2 ⟨c, hc, rfl⟩
    rw [← List.inj_on_of_nodup_map hids (hcs c' hc'.1) (hcs c hc) hid]
    exact hc'
  · intro h id
    constructor
    · rintro ⟨c, hc, rfl⟩
      exact ⟨c, hc.1, rfl⟩
    · rintro ⟨c, hc, rfl⟩
      exact ⟨c, h c hc, rfl⟩

theorem mem_channels_of_mem_tier {g m : String} (hc : c ∈ tier channels g m retry) : c ∈ channels :=
  (mem_candidates.1 (mem_tierOf.1 hc).1).1

theorem tier_eq_nil_iff {g m : String} :
    tier channels g m retry = [] ↔ candidates channels g m = [] := by
  unfold tier
  constructor
  · intro h
    by_contra hne
    exact tierOf_ne_nil hne retry h
  · intro h
    rw [h]
    rfl

/-- **The two selectors.** On a database whose abilities mirror the channels, the cache is
built from it, and for every group, model and retry:

* the memory path can return the channels of the tier that have a weight, or all of them
  if none has one, where the tier is that of the normalised name if nothing lists the
  exact one;
* the database path can return every channel of the tier of the exact name;
* these are the same channels exactly when the fallback found nothing or was not needed,
  and the weights of the tier are all zero or all positive. -/
theorem returns_agree_iff (jsonArray : String → Option (List String))
    (sortSlice : ∀ key : ℕ → ℤ, Sorter ℕ fun a b => key b ≤ key a)
    (orderByWeight : Sorter Ability fun a b => b.weight ≤ a.weight) (old : ℕ → Option Channel)
    (db : DB) (hids : DistinctIds db.channels) (hdb : Mirrors db) :
    ∃ cache, initChannelCache jsonArray sortSlice old db.channels db.abilities = some cache ∧
      ∀ (group model : String) (retry : ℕ),
        (∀ id, id ∈ cachedReturns cache group model retry ↔
          ∃ c, Drawn (tier db.channels group (lookupName db.channels group model) retry) c ∧
            c.id = id) ∧
        (∀ id, id ∈ storedReturns orderByWeight db group model retry ↔
          ∃ c ∈ tier db.channels group model retry, c.id = id) ∧
        (cachedReturns cache group model retry = storedReturns orderByWeight db group model retry ↔
          (candidates db.channels group model = [] →
            candidates db.channels group (formatMatchingModelName model) = []) ∧
          ((∀ c ∈ tier db.channels group model retry, c.getWeight = 0) ∨
            ∀ c ∈ tier db.channels group model retry, 0 < c.getWeight)) := by
  have hsome : (initChannelCache jsonArray sortSlice old db.channels db.abilities).isSome :=
    initChannelCache_isSome.2 (groupsSeen_of_mirrors hdb)
  obtain ⟨cache, hinit⟩ := Option.isSome_iff_exists.1 hsome
  refine ⟨cache, hinit, fun group model retry => ?_⟩
  have hcached := mem_cachedReturns hids hinit group model retry
  have hstored := mem_storedReturns orderByWeight hdb group model retry
  refine ⟨hcached, hstored, ?_⟩
  rw [Set.ext_iff]
  simp only [hcached, hstored]
  unfold lookupName
  by_cases hnil : candidates db.channels group model = []
  · -- nothing lists the exact name: only the memory path goes on
    rw [if_pos hnil, tier_eq_nil_iff.2 hnil]
    simp only [hnil, List.not_mem_nil, false_and, exists_false, iff_false, true_implies,
      IsEmpty.forall_iff, implies_true, or_self, and_true]
    constructor
    · intro h
      by_contra hne
      obtain ⟨c, hc⟩ := exists_drawn (mt tier_eq_nil_iff.1 hne)
      exact h c.id ⟨c, hc, rfl⟩
    · rintro h id ⟨c, hc, -⟩
      rw [tier_eq_nil_iff.2 h] at hc
      cases hc.1
  · rw [if_neg hnil, forall_id_iff hids fun c => mem_channels_of_mem_tier, forall_drawn_iff]
    simp only [hnil, false_implies, true_and]

/-- An order by weight that keeps the table's order among equal weights. -/
def orderedByWeight : Sorter Ability fun a b => b.weight ≤ a.weight where
  sort := (Sorter.byKey fun a : Ability => (a.weight : ℤ)).sort
  perm := (Sorter.byKey fun a : Ability => (a.weight : ℤ)).perm
  sorted l := ((Sorter.byKey fun a : Ability => (a.weight : ℤ)).sorted l).imp Int.ofNat_le.1

/-- Two channels of one tier, one of them of weight `0`. -/
def twoWeights : DB :=
  let channels : List Channel :=
    [{ id := 1, status := 1, weight := some 5, models := "gpt-4o", group := "default" },
      { id := 2, status := 1, weight := some 0, models := "gpt-4o", group := "default" }]
  { channels, abilities := channels.flatMap Channel.newAbilities }

theorem returns_agree_iff_twoWeights :
    DistinctIds twoWeights.channels ∧ Mirrors twoWeights ∧
      ∃ cache, initChannelCache (fun _ => none) Sorter.byKey (fun _ => none) twoWeights.channels
          twoWeights.abilities = some cache ∧
        1 ∈ cachedReturns cache "default" "gpt-4o" 0 ∧
        2 ∉ cachedReturns cache "default" "gpt-4o" 0 := by
  have hids : DistinctIds twoWeights.channels := by decide
  have hdb : Mirrors twoWeights := by decide
  obtain ⟨cache, hinit, hreturns⟩ := returns_agree_iff (fun _ => none) Sorter.byKey
    orderedByWeight (fun _ => none) twoWeights hids hdb
  obtain ⟨hcached, -, -⟩ := hreturns "default" "gpt-4o" 0
  refine ⟨hids, hdb, cache, hinit, ?_, ?_⟩
  · rw [hcached]
    decide
  · rw [hcached]
    decide

/-- **The selectors differ**: the memory path never returns the channel of weight `0`, the
database path does. -/
theorem returns_differ_twoWeights :
    DistinctIds twoWeights.channels ∧ Mirrors twoWeights ∧
      ∃ cache, initChannelCache (fun _ => none) Sorter.byKey (fun _ => none) twoWeights.channels
          twoWeights.abilities = some cache ∧
        cachedReturns cache "default" "gpt-4o" 0 ≠
          storedReturns orderedByWeight twoWeights "default" "gpt-4o" 0 := by
  have hids : DistinctIds twoWeights.channels := by decide
  have hdb : Mirrors twoWeights := by decide
  have hsome : (initChannelCache (fun _ => none) Sorter.byKey (fun _ => none)
      twoWeights.channels twoWeights.abilities).isSome := by decide
  obtain ⟨cache, hinit⟩ := Option.isSome_iff_exists.1 hsome
  refine ⟨hids, hdb, cache, hinit, fun heq => ?_⟩
  have hstored : 2 ∈ storedReturns orderedByWeight twoWeights "default" "gpt-4o" 0 :=
    (mem_storedReturns orderedByWeight hdb "default" "gpt-4o" 0 2).2 (by decide)
  rw [← heq, mem_cachedReturns hids hinit] at hstored
  revert hstored
  decide

end NewApiPool.Routing
