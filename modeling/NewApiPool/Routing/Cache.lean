import Mathlib.Data.List.Nodup
import NewApiPool.Lib.Choice
import NewApiPool.Lib.Runs
import NewApiPool.Routing.Store

/-!
# Building the channel cache

`InitChannelCache` reads the channels, then the abilities, and builds two maps: every
channel by id, and for every group and model the ids of the enabled channels that list
them. The maps of the second level are made for the groups of the *abilities* and filled
from the *channels*; a write into a group that has no map is a write to a nil map, and the
process is gone. The two tables are written by operations that take several statements,
so that they can disagree whenever the two reads fall between those.

* `initChannelCache` – the function, on the contents of the two tables as they were read;
  `none` is the nil-map write.
* `foldlM_addListing_isSome`, `listed_of_foldlM` – what the loop over the channels needs
  and what it builds.
* `Writers.step` – the statements of `Insert`, `Update`, `Delete` and `FixAbility`, any
  number of them in flight.
* `initChannelCache_exact_iff` – for every interleaving of these and any two points of it as
  the two reads: the cache is built and is right exactly when the groups of the enabled
  channels occur in the abilities and no channel lists a name twice.
-/

namespace NewApiPool.Routing

open Choice EventSystem

/-! ### The cache -/

/-- `map[string]map[string][]int`. -/
abbrev Index := String → Option (String → Option (List ℕ))

/-- `m[group][model]`, where a missing entry reads as the empty list. -/
def Index.listed (ix : Index) (group model : String) : List ℕ :=
  ((ix group).bind fun models => models model).getD []

/-- `group2model2channels` and `channelsIDM`. -/
structure Cache where
  group2model2channels : Index
  channelsIDM : ℕ → Option Channel

/-- The channels listed for a group and a model. -/
def Cache.listed (cache : Cache) (group model : String) : List ℕ :=
  cache.group2model2channels.listed group model

/-- One iteration of the loop that fills the lists. -/
structure Listing where
  group : String
  model : String
  id : ℕ
  deriving DecidableEq

/-- The iterations of the three nested loops: the enabled channels, their groups, their
models. -/
def listings (channels : List Channel) : List Listing :=
  (channels.filter Channel.isEnabled).flatMap fun c =>
    c.groupList.flatMap fun g => c.modelList.map fun m => ⟨g, m, c.id⟩

/-- The maps of the second level, one for each group of the abilities. -/
def emptyIndex (abilities : List Ability) : Index := fun g =>
  if g ∈ abilities.map Ability.group then some fun _ => none else none

/-- The body of the innermost loop. Reading a nil map is fine; writing it is not. -/
def addListing (ix : Index) (l : Listing) : Option Index :=
  match ix l.group with
  | none => none
  | some models =>
    some (Function.update ix l.group
      (some (Function.update models l.model (some ((models l.model).getD [] ++ [l.id])))))

/-- `newChannelId2channel`, a map in which the last assignment to an id counts. -/
def byId (channels : List Channel) (id : ℕ) : Option Channel :=
  channels.reverse.find? fun c => c.id == id

/-- `newChannelId2channel[id].GetPriority()`. -/
def priorityOf (channels : List Channel) (id : ℕ) : ℤ :=
  ((byId channels id).map Channel.getPriority).getD 0

/-- What is done to a channel before it enters the cache: the keys are parsed, and where it
was polled before it goes on from the old index. -/
def keepPolling (jsonArray : String → Option (List String)) (old : ℕ → Option Channel)
    (c : Channel) : Channel :=
  if c.channelInfo.isMultiKey then
    let c := { c with keys := c.getKeys jsonArray }
    if c.channelInfo.multiKeyMode = .polling then
      match old c.id with
      | some o =>
        if o.channelInfo.isMultiKey ∧ o.channelInfo.multiKeyMode = .polling then
          { c with channelInfo.multiKeyPollingIndex := o.channelInfo.multiKeyPollingIndex }
        else c
      | none => c
    else c
  else c

/-- **`InitChannelCache`** on the two tables as they were read and the channels cached
before. The sorting routine is not stable, so it is a parameter. -/
def initChannelCache (jsonArray : String → Option (List String))
    (sortSlice : ∀ key : ℕ → ℤ, Sorter ℕ fun a b => key b ≤ key a) (old : ℕ → Option Channel)
    (channels : List Channel) (abilities : List Ability) : Option Cache :=
  match (listings channels).foldlM addListing (emptyIndex abilities) with
  | none => none
  | some ix =>
    some
      { group2model2channels := fun g => (ix g).map fun models m =>
          (models m).map (sortSlice (priorityOf channels)).sort
        channelsIDM := fun id => (byId channels id).map (keepPolling jsonArray old) }

/-! ### The channels by id -/

variable {channels : List Channel}

theorem byId_eq_some (hids : DistinctIds channels) {id : ℕ}
    {c : Channel} : byId channels id = some c ↔ c ∈ channels ∧ c.id = id := by
  unfold byId
  constructor
  · intro h
    have hid : c.id = id := by simpa using List.find?_some h
    exact ⟨List.mem_reverse.1 (List.mem_of_find?_eq_some h), hid⟩
  · rintro ⟨hc, rfl⟩
    -- something is found, and it is the channel since the ids are distinct
    cases hfind : channels.reverse.find? fun c' => c'.id == c.id with
    | none =>
      have := List.find?_eq_none.1 hfind c (List.mem_reverse.2 hc)
      simp at this
    | some c' =>
      have hid : c'.id = c.id := by simpa using List.find?_some hfind
      have hc' := List.mem_reverse.1 (List.mem_of_find?_eq_some hfind)
      rw [List.inj_on_of_nodup_map hids hc' hc hid]

section Keep

variable (jsonArray : String → Option (List String)) (old : ℕ → Option Channel) (c : Channel)

/-- What is done to a cached channel touches its keys and its polling index only. -/
theorem keepPolling_frame : ∃ i, keepPolling jsonArray old c =
    { c with
      keys := if c.channelInfo.isMultiKey then c.getKeys jsonArray else c.keys
      channelInfo.multiKeyPollingIndex := i } := by
  unfold keepPolling
  split
  · simp only
    split
    · split
      · split <;> exact ⟨_, rfl⟩
      · exact ⟨_, rfl⟩
    · exact ⟨_, rfl⟩
  · exact ⟨_, rfl⟩

theorem keepPolling_fields : (keepPolling jsonArray old c).id = c.id ∧
    (keepPolling jsonArray old c).getPriority = c.getPriority ∧
    (keepPolling jsonArray old c).getWeight = c.getWeight := by
  obtain ⟨i, h⟩ := keepPolling_frame jsonArray old c
  rw [h]
  exact ⟨rfl, rfl, rfl⟩

end Keep

/-! ### The loop over the channels -/

theorem addListing_isSome (ix : Index) (l : Listing) :
    (addListing ix l).isSome ↔ (ix l.group).isSome := by
  unfold addListing
  cases ix l.group <;> simp

variable {l : Listing}

theorem addListing_groups {ix ix' : Index} (h : addListing ix l = some ix')
    (g : String) : (ix' g).isSome = (ix g).isSome := by
  unfold addListing at h
  cases hmodels : ix l.group with
  | none =>
    rw [hmodels] at h
    cases h
  | some models =>
    rw [hmodels] at h
    cases h
    by_cases hg : g = l.group
    · subst hg
      rw [Function.update_self, hmodels]
      rfl
    · rw [Function.update_of_ne hg]

theorem listed_of_addListing {ix ix' : Index} (h : addListing ix l = some ix') (g m : String) :
    ix'.listed g m = ix.listed g m ++ if l.group = g ∧ l.model = m then [l.id] else [] := by
  unfold addListing at h
  cases hmodels : ix l.group with
  | none =>
    rw [hmodels] at h
    cases h
  | some models =>
    rw [hmodels] at h
    cases h
    unfold Index.listed
    by_cases hg : g = l.group
    · subst hg
      rw [Function.update_self, hmodels]
      by_cases hm : m = l.model
      · subst hm
        simp
      · simp [Function.update_of_ne hm, Ne.symm hm]
    · rw [Function.update_of_ne hg]
      simp [Ne.symm hg]

/-- **The loop gets through exactly when every listing finds a map for its group.** -/
theorem foldlM_addListing_isSome (ix : Index) (ls : List Listing) :
    (ls.foldlM addListing ix).isSome ↔ ∀ l ∈ ls, (ix l.group).isSome := by
  induction ls generalizing ix with
  | nil => simp
  | cons l ls ih =>
    rw [List.foldlM_cons, List.forall_mem_cons]
    cases hadd : addListing ix l with
    | none =>
      have hnone : ¬ (ix l.group).isSome := by
        rw [← addListing_isSome, hadd]
        simp
      simp [hnone]
    | some ix' =>
      have hsome : (ix l.group).isSome := by
        rw [← addListing_isSome, hadd]
        rfl
      -- the later iterations find the groups the first one found
      simp only [Option.bind_eq_bind, Option.bind_some, ih, addListing_groups hadd, hsome,
        true_and]

/-- **The lists the loop builds**, in the order of the iterations. -/
theorem listed_of_foldlM {ix ix' : Index} {ls : List Listing}
    (h : ls.foldlM addListing ix = some ix') (g m : String) :
    ix'.listed g m =
      ix.listed g m ++ (ls.filter fun l => l.group = g ∧ l.model = m).map Listing.id := by
  induction ls generalizing ix with
  | nil =>
    cases h
    simp
  | cons l ls ih =>
    rw [List.foldlM_cons] at h
    obtain ⟨ix₁, hadd, htail⟩ := Option.bind_eq_some_iff.1 h
    rw [ih htail, listed_of_addListing hadd, List.filter_cons]
    by_cases hl : l.group = g ∧ l.model = m <;> simp [hl]

@[simp] theorem listed_emptyIndex (abilities : List Ability) (g m : String) :
    (emptyIndex abilities).listed g m = [] := by
  unfold Index.listed emptyIndex
  split <;> rfl

theorem emptyIndex_isSome (abilities : List Ability) (g : String) :
    (emptyIndex abilities g).isSome ↔ ∃ a ∈ abilities, a.group = g := by
  unfold emptyIndex
  rw [← List.mem_map]
  split
  · rename_i h
    simp [h]
  · rename_i h
    simp [h]

/-! ### The listings of the channels -/

theorem mem_listings :
    l ∈ listings channels ↔ ∃ c ∈ channels, c.isEnabled ∧ l.group ∈ c.groupList ∧
      l.model ∈ c.modelList ∧ c.id = l.id := by
  unfold listings
  simp only [List.mem_flatMap, List.mem_filter, List.mem_map]
  constructor
  · rintro ⟨c, ⟨hc, hen⟩, g, hg, m, hm, rfl⟩
    exact ⟨c, hc, hen, hg, hm, rfl⟩
  · rintro ⟨c, hc, hen, hg, hm, hid⟩
    exact ⟨c, ⟨hc, hen⟩, l.group, hg, l.model, hm, by rw [hid]⟩

/-- One channel's iterations are distinct exactly when it lists no name twice. Neither of
its lists is empty, so each shows in the product. -/
theorem nodup_product_iff (c : Channel) :
    (c.groupList.flatMap fun g => c.modelList.map fun m => (⟨g, m, c.id⟩ : Listing)).Nodup ↔
      c.groupList.Nodup ∧ c.modelList.Nodup := by
  have hinj : ∀ g, Function.Injective fun m => (⟨g, m, c.id⟩ : Listing) := by
    intro g m m' h
    exact (Listing.mk.inj h).2.1
  obtain ⟨m₀, hm₀⟩ := List.exists_mem_of_ne_nil _ c.modelList_ne_nil
  obtain ⟨g₀, hg₀⟩ := List.exists_mem_of_ne_nil _ c.groupList_ne_nil
  rw [List.nodup_flatMap]
  constructor
  · rintro ⟨hmodels, hgroups⟩
    refine ⟨hgroups.imp ?_, List.Nodup.of_map _ (hmodels g₀ hg₀)⟩
    rintro g g' hdisj rfl
    have hmem : (⟨g, m₀, c.id⟩ : Listing) ∈ c.modelList.map fun m => ⟨g, m, c.id⟩ :=
      List.mem_map_of_mem hm₀
    exact hdisj hmem hmem
  · rintro ⟨hgroups, hmodels⟩
    refine ⟨fun g _ => hmodels.map (hinj g), hgroups.imp ?_⟩
    intro g g' hne l hl hl'
    obtain ⟨m, -, rfl⟩ := List.mem_map.1 hl
    obtain ⟨m', -, heq⟩ := List.mem_map.1 hl'
    exact hne (Listing.mk.inj heq).1.symm

/-- **No enabled channel lists a group or a model twice.** -/
def ListsOnce (channels : List Channel) : Prop :=
  ∀ c ∈ channels, c.isEnabled → c.groupList.Nodup ∧ c.modelList.Nodup

instance (channels : List Channel) : Decidable (ListsOnce channels) :=
  inferInstanceAs (Decidable (∀ c ∈ channels, _))

theorem nodup_listings_iff (hids : DistinctIds channels) :
    (listings channels).Nodup ↔ ListsOnce channels := by
  have hdisj : (channels.filter Channel.isEnabled).Pairwise (Function.onFun List.Disjoint fun c =>
      c.groupList.flatMap fun g => c.modelList.map fun m => (⟨g, m, c.id⟩ : Listing)) := by
    refine List.Pairwise.filter _ ?_
    refine (List.pairwise_map.1 hids).imp ?_
    intro c c' hne l hl hl'
    simp only [List.mem_flatMap, List.mem_map] at hl hl'
    obtain ⟨g, -, m, -, rfl⟩ := hl
    obtain ⟨g', -, m', -, heq⟩ := hl'
    exact hne (Listing.mk.inj heq).2.2.symm
  unfold listings ListsOnce
  rw [List.nodup_flatMap, and_iff_left hdisj]
  simp only [List.mem_filter, nodup_product_iff, and_imp]

/-- The lists by group and model have no repetition exactly when the listings have none. -/
theorem nodup_filter_iff (ls : List Listing) :
    (∀ g m, ((ls.filter fun l => l.group = g ∧ l.model = m).map Listing.id).Nodup) ↔
      ls.Nodup := by
  have hcount : ∀ g m id, ((ls.filter fun l => l.group = g ∧ l.model = m).map Listing.id).count id =
      ls.count ⟨g, m, id⟩ := by
    intro g m id
    rw [List.count_eq_countP, List.countP_map, List.countP_filter, List.count_eq_countP]
    refine List.countP_congr fun l _ => ?_
    cases l
    simp
    tauto
  constructor
  · intro h
    rw [List.nodup_iff_count_le_one]
    rintro ⟨g, m, id⟩
    rw [← hcount]
    exact List.nodup_iff_count_le_one.1 (h g m) id
  · intro h g m
    rw [List.nodup_iff_count_le_one]
    intro id
    rw [hcount]
    exact List.nodup_iff_count_le_one.1 h _

/-! ### What is built -/

/-- **The cache is right for the channels**: each list holds the enabled channels that list
its group and model, each once, by descending priority. -/
structure Exact (channels : List Channel) (cache : Cache) : Prop where
  mem_iff : ∀ g m id, id ∈ cache.listed g m ↔
    ∃ c ∈ channels, c.isEnabled ∧ g ∈ c.groupList ∧ m ∈ c.modelList ∧ c.id = id
  nodup : ∀ g m, (cache.listed g m).Nodup
  sorted : ∀ g m, (cache.listed g m).Pairwise fun a b =>
    priorityOf channels b ≤ priorityOf channels a

/-- **Every group of an enabled channel occurs in the abilities.** -/
def GroupsSeen (channels : List Channel) (abilities : List Ability) : Prop :=
  ∀ c ∈ channels, c.isEnabled → ∀ g ∈ c.groupList, ∃ a ∈ abilities, a.group = g

instance (channels : List Channel) (abilities : List Ability) :
    Decidable (GroupsSeen channels abilities) :=
  inferInstanceAs (Decidable (∀ c ∈ channels, _))

section Init

variable {jsonArray : String → Option (List String)}
  {sortSlice : ∀ key : ℕ → ℤ, Sorter ℕ fun a b => key b ≤ key a} {old : ℕ → Option Channel}
  {channels : List Channel} {abilities : List Ability}

/-- **The function gets through exactly when the groups were seen.** -/
theorem initChannelCache_isSome :
    (initChannelCache jsonArray sortSlice old channels abilities).isSome ↔
      GroupsSeen channels abilities := by
  have hloop : ((listings channels).foldlM addListing (emptyIndex abilities)).isSome ↔
      GroupsSeen channels abilities := by
    rw [foldlM_addListing_isSome]
    simp only [emptyIndex_isSome, mem_listings]
    constructor
    · intro h c hc hen g hg
      -- a channel has at least one model, so each of its groups is written
      obtain ⟨m, hm⟩ := List.exists_mem_of_ne_nil _ c.modelList_ne_nil
      exact h ⟨g, m, c.id⟩ ⟨c, hc, hen, hg, hm, rfl⟩
    · rintro h l ⟨c, hc, hen, hg, -, -⟩
      exact h c hc hen l.group hg
  rw [← hloop]
  unfold initChannelCache
  cases (listings channels).foldlM addListing (emptyIndex abilities) <;> rfl

variable {cache : Cache}

/-- **A list of the cache is the sorted list of its listings.** -/
theorem listed_initChannelCache
    (h : initChannelCache jsonArray sortSlice old channels abilities = some cache) (g m : String) :
    cache.listed g m = (sortSlice (priorityOf channels)).sort
      (((listings channels).filter fun l => l.group = g ∧ l.model = m).map Listing.id) := by
  unfold initChannelCache at h
  cases hloop : (listings channels).foldlM addListing (emptyIndex abilities) with
  | none =>
    rw [hloop] at h
    cases h
  | some ix =>
    rw [hloop] at h
    cases h
    have hlist := listed_of_foldlM hloop g m
    rw [listed_emptyIndex, List.nil_append] at hlist
    rw [← hlist]
    have hnil : (sortSlice (priorityOf channels)).sort [] = [] :=
      ((sortSlice (priorityOf channels)).perm []).eq_nil
    unfold Cache.listed Index.listed
    cases hmodels : ix g with
    | none => simp [hmodels, hnil]
    | some models => cases hids : models m <;> simp [hmodels, hids, hnil]

theorem channelsIDM_eq
    (hinit : initChannelCache jsonArray sortSlice old channels abilities = some cache) (id : ℕ) :
    cache.channelsIDM id = (byId channels id).map (keepPolling jsonArray old) := by
  unfold initChannelCache at hinit
  split at hinit
  · cases hinit
  · cases hinit
    rfl

theorem mem_listed_initChannelCache
    (h : initChannelCache jsonArray sortSlice old channels abilities = some cache)
    (g m : String) (id : ℕ) : id ∈ cache.listed g m ↔
      ∃ c ∈ channels, c.isEnabled ∧ g ∈ c.groupList ∧ m ∈ c.modelList ∧ c.id = id := by
  rw [listed_initChannelCache h, Sorter.mem_sort, List.mem_map]
  simp only [List.mem_filter, mem_listings, decide_eq_true_eq]
  constructor
  · rintro ⟨l, ⟨⟨c, hc, hen, hg, hm, hid⟩, rfl, rfl⟩, rfl⟩
    exact ⟨c, hc, hen, hg, hm, hid⟩
  · rintro ⟨c, hc, hen, hg, hm, rfl⟩
    exact ⟨⟨g, m, c.id⟩, ⟨⟨c, hc, hen, hg, hm, rfl⟩, rfl, rfl⟩, rfl⟩

/-- **What is built is right exactly when no channel lists a name twice.** -/
theorem exact_initChannelCache_iff (hids : DistinctIds channels)
    (h : initChannelCache jsonArray sortSlice old channels abilities = some cache) :
    Exact channels cache ↔ ListsOnce channels := by
  have hnodup : (∀ g m, (cache.listed g m).Nodup) ↔ ListsOnce channels := by
    rw [← nodup_listings_iff hids, ← nodup_filter_iff]
    simp only [listed_initChannelCache h, ((sortSlice _).perm _).nodup_iff]
  constructor
  · intro hexact
    exact hnodup.1 hexact.nodup
  · intro honce
    refine ⟨mem_listed_initChannelCache h, hnodup.2 honce, fun g m => ?_⟩
    rw [listed_initChannelCache h]
    exact (sortSlice _).sorted _

end Init

/-! ### The writers

What an operation has still to do, cut at its statements: what stands between two of them
is what a reader can see. `UpdateAbilities` is one transaction, so its delete and its
creates are seen together. -/

/-- The calls. The id of an inserted channel is the one the database gives it. -/
inductive Op
  | insert (c : Channel)
  | update (c : Channel)
  | delete (id : ℕ)
  | fixAbility

/-- The next statement of a writer, with the data it has read. -/
inductive Writer
  /-- `Insert`, before `Create`. -/
  | insert (c : Channel)
  /-- `AddAbilities`, with the chunks that are not stored yet. -/
  | addAbilities (chunks : List (List Ability))
  /-- `Update`, before the key of a multi-key channel is looked up. -/
  | update (c : Channel)
  /-- Before `Updates`. -/
  | updates (c : Channel)
  /-- Before the channel is read again. -/
  | reload (c : Channel)
  | updateAbilities (c : Channel)
  | delete (id : ℕ)
  | deleteAbilities (id : ℕ)
  /-- `FixAbility`, before it takes its lock. -/
  | fixAbility
  | truncate
  | find
  /-- Before the old rows of the next chunk of channels are deleted. -/
  | deleteChunk (chunks : List (List Channel))
  /-- The statements of the `AddAbilities` calls for one chunk, and the chunks after it. -/
  | fixChunk (rows : List (List Ability)) (chunks : List (List Channel))
  | done

/-- Where a call starts. -/
def Op.start : Op → Writer
  | insert c => .insert c
  | update c => .update c
  | delete id => .delete id
  | fixAbility => .fixAbility

/-- The tables, the writers in flight, and `fixLock`. -/
structure Writers where
  db : DB
  writers : List Writer := []
  fixLock : Bool := false

namespace Writers

/-- **One statement of one writer.** -/
def exec (jsonArray : String → Option (List String)) (db : DB) (fixLock : Bool) :
    Writer → DB × Bool × Writer
  | .insert c =>
    -- a taken id is a primary key conflict, and `Insert` returns it
    if (db.first c.id).isSome then (db, fixLock, .done)
    else (db.create c, fixLock, .addAbilities (c.withDefaults.newAbilities.toChunks 50))
  | .addAbilities [] => (db, fixLock, .done)
  | .addAbilities (rows :: chunks) => (db.createAbilities rows, fixLock, .addAbilities chunks)
  | .update c =>
    if c.channelInfo.isMultiKey then
      let keyStr := if c.key ≠ "" then c.key else ((db.first c.id).map Channel.key).getD ""
      (db, fixLock, .updates (c.recount jsonArray keyStr))
    else (db, fixLock, .updates c)
  -- a struct without an id is an update without a condition, which the ORM refuses
  | .updates c =>
    if c.id = 0 then (db, fixLock, .done) else (db.updates c, fixLock, .reload c)
  -- the error of this read is dropped: a channel that is gone goes on as the caller gave it
  | .reload c => (db, fixLock, .updateAbilities ((db.first c.id).getD c))
  | .updateAbilities c => (db.updateAbilities c, fixLock, .done)
  | .delete id =>
    if id = 0 then (db, fixLock, .done)
    else (db.deleteChannels fun c => c.id == id, fixLock, .deleteAbilities id)
  | .deleteAbilities id => (db.deleteAbilities id, fixLock, .done)
  | .fixAbility => if fixLock then (db, fixLock, .done) else (db, true, .truncate)
  | .truncate => (db.deleteAbilityRows fun _ => true, fixLock, .find)
  | .find => (db, fixLock, .deleteChunk (db.channels.toChunks 50))
  | .deleteChunk [] => (db, false, .done)
  | .deleteChunk (chunk :: chunks) =>
    (db.deleteAbilityRows fun a => a.channelId ∈ chunk.map Channel.id, fixLock,
      .fixChunk (chunk.flatMap fun c => c.newAbilities.toChunks 50) chunks)
  | .fixChunk [] chunks => (db, fixLock, .deleteChunk chunks)
  | .fixChunk (rows :: rest) chunks => (db.createAbilities rows, fixLock, .fixChunk rest chunks)
  | .done => (db, fixLock, .done)

/-- An event: a call arrives, or one of the writers runs its next statement. -/
inductive Event
  | call (op : Op)
  | statement (i : ℕ)

/-- **One event**: a call begins to write channels, or a writer executes its next statement, in the
database or in the cache. -/
def step (jsonArray : String → Option (List String)) (s : Writers) : Event → Writers
  | .call op => { s with writers := s.writers ++ [op.start] }
  | .statement i =>
    match s.writers[i]? with
    | none => s
    | some w =>
      let (db, fixLock, next) := exec jsonArray s.db s.fixLock w
      { db, fixLock, writers := s.writers.set i next }

end Writers

/-! #### The primary key along a run -/

variable {db : DB}

theorem first_eq_none {id : ℕ} (h : db.first id = none) :
    ∀ c ∈ db.channels, c.id ≠ id := by
  intro c hc heq
  have hfind := List.find?_eq_none.1 h c hc
  simp [heq] at hfind

theorem first_of_mem (hids : DistinctIds db.channels) {c : Channel}
    (hc : c ∈ db.channels) : db.first c.id = some c := by
  cases hfirst : db.first c.id with
  | none => exact absurd rfl (first_eq_none hfirst c hc)
  | some c' =>
    have hmem := List.mem_of_find?_eq_some hfirst
    rw [List.inj_on_of_nodup_map hids hmem hc (DB.id_of_first hfirst)]

theorem distinctIds_create (h : DistinctIds db.channels) (c : Channel) :
    DistinctIds (db.create c).channels := by
  unfold DB.create
  cases hfirst : db.first c.id with
  | some c' => simpa using h
  | none =>
    have hnew := first_eq_none hfirst
    unfold DistinctIds at h ⊢
    simp only [Option.isSome_none, Bool.false_eq_true, if_false, List.map_append, List.map_cons,
      List.map_nil, Channel.withDefaults_id]
    rw [List.nodup_append]
    refine ⟨h, List.nodup_singleton _, ?_⟩
    intro id hid id' hid'
    obtain ⟨c', hc', rfl⟩ := List.mem_map.1 hid
    rw [List.mem_singleton.1 hid']
    exact hnew c' hc'

theorem distinctIds_updateChannels (h : DistinctIds db.channels) (cond : Channel → Bool)
    {f : Channel → Channel} (hf : ∀ c, (f c).id = c.id) :
    DistinctIds (db.updateChannels cond f).channels := by
  unfold DistinctIds DB.updateChannels
  have hids : (fun c => (if cond c then f c else c).id) = Channel.id := by
    funext c
    split
    · exact hf c
    · rfl
  rw [List.map_map, Function.comp_def, hids]
  exact h

theorem distinctIds_deleteChannels (h : DistinctIds db.channels)
    (cond : Channel → Bool) : DistinctIds (db.deleteChannels cond).channels :=
  h.sublist (List.filter_sublist.map _)

/-- **One statement keeps the ids distinct.** -/
theorem distinctIds_exec (jsonArray : String → Option (List String)) {fixLock : Bool}
    (h : DistinctIds db.channels) (w : Writer) :
    DistinctIds (Writers.exec jsonArray db fixLock w).1.channels := by
  cases w with
  | insert c =>
    simp only [Writers.exec]
    split
    · exact h
    · exact distinctIds_create h c
  | addAbilities chunks => cases chunks <;> exact h
  | update c =>
    simp only [Writers.exec]
    split <;> exact h
  | updates c =>
    simp only [Writers.exec]
    split
    · exact h
    · exact distinctIds_updateChannels h _ fun row => Channel.patch_id row c
  | delete id =>
    simp only [Writers.exec]
    split
    · exact h
    · exact distinctIds_deleteChannels h _
  | fixAbility =>
    simp only [Writers.exec]
    split <;> exact h
  | deleteChunk chunks => cases chunks <;> exact h
  | fixChunk rows chunks => cases rows <;> exact h
  | reload c | updateAbilities c | deleteAbilities id | truncate | find | done => exact h

/-- **The primary key holds along every run.** -/
theorem distinctIds_run (jsonArray : String → Option (List String)) {s : Writers}
    (h : DistinctIds s.db.channels) (es : List Writers.Event) :
    DistinctIds (run (Writers.step jsonArray) s es).db.channels := by
  refine inv_run_always (I := fun s : Writers => DistinctIds s.db.channels) ?_ h es
  intro s e hs
  cases e with
  | call op => exact hs
  | statement i =>
    unfold Writers.step
    cases hw : s.writers[i]? with
    | none => simpa only [hw] using hs
    | some w => simpa only [hw] using distinctIds_exec jsonArray hs w

/-! ### Two reads in a run -/

/-- **The cache is built, and is right, exactly when the two contents that were read agree on
the groups and no channel lists a name twice**: for every interleaving of the writers'
statements, with the channels read at any point of it and the abilities at any later one. -/
theorem initChannelCache_exact_iff (jsonArray : String → Option (List String))
    (sortSlice : ∀ key : ℕ → ℤ, Sorter ℕ fun a b => key b ≤ key a) (old : ℕ → Option Channel)
    (s : Writers) (hs : DistinctIds s.db.channels) (es fs : List Writers.Event) :
    let channels := (run (Writers.step jsonArray) s es).db.channels
    let abilities := (run (Writers.step jsonArray) s (es ++ fs)).db.abilities
    (∃ cache, initChannelCache jsonArray sortSlice old channels abilities = some cache ∧
        Exact channels cache) ↔
      GroupsSeen channels abilities ∧ ListsOnce channels := by
  intro channels abilities
  have hids : DistinctIds channels := distinctIds_run jsonArray hs es
  constructor
  · rintro ⟨cache, hinit, hexact⟩
    refine ⟨?_, (exact_initChannelCache_iff hids hinit).1 hexact⟩
    exact initChannelCache_isSome.1 (Option.isSome_iff_exists.2 ⟨cache, hinit⟩)
  · rintro ⟨hgroups, honce⟩
    have hsome : (initChannelCache jsonArray sortSlice old channels abilities).isSome :=
      initChannelCache_isSome.2 hgroups
    obtain ⟨cache, hinit⟩ := Option.isSome_iff_exists.1 hsome
    exact ⟨cache, hinit, (exact_initChannelCache_iff hids hinit).2 honce⟩

/-- A channel of a group no other channel has. -/
def newGroupChannel : Channel := { id := 1, models := "gpt-4o", group := "vip" }

/-- `Insert` has run to its end before the two reads. -/
theorem initChannelCache_exact_after_insert :
    let es : List Writers.Event := [.call (.insert newGroupChannel), .statement 0, .statement 0]
    DistinctIds [] ∧
      ∃ cache, initChannelCache (fun _ => none) Sorter.byKey (fun _ => none)
          (run (Writers.step fun _ => none) ⟨⟨[], []⟩, [], false⟩ es).db.channels
          (run (Writers.step fun _ => none) ⟨⟨[], []⟩, [], false⟩ (es ++ [])).db.abilities =
            some cache ∧
        Exact (run (Writers.step fun _ => none) ⟨⟨[], []⟩, [], false⟩ es).db.channels cache :=
  ⟨by decide, (initChannelCache_exact_iff (fun _ => none) Sorter.byKey (fun _ => none)
    ⟨⟨[], []⟩, [], false⟩ (by decide) _ []).2 (by decide)⟩

/-- **`Insert` has stored the channel, but not yet its abilities**, when the two reads
come: the group has no map, and writing into it is a nil-map write. -/
theorem initChannelCache_nil_map_write :
    let es : List Writers.Event := [.call (.insert newGroupChannel), .statement 0]
    ¬ ∃ cache, initChannelCache (fun _ => none) Sorter.byKey (fun _ => none)
          (run (Writers.step fun _ => none) ⟨⟨[], []⟩, [], false⟩ es).db.channels
          (run (Writers.step fun _ => none) ⟨⟨[], []⟩, [], false⟩ (es ++ [])).db.abilities =
            some cache ∧
        Exact (run (Writers.step fun _ => none) ⟨⟨[], []⟩, [], false⟩ es).db.channels cache := by
  rintro es ⟨cache, hinit, -⟩
  have hpanic : (initChannelCache (fun _ => none) Sorter.byKey (fun _ => none)
      (run (Writers.step fun _ => none) ⟨⟨[], []⟩, [], false⟩ es).db.channels
      (run (Writers.step fun _ => none) ⟨⟨[], []⟩, [], false⟩ (es ++ [])).db.abilities).isSome =
        false := by
    decide
  rw [hinit] at hpanic
  cases hpanic

end NewApiPool.Routing
