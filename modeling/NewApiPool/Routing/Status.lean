import NewApiPool.Routing.Cache

/-!
# The status of a channel, cached and stored

`UpdateChannelStatus` with the memory cache on: the cached channel is changed first, then
the row. A channel with one key has a status of its own; of a channel with several keys the
call names one, and the channel's status follows from the list of its disabled keys. Three
things go wrong between the two halves.

* The stored half returns early when the row has the requested status, also for a channel
  with several keys, where that status says nothing about the key. The cached half has
  changed the list by then.
* When the last key is disabled, the cached channel is marked disabled but stays in
  `group2model2channels`: only the half for single keys takes it out.
* That one takes out one listing per group and model, and a channel that names a model
  twice has two.

`Faithful` says of a call, from the state before it, that none of the three happens, and
`coherent_run_iff` that these are all: along a run that starts from a cache just built, cache
and table agree after every call exactly when every call is faithful.
-/

namespace NewApiPool.Routing

open Choice EventSystem

/-! ### The two halves of a call -/

/-- The index of the key a call is about: the first one that matches, `0` if none does. -/
def keyIndex (keys : List String) (usingKey : String) : ℕ :=
  (keys.findIdx? fun key => key == usingKey).getD 0

/-- The status list with the entry of one key set; an enabled key has none. -/
def StatusList.mark (l : StatusList) (index : ℕ) (status : ℤ) : StatusList :=
  if status = channelStatusEnabled then l.erase index else l.insert index status

/-- The `len` of a status list. -/
def StatusList.len (l : StatusList) : ℤ := l.keys.card

def handlerMultiKeyUpdate (jsonArray : String → Option (List String)) (c : Channel)
    (usingKey : String) (status : ℤ) : Channel :=
  let keys := c.getKeys jsonArray
  if keys = [] then { c with status := status }
  else
    let list := c.channelInfo.multiKeyStatusList.mark (keyIndex keys usingKey) status
    let c := { c with channelInfo.multiKeyStatusList := list }
    if c.channelInfo.multiKeySize ≤ list.len then
      { c with status := channelStatusAutoDisabled }
    else c

/-- `CacheUpdateChannelStatus`: a channel that is not enabled any more leaves the lists, one
listing in each. -/
def cacheUpdateChannelStatus (cache : Cache) (id : ℕ) (status : ℤ) : Cache where
  channelsIDM := Function.update cache.channelsIDM id
    ((cache.channelsIDM id).map fun c => { c with status := status })
  group2model2channels :=
    if status = channelStatusEnabled then cache.group2model2channels
    else fun g => (cache.group2model2channels g).map fun models m =>
      (models m).map fun ids => ids.erase id

/-- The cached half. `none` is a return before the stored half. -/
def updateCached (jsonArray : String → Option (List String)) (cache : Cache) (id : ℕ)
    (usingKey : String) (status : ℤ) : Option Cache :=
  match cache.channelsIDM id with
  | none => none
  | some c =>
    if c.channelInfo.isMultiKey then
      some { cache with
        channelsIDM := Function.update cache.channelsIDM id
          (some (handlerMultiKeyUpdate jsonArray c usingKey status)) }
    else if c.status = status then none
    else some (cacheUpdateChannelStatus cache id status)

/-- `Channel.SaveWithoutKey`: every column but the key. The parsed keys are no column. -/
def DB.saveWithoutKey (db : DB) (c : Channel) : DB :=
  db.updateChannels (fun row => row.id == c.id) fun row =>
    { c with key := row.key, keys := row.keys }

def DB.updateAbilityStatus (db : DB) (id : ℕ) (status : Bool) : DB :=
  db.updateAbilityRows (fun a => a.channelId == id) fun a => { a with enabled := status }

/-- The stored half, with the answer of the call. -/
def updateStored (jsonArray : String → Option (List String)) (db : DB) (id : ℕ)
    (usingKey : String) (status : ℤ) : DB × Bool :=
  match db.first id with
  | none => (db, false)
  | some channel =>
    if channel.status = status then (db, false)
    else if channel.channelInfo.isMultiKey then
      let updated := handlerMultiKeyUpdate jsonArray channel usingKey status
      let db := db.saveWithoutKey updated
      -- the abilities follow only where the status of the channel changed
      if channel.status ≠ updated.status then
        (db.updateAbilityStatus id (status == channelStatusEnabled), true)
      else (db, true)
    else
      ((db.saveWithoutKey { channel with status := status }).updateAbilityStatus id
        (status == channelStatusEnabled), true)

/-- **`UpdateChannelStatus`**, with the memory cache on (`some`) or off. -/
def updateChannelStatus (jsonArray : String → Option (List String)) (memory : Option Cache)
    (db : DB) (id : ℕ) (usingKey : String) (status : ℤ) : Option Cache × DB × Bool :=
  match memory with
  | none => (none, updateStored jsonArray db id usingKey status)
  | some cache =>
    match updateCached jsonArray cache id usingKey status with
    | none => (some cache, db, false)
    | some cache => (some cache, updateStored jsonArray db id usingKey status)

/-! ### Runs with the memory cache on -/

/-- The cache and the tables. -/
structure Synced where
  cache : Cache
  db : DB

/-- The arguments of a call. -/
structure StatusCall where
  id : ℕ
  usingKey : String
  status : ℤ

/-- **One call of `UpdateChannelStatus`.** -/
def statusStep (jsonArray : String → Option (List String)) (s : Synced) (call : StatusCall) :
    Synced :=
  match updateChannelStatus jsonArray (some s.cache) s.db call.id call.usingKey call.status with
  | (some cache, db, _) => { cache, db }
  | (none, db, _) => { s with db }

/-- **Cache and table agree**: on the status and the status list of every cached channel, and
what is not enabled is not listed. -/
structure Coherent (s : Synced) : Prop where
  agree : ∀ id c, s.cache.channelsIDM id = some c → ∃ row, s.db.first id = some row ∧
    c.status = row.status ∧
    c.channelInfo.multiKeyStatusList = row.channelInfo.multiKeyStatusList
  listed : ∀ id c, s.cache.channelsIDM id = some c → c.isEnabled = false →
    ∀ g m, id ∉ s.cache.listed g m

/-- The entry of a key is what a call would make it. -/
def StatusList.Marked (l : StatusList) (index : ℕ) (status : ℤ) : Prop :=
  l.lookup index = if status = channelStatusEnabled then none else some status

/-- **A call does not fall into one of the gaps**, told from the state before it.

* Several keys, and the channel has the requested status already: there are no keys, or the
  key is marked so already and the list is not full, unless the channel is marked for that.
* Several keys otherwise: an enabled channel that is listed stays enabled.
* Single key: the call changes nothing, or enables, or the channel is listed at most once
  under each of its names. -/
def FaithfulFor (jsonArray : String → Option (List String)) (cache : Cache) (c : Channel)
    (call : StatusCall) : Prop :=
  (c.channelInfo.isMultiKey = true → c.status = call.status →
    c.getKeys jsonArray = [] ∨
    (c.channelInfo.multiKeyStatusList.Marked
        (keyIndex (c.getKeys jsonArray) call.usingKey) call.status ∧
      (c.channelInfo.multiKeySize ≤ c.channelInfo.multiKeyStatusList.len →
        c.status = channelStatusAutoDisabled))) ∧
  (c.channelInfo.isMultiKey = true → c.status ≠ call.status →
    c.isEnabled = false ∨
    (∀ g ∈ c.groupList, ∀ m ∈ c.modelList, call.id ∉ cache.listed g m) ∨
    (c.getKeys jsonArray ≠ [] ∧
      StatusList.len (c.channelInfo.multiKeyStatusList.insert
        (keyIndex (c.getKeys jsonArray) call.usingKey) call.status) <
          c.channelInfo.multiKeySize)) ∧
  (c.channelInfo.isMultiKey = false →
    c.status = call.status ∨ call.status = channelStatusEnabled ∨
    ∀ g ∈ c.groupList, ∀ m ∈ c.modelList, (cache.listed g m).count call.id ≤ 1)

/-- The same for the channel the call names, if there is one. -/
def Faithful (jsonArray : String → Option (List String)) (s : Synced) (call : StatusCall) :
    Prop :=
  ∀ c ∈ s.cache.channelsIDM call.id, FaithfulFor jsonArray s.cache c call

instance (l : StatusList) (index : ℕ) (status : ℤ) : Decidable (l.Marked index status) :=
  inferInstanceAs
    (Decidable (l.lookup index = if status = channelStatusEnabled then none else some status))

instance (jsonArray : String → Option (List String)) (cache : Cache) (c : Channel)
    (call : StatusCall) : Decidable (FaithfulFor jsonArray cache c call) :=
  @instDecidableAnd _ _ inferInstance (@instDecidableAnd _ _ inferInstance inferInstance)

instance (jsonArray : String → Option (List String)) (s : Synced) (call : StatusCall) :
    Decidable (Faithful jsonArray s call) :=
  inferInstanceAs (Decidable (∀ c ∈ s.cache.channelsIDM call.id, _))

/-! ### One channel through a call -/

section Handler

variable (jsonArray : String → Option (List String)) (c : Channel) (usingKey : String) (status : ℤ)

theorem handlerMultiKeyUpdate_status :
    (handlerMultiKeyUpdate jsonArray c usingKey status).status =
      if c.getKeys jsonArray = [] then status
      else if c.channelInfo.multiKeySize ≤ StatusList.len (c.channelInfo.multiKeyStatusList.mark
          (keyIndex (c.getKeys jsonArray) usingKey) status) then channelStatusAutoDisabled
      else c.status := by
  unfold handlerMultiKeyUpdate
  simp only
  split
  · rfl
  · split <;> rfl

theorem handlerMultiKeyUpdate_list :
    (handlerMultiKeyUpdate jsonArray c usingKey status).channelInfo.multiKeyStatusList =
      if c.getKeys jsonArray = [] then c.channelInfo.multiKeyStatusList
      else c.channelInfo.multiKeyStatusList.mark
        (keyIndex (c.getKeys jsonArray) usingKey) status := by
  unfold handlerMultiKeyUpdate
  simp only
  split
  · rfl
  · split <;> rfl

/-- Nothing but the status and the status list changes. -/
theorem handlerMultiKeyUpdate_frame :
    ∃ list status', handlerMultiKeyUpdate jsonArray c usingKey status =
      { c with status := status', channelInfo.multiKeyStatusList := list } := by
  unfold handlerMultiKeyUpdate
  simp only
  split
  · exact ⟨_, _, rfl⟩
  · split <;> exact ⟨_, _, rfl⟩

end Handler

@[simp] theorem lookup_mark (l : StatusList) (i : ℕ) (status : ℤ) :
    (l.mark i status).lookup i = if status = channelStatusEnabled then none else some status := by
  unfold StatusList.mark
  split
  · exact Finmap.lookup_erase i l
  · exact Finmap.lookup_insert l

theorem lookup_mark_of_ne (l : StatusList) {i k : ℕ} (hne : k ≠ i) (status : ℤ) :
    (l.mark i status).lookup k = l.lookup k := by
  unfold StatusList.mark
  split
  · exact Finmap.lookup_erase_ne hne
  · exact Finmap.lookup_insert_of_ne l hne

/-- A list in which the key is marked already stays as it is. -/
theorem mark_eq_self_iff {l : StatusList} {i : ℕ} {status : ℤ} :
    l.mark i status = l ↔ l.Marked i status := by
  unfold StatusList.Marked
  constructor
  · intro h
    rw [← lookup_mark l i status, h]
  · intro h
    refine Finmap.ext_lookup fun j => ?_
    by_cases hj : j = i
    · subst hj
      rw [lookup_mark, h]
    · exact lookup_mark_of_ne l hj status

/-- What a call makes of a channel it changes, cached or stored. -/
def changed (jsonArray : String → Option (List String)) (c : Channel) (usingKey : String)
    (status : ℤ) : Channel :=
  if c.channelInfo.isMultiKey then handlerMultiKeyUpdate jsonArray c usingKey status
  else { c with status := status }

theorem changed_frame (jsonArray : String → Option (List String)) (c : Channel)
    (usingKey : String) (status : ℤ) :
    ∃ list status', changed jsonArray c usingKey status =
      { c with status := status', channelInfo.multiKeyStatusList := list } := by
  unfold changed
  split
  · exact handlerMultiKeyUpdate_frame jsonArray c usingKey status
  · exact ⟨_, _, rfl⟩

/-- **A cached channel and its row**: the same in everything a call reads. -/
structure SameAs (jsonArray : String → Option (List String)) (c row : Channel) : Prop where
  status : c.status = row.status
  list : c.channelInfo.multiKeyStatusList = row.channelInfo.multiKeyStatusList
  isMultiKey : c.channelInfo.isMultiKey = row.channelInfo.isMultiKey
  size : c.channelInfo.multiKeySize = row.channelInfo.multiKeySize
  keys : c.getKeys jsonArray = row.getKeys jsonArray

variable {jsonArray : String → Option (List String)} {row : Channel}

/-- **Changed by the same call, they stay the same.** -/
theorem SameAs.changed {c : Channel} (h : SameAs jsonArray c row) (usingKey : String) (status : ℤ) :
    SameAs jsonArray (changed jsonArray c usingKey status)
      (changed jsonArray row usingKey status) := by
  obtain ⟨l, st, hc⟩ := changed_frame jsonArray c usingKey status
  obtain ⟨l', st', hrow⟩ := changed_frame jsonArray row usingKey status
  refine ⟨?_, ?_, ?_, ?_, ?_⟩
  · unfold Routing.changed
    rw [← h.isMultiKey]
    split
    · rw [handlerMultiKeyUpdate_status, handlerMultiKeyUpdate_status, h.keys, h.list, h.size,
        h.status]
    · rfl
  · unfold Routing.changed
    rw [← h.isMultiKey]
    split
    · rw [handlerMultiKeyUpdate_list, handlerMultiKeyUpdate_list, h.keys, h.list]
    · exact h.list
  · rw [hc, hrow]
    exact h.isMultiKey
  · rw [hc, hrow]
    exact h.size
  · rw [hc, hrow]
    exact h.keys

/-! ### The stored half -/

/-- A saved row is the one that was loaded, with the columns that were set. -/
theorem first_saveWithoutKey (db : DB) (c : Channel) (i : ℕ) :
    (db.saveWithoutKey c).first i =
      if i = c.id then (db.first i).map fun row => { c with key := row.key, keys := row.keys }
      else db.first i := by
  unfold DB.saveWithoutKey
  refine DB.first_updateChannels db ?_ i
  intro row _
  rfl

/-- **What the stored half does to the rows**, where it does not return early. -/
theorem first_updateStored {db : DB} {id : ℕ}
    {usingKey : String} {status : ℤ} (hrow : db.first id = some row)
    (hne : row.status ≠ status) (i : ℕ) :
    (updateStored jsonArray db id usingKey status).1.first i =
      if i = id then some (changed jsonArray row usingKey status) else db.first i := by
  have hid := DB.id_of_first hrow
  obtain ⟨l, st, hchanged⟩ := changed_frame jsonArray row usingKey status
  -- the save writes back what was loaded, so the row is the changed one
  have hsave : ∀ b, ((db.saveWithoutKey (changed jsonArray row usingKey status)).updateAbilityStatus
      id b).first i =
        if i = id then some (changed jsonArray row usingKey status) else db.first i := by
    intro b
    show (db.saveWithoutKey _).first i = _
    rw [first_saveWithoutKey, hchanged]
    simp only [hid]
    by_cases hi : i = id
    · subst hi
      simp [hrow]
    · simp [hi]
  have hsave' := hsave true
  unfold changed at hsave hsave'
  unfold updateStored changed
  simp only [hrow, if_neg hne]
  split
  · rename_i hmulti
    simp only [hmulti, if_true] at hsave hsave'
    split
    · exact hsave _
    · exact hsave'
  · rename_i hmulti
    simp only [hmulti] at hsave
    exact hsave _

theorem updateStored_of_status {db : DB} {id : ℕ}
    {usingKey : String} {status : ℤ} (hrow : db.first id = some row)
    (heq : row.status = status) : (updateStored jsonArray db id usingKey status).1 = db := by
  unfold updateStored
  simp only [hrow, if_pos heq]

/-! ### One call -/

section Step

variable {jsonArray : String → Option (List String)} {s : Synced} {call : StatusCall}

/-- The cache after a call that went through to the stored half. -/
def cacheAfter (jsonArray : String → Option (List String)) (cache : Cache) (c : Channel)
    (call : StatusCall) : Cache where
  channelsIDM := Function.update cache.channelsIDM call.id
    (some (changed jsonArray c call.usingKey call.status))
  group2model2channels :=
    if c.channelInfo.isMultiKey ∨ call.status = channelStatusEnabled then
      cache.group2model2channels
    else fun g => (cache.group2model2channels g).map fun models m =>
      (models m).map fun ids => ids.erase call.id

/-- **What one call does**: nothing, or the change to the cached channel and then the stored
half. -/
theorem statusStep_cases (jsonArray : String → Option (List String)) (s : Synced)
    (call : StatusCall) :
    (s.cache.channelsIDM call.id = none ∧ statusStep jsonArray s call = s) ∨
    ∃ c, s.cache.channelsIDM call.id = some c ∧
      ((c.channelInfo.isMultiKey = false ∧ c.status = call.status ∧
          statusStep jsonArray s call = s) ∨
        ((c.channelInfo.isMultiKey = true ∨ c.status ≠ call.status) ∧
          statusStep jsonArray s call =
            { cache := cacheAfter jsonArray s.cache c call
              db := (updateStored jsonArray s.db call.id call.usingKey call.status).1 })) := by
  unfold statusStep updateChannelStatus updateCached
  cases hc : s.cache.channelsIDM call.id with
  | none => exact Or.inl ⟨rfl, by simp [hc]⟩
  | some c =>
    refine Or.inr ⟨c, rfl, ?_⟩
    cases hmulti : c.channelInfo.isMultiKey with
    | true =>
      refine Or.inr ⟨Or.inl rfl, ?_⟩
      simp [cacheAfter, changed, hmulti, hc]
    | false =>
      by_cases hstatus : c.status = call.status
      · exact Or.inl ⟨rfl, hstatus, by simp [hc, hmulti, hstatus]⟩
      · refine Or.inr ⟨Or.inr hstatus, ?_⟩
        simp [cacheAfter, changed, hmulti, hstatus, cacheUpdateChannelStatus, hc]

/-- A list after a call: as it was, or without one listing of the channel. -/
theorem listed_cacheAfter (cache : Cache) (c : Channel) (call : StatusCall) (g m : String) :
    (cacheAfter jsonArray cache c call).listed g m =
      if c.channelInfo.isMultiKey ∨ call.status = channelStatusEnabled then cache.listed g m
      else (cache.listed g m).erase call.id := by
  unfold Cache.listed cacheAfter
  simp only
  split
  · rfl
  · unfold Index.listed
    cases hg : cache.group2model2channels g with
    | none => simp [hg]
    | some models => cases hm : models m <;> simp [hg, hm]

variable {c : Channel}

theorem mem_listed_of_cacheAfter {cache : Cache} {id : ℕ} {g m : String}
    (h : id ∈ (cacheAfter jsonArray cache c call).listed g m) : id ∈ cache.listed g m := by
  rw [listed_cacheAfter] at h
  split at h
  · exact h
  · exact List.mem_of_mem_erase h

/-! ### The invariant of a run -/

/-- **The invariant**: each cached channel is the same as its row, the lists name channels
under their own names, and what is not enabled is not listed. -/
structure StatusInv (jsonArray : String → Option (List String)) (s : Synced) : Prop where
  same : ∀ id c, s.cache.channelsIDM id = some c →
    ∃ row, s.db.first id = some row ∧ SameAs jsonArray c row
  names : ∀ id g m, id ∈ s.cache.listed g m →
    ∃ c, s.cache.channelsIDM id = some c ∧ g ∈ c.groupList ∧ m ∈ c.modelList
  listed : ∀ id c, s.cache.channelsIDM id = some c → c.isEnabled = false →
    ∀ g m, id ∉ s.cache.listed g m

theorem StatusInv.coherent (h : StatusInv jsonArray s) : Coherent s := by
  refine ⟨fun id c hc => ?_, h.listed⟩
  obtain ⟨row, hrow, hsame⟩ := h.same id c hc
  exact ⟨row, hrow, hsame.status, hsame.list⟩

/-- The groups and models of a channel are not touched by a call. -/
theorem changed_names (jsonArray : String → Option (List String)) (c : Channel) (usingKey : String)
    (status : ℤ) : (changed jsonArray c usingKey status).groupList = c.groupList ∧
      (changed jsonArray c usingKey status).modelList = c.modelList := by
  obtain ⟨l, st, h⟩ := changed_frame jsonArray c usingKey status
  rw [h]
  exact ⟨rfl, rfl⟩

/-- A call that asks for the status the channel has, and is faithful, changes nothing. -/
theorem changed_of_faithful (hmulti : c.channelInfo.isMultiKey = true)
    (hstatus : c.status = call.status) (h : FaithfulFor jsonArray s.cache c call) :
    (changed jsonArray c call.usingKey call.status).status = c.status ∧
      (changed jsonArray c call.usingKey call.status).channelInfo.multiKeyStatusList =
        c.channelInfo.multiKeyStatusList := by
  unfold changed
  rw [if_pos hmulti, handlerMultiKeyUpdate_status, handlerMultiKeyUpdate_list]
  rcases h.1 hmulti hstatus with hnil | ⟨hmarked, hfull⟩
  · rw [if_pos hnil, if_pos hnil]
    exact ⟨hstatus.symm, rfl⟩
  · rw [mark_eq_self_iff.2 hmarked]
    refine ⟨?_, ite_self _⟩
    split
    · exact hstatus.symm
    · split
      · rename_i hle
        exact (hfull hle).symm
      · rfl

/-- **A listed channel that a faithful call leaves disabled is taken out of the lists.** -/
theorem not_listed_of_faithful (hinv : StatusInv jsonArray s)
    (hc : s.cache.channelsIDM call.id = some c) (hf : FaithfulFor jsonArray s.cache c call)
    (hgo : c.channelInfo.isMultiKey = true ∨ c.status ≠ call.status)
    (hoff : (changed jsonArray c call.usingKey call.status).isEnabled = false) (g m : String) :
    call.id ∉ (cacheAfter jsonArray s.cache c call).listed g m := by
  intro hmem
  have hbefore := mem_listed_of_cacheAfter hmem
  obtain ⟨c', hc', hg, hm⟩ := hinv.names _ _ _ hbefore
  rw [hc] at hc'
  cases hc'
  -- it was listed, so it was enabled
  have hon : c.isEnabled = true := by
    by_contra hne
    exact hinv.listed _ c hc (Bool.eq_false_iff.2 hne) g m hbefore
  have hen : c.status = channelStatusEnabled := beq_iff_eq.1 hon
  cases hmulti : c.channelInfo.isMultiKey with
  | true =>
    by_cases hstatus : c.status = call.status
    · have hkept := (changed_of_faithful hmulti hstatus hf).1
      unfold Channel.isEnabled at hoff
      rw [hkept, hen] at hoff
      cases hoff
    · have hcall : ¬ call.status = channelStatusEnabled := fun h => hstatus (hen.trans h.symm)
      rcases hf.2.1 hmulti hstatus with hoff' | hnot | ⟨hkeys, hlen⟩
      · rw [hoff'] at hon
        cases hon
      · exact hnot g hg m hm hbefore
      · -- there is a key left, so the channel stays enabled
        unfold Channel.isEnabled changed at hoff
        rw [if_pos hmulti, handlerMultiKeyUpdate_status, if_neg hkeys] at hoff
        unfold StatusList.mark at hoff
        rw [if_neg hcall, if_neg (not_le.2 hlen), hen] at hoff
        cases hoff
  | false =>
    have hstatus : c.status ≠ call.status := by
      rcases hgo with h | h
      · rw [hmulti] at h
        cases h
      · exact h
    have hcall : ¬ call.status = channelStatusEnabled := fun h => hstatus (hen.trans h.symm)
    have hcount : (s.cache.listed g m).count call.id ≤ 1 := by
      rcases hf.2.2 hmulti with h | h | h
      · exact absurd h hstatus
      · exact absurd h hcall
      · exact h g hg m hm
    rw [listed_cacheAfter, if_neg (by simp [hmulti, hcall])] at hmem
    have hpos := List.count_pos_iff.2 hmem
    rw [List.count_erase_self] at hpos
    omega

/-- A channel of which nothing but the status and the status list was written, and these as
they were, is still the same as its row. -/
theorem sameAs_of_unchanged {row : Channel} (hsame : SameAs jsonArray c row) {usingKey : String}
    {status : ℤ} (hstatus : (changed jsonArray c usingKey status).status = c.status)
    (hlist : (changed jsonArray c usingKey status).channelInfo.multiKeyStatusList =
      c.channelInfo.multiKeyStatusList) :
    SameAs jsonArray (changed jsonArray c usingKey status) row := by
  obtain ⟨l, st, h⟩ := changed_frame jsonArray c usingKey status
  refine ⟨hstatus.trans hsame.status, hlist.trans hsame.list, ?_, ?_, ?_⟩
  · rw [h]
    exact hsame.isMultiKey
  · rw [h]
    exact hsame.size
  · rw [h]
    exact hsame.keys

theorem first_updateStored_of_ne {db : DB} {id i : ℕ} {usingKey : String} {status : ℤ}
    (hne : i ≠ id) : (updateStored jsonArray db id usingKey status).1.first i = db.first i := by
  cases hrow : db.first id with
  | none => simp only [updateStored, hrow]
  | some row =>
    by_cases hstatus : row.status = status
    · rw [updateStored_of_status hrow hstatus]
    · rw [first_updateStored hrow hstatus, if_neg hne]

/-- **A faithful call keeps the invariant.** -/
theorem statusInv_step (hinv : StatusInv jsonArray s) (hf : Faithful jsonArray s call) :
    StatusInv jsonArray (statusStep jsonArray s call) := by
  rcases statusStep_cases jsonArray s call with
    ⟨-, hstep⟩ | ⟨c, hc, ⟨-, -, hstep⟩ | ⟨hgo, hstep⟩⟩
  · rwa [hstep]
  · rwa [hstep]
  · rw [hstep]
    have hfor : FaithfulFor jsonArray s.cache c call := hf c hc
    obtain ⟨row, hrow, hsame⟩ := hinv.same _ c hc
    refine ⟨fun id c' hc' => ?_, fun id g m hmem => ?_, fun id c' hc' hoff g m => ?_⟩
    · by_cases hid : id = call.id
      · subst hid
        simp only [cacheAfter, Function.update_self, Option.some.injEq] at hc'
        subst hc'
        by_cases hstatus : row.status = call.status
        · -- the stored half returns early, and nothing was changed
          have hmulti : c.channelInfo.isMultiKey = true :=
            hgo.resolve_right fun h => h (hsame.status.trans hstatus)
          obtain ⟨hst, hlist⟩ := changed_of_faithful hmulti (hsame.status.trans hstatus) hfor
          refine ⟨row, ?_, sameAs_of_unchanged hsame hst hlist⟩
          simp only [updateStored_of_status hrow hstatus, hrow]
        · refine ⟨_, ?_, hsame.changed call.usingKey call.status⟩
          simp only [first_updateStored hrow hstatus, if_true]
      · simp only [cacheAfter, Function.update_of_ne hid] at hc'
        simp only [first_updateStored_of_ne hid]
        exact hinv.same id c' hc'
    · obtain ⟨c', hc', hg, hm⟩ := hinv.names id g m (mem_listed_of_cacheAfter hmem)
      by_cases hid : id = call.id
      · subst hid
        rw [hc] at hc'
        cases hc'
        obtain ⟨hgroups, hmodels⟩ := changed_names jsonArray c call.usingKey call.status
        refine ⟨_, Function.update_self _ _ _, ?_, ?_⟩
        · rwa [hgroups]
        · rwa [hmodels]
      · exact ⟨c', by simpa only [cacheAfter, Function.update_of_ne hid] using hc', hg, hm⟩
    · by_cases hid : id = call.id
      · subst hid
        simp only [cacheAfter, Function.update_self, Option.some.injEq] at hc'
        subst hc'
        exact not_listed_of_faithful hinv hc hfor hgo hoff g m
      · simp only [cacheAfter, Function.update_of_ne hid] at hc'
        exact fun hmem => hinv.listed id c' hc' hoff g m (mem_listed_of_cacheAfter hmem)

/-- **A call after which cache and table agree was faithful.** -/
theorem faithful_of_coherent (hinv : StatusInv jsonArray s)
    (hco : Coherent (statusStep jsonArray s call)) : Faithful jsonArray s call := by
  intro c hc
  obtain ⟨row, hrow, hsame⟩ := hinv.same _ c hc
  rcases statusStep_cases jsonArray s call with ⟨hnone, -⟩ | ⟨c', hc', hcases⟩
  · rw [hnone] at hc
    cases hc
  rw [hc] at hc'
  cases hc'
  rcases hcases with ⟨hsingle, hstatus, -⟩ | ⟨hgo, hstep⟩
  · refine ⟨fun h => ?_, fun h => ?_, fun _ => Or.inl hstatus⟩
    · rw [hsingle] at h
      cases h
    · rw [hsingle] at h
      cases h
  rw [hstep] at hco
  have hafter : (cacheAfter jsonArray s.cache c call).channelsIDM call.id =
      some (changed jsonArray c call.usingKey call.status) := by
    simp only [cacheAfter, Function.update_self]
  refine ⟨fun hmulti hstatus => ?_, fun hmulti hstatus => ?_, fun hsingle => ?_⟩
  · -- the stored half returned early, so the cached channel is as it was
    obtain ⟨row', hrow', hst, hlist⟩ := hco.agree _ _ hafter
    simp only [updateStored_of_status hrow (hsame.status.symm.trans hstatus), hrow,
      Option.some.injEq] at hrow'
    subst hrow'
    unfold changed at hst hlist
    rw [if_pos hmulti, ← hsame.status, handlerMultiKeyUpdate_status] at hst
    rw [if_pos hmulti, ← hsame.list, handlerMultiKeyUpdate_list] at hlist
    by_cases hnil : c.getKeys jsonArray = []
    · exact Or.inl hnil
    · rw [if_neg hnil] at hlist hst
      refine Or.inr ⟨mark_eq_self_iff.1 hlist, fun hfull => ?_⟩
      rw [hlist, if_pos hfull] at hst
      exact hst.symm
  · by_contra hcon
    push Not at hcon
    obtain ⟨hon, ⟨g, hg, m, hm, hmem⟩, hfull⟩ := hcon
    have hen : c.status = channelStatusEnabled := by
      simpa [Channel.isEnabled] using hon
    have hcall : ¬ call.status = channelStatusEnabled := fun h => hstatus (hen.trans h.symm)
    refine hco.listed _ _ hafter ?_ g m ?_
    · unfold Channel.isEnabled changed
      rw [if_pos hmulti, handlerMultiKeyUpdate_status]
      unfold StatusList.mark
      rw [if_neg hcall]
      by_cases hnil : c.getKeys jsonArray = []
      · rw [if_pos hnil]
        simpa using hcall
      · rw [if_neg hnil, if_pos (hfull hnil)]
        rfl
    · rw [listed_cacheAfter, if_pos (Or.inl hmulti)]
      exact hmem
  · by_contra hcon
    push Not at hcon
    obtain ⟨-, hcall, g, hg, m, hm, hcount⟩ := hcon
    refine hco.listed _ _ hafter ?_ g m ?_
    · unfold Channel.isEnabled changed
      simpa [hsingle] using hcall
    · rw [listed_cacheAfter, if_neg (by simp [hsingle, hcall]), ← List.count_pos_iff,
        List.count_erase_self]
      omega

end Step

/-! ### From a cache just built -/

/-- The keys a cached channel carries are those it would parse. -/
theorem getKeys_keepPolling (jsonArray : String → Option (List String))
    (old : ℕ → Option Channel) (c : Channel) :
    (keepPolling jsonArray old c).getKeys jsonArray = c.getKeys jsonArray := by
  obtain ⟨i, h⟩ := keepPolling_frame jsonArray old c
  rw [h]
  cases hmulti : c.channelInfo.isMultiKey with
  | false => rfl
  | true =>
    simp only [if_true, Channel.getKeys]
    by_cases hkey : c.key = ""
    · simp only [if_pos hkey]
    · simp only [if_neg hkey]
      by_cases hkeys : c.keys = []
      · simp only [hkeys, ne_eq, not_true_eq_false, if_false, ite_not]
        split
        · rfl
        · rfl
      · simp only [ne_eq, hkeys, not_false_eq_true, if_true]

theorem sameAs_keepPolling (jsonArray : String → Option (List String))
    (old : ℕ → Option Channel) (c : Channel) :
    SameAs jsonArray (keepPolling jsonArray old c) c := by
  have hkeys := getKeys_keepPolling jsonArray old c
  obtain ⟨i, h⟩ := keepPolling_frame jsonArray old c
  refine ⟨?_, ?_, ?_, ?_, hkeys⟩
  · rw [h]
  · rw [h]
  · rw [h]
  · rw [h]

/-- **A cache just built meets the invariant.** -/
theorem statusInv_init
    {sortSlice : ∀ key : ℕ → ℤ, Sorter ℕ fun a b => key b ≤ key a} {old : ℕ → Option Channel}
    {db : DB} (hids : DistinctIds db.channels) {cache : Cache}
    (hinit : initChannelCache jsonArray sortSlice old db.channels db.abilities = some cache) :
    StatusInv jsonArray { cache, db } := by
  have hcached : ∀ id c, cache.channelsIDM id = some c ↔
      ∃ row ∈ db.channels, row.id = id ∧ keepPolling jsonArray old row = c := by
    intro id c
    rw [channelsIDM_eq hinit, Option.map_eq_some_iff]
    simp only [byId_eq_some hids, and_assoc]
  refine ⟨fun id c hc => ?_, fun id g m hmem => ?_, fun id c hc hoff g m hmem => ?_⟩
  · obtain ⟨row, hrow, rfl, rfl⟩ := (hcached id c).1 hc
    exact ⟨row, first_of_mem hids hrow, sameAs_keepPolling jsonArray old row⟩
  · obtain ⟨row, hrow, -, hg, hm, hid⟩ := (mem_listed_initChannelCache hinit g m id).1 hmem
    refine ⟨_, (hcached id _).2 ⟨row, hrow, hid, rfl⟩, ?_⟩
    obtain ⟨i, h⟩ := keepPolling_frame jsonArray old row
    rw [h]
    exact ⟨hg, hm⟩
  · obtain ⟨row, hrow, hon, -, -, hid⟩ := (mem_listed_initChannelCache hinit g m id).1 hmem
    obtain ⟨row', hrow', hid', rfl⟩ := (hcached id c).1 hc
    rw [List.inj_on_of_nodup_map hids hrow' hrow (hid'.trans hid.symm)] at hoff
    unfold Channel.isEnabled at hon hoff
    rw [(sameAs_keepPolling jsonArray old row).status, hon] at hoff
    cases hoff

/-- **Cache and table agree after every call of a run exactly when every call is faithful**,
for every run that starts from a cache just built from the tables. -/
theorem coherent_run_iff (jsonArray : String → Option (List String))
    (sortSlice : ∀ key : ℕ → ℤ, Sorter ℕ fun a b => key b ≤ key a) (old : ℕ → Option Channel)
    (db : DB) (hids : DistinctIds db.channels) (cache : Cache)
    (hinit : initChannelCache jsonArray sortSlice old db.channels db.abilities = some cache)
    (calls : List StatusCall) :
    (∀ n, Coherent (run (statusStep jsonArray) { cache, db } (calls.take n))) ↔
      Along (statusStep jsonArray) (Faithful jsonArray) { cache, db } calls :=
  forall_take_iff (I := StatusInv jsonArray) (fun _ h => h.coherent)
    (fun _ _ h hf => statusInv_step h hf) (fun _ _ h hco => faithful_of_coherent h hco)
    (statusInv_init hids hinit) calls

/-- A channel with two keys. -/
def twoKeys : DB :=
  let channels : List Channel :=
    [{ id := 1, key := "k1\nk2", status := 1, models := "gpt-4o", group := "default"
       channelInfo := { isMultiKey := true, multiKeySize := 2, multiKeyMode := .polling } }]
  { channels, abilities := channels.flatMap Channel.newAbilities }

/-- The cache built for it. -/
def twoKeysCache : Cache :=
  (initChannelCache (fun _ => none) Sorter.byKey (fun _ => none) twoKeys.channels
    twoKeys.abilities).get (by decide)

/-- One of the two keys is disabled. -/
theorem coherent_run_one_key :
    DistinctIds twoKeys.channels ∧
      Coherent (run (statusStep fun _ => none) { cache := twoKeysCache, db := twoKeys }
        [⟨1, "k1", channelStatusAutoDisabled⟩]) :=
  ⟨by decide, (coherent_run_iff (fun _ => none) Sorter.byKey (fun _ => none) twoKeys (by decide)
    twoKeysCache (Option.some_get _).symm [⟨1, "k1", channelStatusAutoDisabled⟩]).2 (by decide) 1⟩

/-- **Both keys are disabled**: the cached channel is marked disabled, and stays listed. -/
theorem not_coherent_both_keys :
    DistinctIds twoKeys.channels ∧
      initChannelCache (fun _ => none) Sorter.byKey (fun _ => none) twoKeys.channels
        twoKeys.abilities = some twoKeysCache ∧
      ¬ Coherent (run (statusStep fun _ => none) { cache := twoKeysCache, db := twoKeys }
        [⟨1, "k1", channelStatusAutoDisabled⟩, ⟨1, "k2", channelStatusAutoDisabled⟩]) := by
  refine ⟨by decide, (Option.some_get _).symm, fun hco => ?_⟩
  have hlisted : 1 ∈ (run (statusStep fun _ => none) { cache := twoKeysCache, db := twoKeys }
      [⟨1, "k1", channelStatusAutoDisabled⟩,
        ⟨1, "k2", channelStatusAutoDisabled⟩]).cache.listed "default" "gpt-4o" := by decide
  obtain ⟨c, hc, hoff⟩ : ∃ c ∈ (run (statusStep fun _ => none)
      { cache := twoKeysCache, db := twoKeys } [⟨1, "k1", channelStatusAutoDisabled⟩,
        ⟨1, "k2", channelStatusAutoDisabled⟩]).cache.channelsIDM 1, c.isEnabled = false := by decide
  exact hco.listed 1 c hc hoff "default" "gpt-4o" hlisted

end NewApiPool.Routing
