import Mathlib.Data.Finset.Basic
import NewApiPool.Routing.Status

/-!
# Polling the keys of a channel, without the memory cache

A request loads the channel, `GetNextEnabledKey` picks the next enabled key by the status
list *it loaded*, and `SaveChannelInfo` writes the whole `channel_info` back for the sake of
the polling index. `UpdateChannelStatus` loads, marks one key and saves the whole row. Each
is a read and a later write of one column, and the locks do not span the two: the polling
lock is taken after the load, and the status lock only with the memory cache on.

* `Pool.step` – one database access of one call; any number of calls, on any channels.
* `Pool.disabled` – the keys a call has disabled and none has enabled since. Only the
  statement looks at it.
* `Safe` – these keys are marked in the stored list, and no request was given one that was
  among them when it loaded the channel.
* `safe_run_iff` – this holds in every state of a run exactly when at every save each
  disabled key was marked already in what the saving call had loaded, or is the key the
  call is about.
-/

namespace NewApiPool.Routing

open EventSystem

/-! ### Choosing a key -/

/-- `getStatus`: an index without an entry is enabled. -/
def StatusList.getStatus (l : StatusList) (i : ℕ) : ℤ := (l.lookup i).getD channelStatusEnabled

/-- The indices of the enabled keys. -/
def enabledIdx (l : StatusList) (keys : List String) : List ℕ :=
  (List.range keys.length).filter fun i => l.getStatus i = channelStatusEnabled

/-- The loop of the polling mode: the first enabled index from `start` on, around the end. -/
def pollFrom (l : StatusList) (n start : ℕ) : Option ℕ :=
  ((List.range n).map fun i => (start + i) % n).find? fun i => l.getStatus i = channelStatusEnabled

/-- The saved index, or `0` where it is out of range. -/
def pollStart (n : ℕ) (index : ℤ) : ℕ := if index < 0 ∨ (n : ℤ) ≤ index then 0 else index.toNat

/-- What `GetNextEnabledKey` does before its first access to the database: it has an answer,
or the channel is polled and the index has to be read. `draw` is the random number of the
random mode. -/
def chooseKey (jsonArray : String → Option (List String)) (c : Channel) (draw : ℕ) :
    Option (Except String (String × ℕ)) :=
  if ¬ c.channelInfo.isMultiKey then some (.ok (c.key, 0))
  else
    let keys := c.getKeys jsonArray
    if keys = [] then some (.error "no keys available")
    else
      let enabled := enabledIdx c.channelInfo.multiKeyStatusList keys
      if enabled = [] then some (.error "no enabled keys")
      else
        match c.channelInfo.multiKeyMode with
        | .random =>
          let i := enabled.getD (draw % enabled.length) 0
          some (.ok (keys.getD i "", i))
        | .polling => none
        | .other _ =>
          let i := enabled.getD 0 0
          some (.ok (keys.getD i "", i))

/-- The rest of it in the polling mode: the key, and the channel with the next index. The
index comes from the row as it is now, the statuses from the channel that was loaded. -/
def pollKey (jsonArray : String → Option (List String)) (c : Channel) (index : ℤ) :
    (String × ℕ) × Channel :=
  let keys := c.getKeys jsonArray
  match pollFrom c.channelInfo.multiKeyStatusList keys.length (pollStart keys.length index) with
  | some i =>
    ((keys.getD i "", i),
      { c with channelInfo.multiKeyPollingIndex := ((i + 1) % keys.length : ℕ) })
  | none =>
    let i := (enabledIdx c.channelInfo.multiKeyStatusList keys).getD 0 0
    ((keys.getD i "", i), c)

def DB.saveChannelInfo (db : DB) (c : Channel) : DB :=
  db.updateChannels (fun row => row.id == c.id) fun row => { row with channelInfo := c.channelInfo }

/-! ### The calls in flight -/

/-- A call between two accesses to the database. A request carries the keys that were
disabled when it loaded the channel. -/
inductive Call
  /-- The channel is loaded, and the polling lock not taken yet. -/
  | loaded (c : Channel) (seen : Finset ℕ)
  /-- The key is chosen, the lock is held, and the index is not saved yet. -/
  | polled (c : Channel) (seen : Finset ℕ) (answer : String × ℕ)
  /-- The request has its answer. -/
  | answered (c : Channel) (seen : Finset ℕ) (answer : Except String (String × ℕ))
  /-- `UpdateChannelStatus` has loaded the channel and not saved it yet. -/
  | updating (c : Channel) (usingKey : String) (status : ℤ)
  /-- The row is saved, and the abilities not updated yet. -/
  | saved (id : ℕ) (status : ℤ)
  | returned

/-- The tables, the calls, and for each channel the keys that were disabled and not enabled
since. -/
structure Pool where
  db : DB
  calls : List Call := []
  disabled : ℕ → Finset ℕ

namespace Pool

/-- An event: a request loads a channel, `UpdateChannelStatus` is called and loads it, or a
call makes its next access. -/
inductive Event
  | request (id : ℕ)
  | update (id : ℕ) (usingKey : String) (status : ℤ)
  | access (i draw : ℕ)

/-- The polling lock of a channel is held. -/
def locked (calls : List Call) (id : ℕ) : Bool :=
  calls.any fun call => match call with
    | .polled c _ _ => c.id == id
    | _ => false

/-- What the save of `UpdateChannelStatus` says about the keys of the channel. -/
def recordKey (jsonArray : String → Option (List String)) (c : Channel) (usingKey : String)
    (status : ℤ) (disabled : Finset ℕ) : Finset ℕ :=
  let keys := c.getKeys jsonArray
  if c.channelInfo.isMultiKey ∧ keys ≠ [] then
    if status = channelStatusEnabled then disabled.erase (keyIndex keys usingKey)
    else insert (keyIndex keys usingKey) disabled
  else disabled

/-- **One access of one call** of `GetNextEnabledKey`: its answer, where the mode needs no index, or
else the lock of the channel, the index that is read, and the one that is saved. -/
def access (jsonArray : String → Option (List String)) (s : Pool) (i draw : ℕ) : Call → Pool
  | .loaded c seen =>
    match chooseKey jsonArray c draw with
    | some answer => { s with calls := s.calls.set i (.answered c seen answer) }
    | none =>
      -- the call waits for the lock, then reads the row for its index
      if locked s.calls c.id then s
      else
        match s.db.first c.id with
        | none =>
          { s with calls := s.calls.set i (.answered c seen (.error "record not found")) }
        | some row =>
          let (answer, c) := pollKey jsonArray c row.channelInfo.multiKeyPollingIndex
          { s with calls := s.calls.set i (.polled c seen answer) }
  | .polled c seen answer =>
    { s with
      db := s.db.saveChannelInfo c
      calls := s.calls.set i (.answered c seen (.ok answer)) }
  | .updating c usingKey status =>
    let updated := changed jsonArray c usingKey status
    let next : Call :=
      if ¬ c.channelInfo.isMultiKey ∨ c.status ≠ updated.status then .saved c.id status
      else .returned
    { db := s.db.saveWithoutKey updated
      calls := s.calls.set i next
      disabled := Function.update s.disabled c.id
        (recordKey jsonArray c usingKey status (s.disabled c.id)) }
  | .saved id status =>
    { s with
      db := s.db.updateAbilityStatus id (status == channelStatusEnabled)
      calls := s.calls.set i .returned }
  | .answered _ _ _ => s
  | .returned => s

/-- **One event**: a request loads a channel, `UpdateChannelStatus` is called for one of its keys,
or a call makes its next access. -/
def step (jsonArray : String → Option (List String)) (s : Pool) : Event → Pool
  | .request id =>
    match s.db.first id with
    | none => s
    | some row => { s with calls := s.calls ++ [.loaded row (s.disabled id)] }
  | .update id usingKey status =>
    match s.db.first id with
    | none => s
    | some row =>
      -- a row that has the status already is a return before anything is done
      if row.status = status then s
      else { s with calls := s.calls ++ [.updating row usingKey status] }
  | .access i draw =>
    match s.calls[i]? with
    | none => s
    | some call => access jsonArray s i draw call

end Pool

/-- **A call that nothing interrupts is `UpdateChannelStatus`** as `Routing.Status` has it. -/
theorem update_alone (jsonArray : String → Option (List String)) (db : DB)
    (disabled : ℕ → Finset ℕ) (id : ℕ) (usingKey : String) (status : ℤ) :
    (run (Pool.step jsonArray) { db, disabled }
      [.update id usingKey status, .access 0 0, .access 0 0]).db =
        (updateStored jsonArray db id usingKey status).1 := by
  unfold updateStored
  cases hrow : db.first id with
  | none => simp [Pool.step, hrow]
  | some row =>
    have hid := DB.id_of_first hrow
    by_cases hstatus : row.status = status
    · simp [Pool.step, hrow, hstatus]
    · cases hmulti : row.channelInfo.isMultiKey with
      | false => simp [Pool.step, Pool.access, hrow, hstatus, hmulti, changed, hid]
      | true =>
        by_cases hchanged :
          row.status = (handlerMultiKeyUpdate jsonArray row usingKey status).status
        · simp [Pool.step, Pool.access, hrow, hstatus, hmulti, changed, ← hchanged]
        · simp [Pool.step, Pool.access, hrow, hstatus, hmulti, changed, hchanged, hid]

/-! ### The statement, and when it holds -/

/-- **Disabled keys stay disabled**: they are marked in the stored list, and no request was
given one that was disabled when it loaded the channel. -/
structure Safe (s : Pool) : Prop where
  marked : ∀ id, ∀ k ∈ s.disabled id, ∃ row, s.db.first id = some row ∧
    row.channelInfo.multiKeyStatusList.getStatus k ≠ channelStatusEnabled
  answers : ∀ c seen key k, .answered c seen (.ok (key, k)) ∈ s.calls →
    c.channelInfo.isMultiKey → k ∉ seen

/-- **The save a call makes next is not stale**: each disabled key of the channel is marked
in what the call loaded, or is the key the call is about. -/
def FreshCall (jsonArray : String → Option (List String)) (disabled : ℕ → Finset ℕ) : Call → Prop
  | .polled c _ _ => ∀ k ∈ disabled c.id,
    c.channelInfo.multiKeyStatusList.getStatus k ≠ channelStatusEnabled
  | .updating c usingKey _ => ∀ k ∈ disabled c.id,
    c.channelInfo.multiKeyStatusList.getStatus k ≠ channelStatusEnabled ∨
      ((c.channelInfo.isMultiKey ∧ c.getKeys jsonArray ≠ []) ∧
        k = keyIndex (c.getKeys jsonArray) usingKey)
  | .loaded _ _ => True
  | .answered _ _ _ => True
  | .saved _ _ => True
  | .returned => True

/-- No event is a stale save. -/
def NotStale (jsonArray : String → Option (List String)) (s : Pool) : Pool.Event → Prop
  | .access i _ => ∀ call ∈ s.calls[i]?, FreshCall jsonArray s.disabled call
  | .request _ => True
  | .update _ _ _ => True

instance (jsonArray : String → Option (List String)) (disabled : ℕ → Finset ℕ) :
    ∀ call, Decidable (FreshCall jsonArray disabled call)
  | .polled c _ _ => inferInstanceAs (Decidable (∀ k ∈ disabled c.id, _ ≠ _))
  | .updating c _ _ => inferInstanceAs (Decidable (∀ k ∈ disabled c.id, _ ≠ _ ∨ (_ ∧ _) ∧ _ = _))
  | .loaded _ _ => inferInstanceAs (Decidable True)
  | .answered _ _ _ => inferInstanceAs (Decidable True)
  | .saved _ _ => inferInstanceAs (Decidable True)
  | .returned => inferInstanceAs (Decidable True)

instance (jsonArray : String → Option (List String)) (s : Pool) :
    ∀ e, Decidable (NotStale jsonArray s e)
  | .access i _ => inferInstanceAs (Decidable (∀ call ∈ s.calls[i]?, _))
  | .request _ => inferInstanceAs (Decidable True)
  | .update _ _ _ => inferInstanceAs (Decidable True)

/-! ### The list through a call -/

theorem getStatus_mark_of_ne (l : StatusList) {i k : ℕ} (hne : k ≠ i) (status : ℤ) :
    (l.mark i status).getStatus k = l.getStatus k := by
  rw [StatusList.getStatus, lookup_mark_of_ne l hne, StatusList.getStatus]

theorem getStatus_mark_self (l : StatusList) (i : ℕ) {status : ℤ}
    (h : status ≠ channelStatusEnabled) : (l.mark i status).getStatus i = status := by
  unfold StatusList.getStatus
  rw [lookup_mark, if_neg h]
  rfl

theorem changed_list (jsonArray : String → Option (List String)) (c : Channel) (usingKey : String)
    (status : ℤ) :
    (changed jsonArray c usingKey status).channelInfo.multiKeyStatusList =
      if c.channelInfo.isMultiKey ∧ c.getKeys jsonArray ≠ [] then
        c.channelInfo.multiKeyStatusList.mark (keyIndex (c.getKeys jsonArray) usingKey) status
      else c.channelInfo.multiKeyStatusList := by
  unfold changed
  by_cases hmulti : c.channelInfo.isMultiKey = true
  · rw [if_pos hmulti, handlerMultiKeyUpdate_list]
    by_cases hnil : c.getKeys jsonArray = [] <;> simp [hnil, hmulti]
  · simp [hmulti]

/-- **The record and the list move together**: what is disabled after the save is marked in
the saved list exactly if the save was not stale. -/
theorem recordKey_marked_iff (jsonArray : String → Option (List String)) (c : Channel)
    (usingKey : String) (status : ℤ) (disabled : Finset ℕ) :
    (∀ k ∈ Pool.recordKey jsonArray c usingKey status disabled,
      (changed jsonArray c usingKey status).channelInfo.multiKeyStatusList.getStatus k ≠
        channelStatusEnabled) ↔
      ∀ k ∈ disabled, c.channelInfo.multiKeyStatusList.getStatus k ≠ channelStatusEnabled ∨
        ((c.channelInfo.isMultiKey ∧ c.getKeys jsonArray ≠ []) ∧
          k = keyIndex (c.getKeys jsonArray) usingKey) := by
  rw [changed_list]
  unfold Pool.recordKey
  simp only
  by_cases hkeys : c.channelInfo.isMultiKey = true ∧ c.getKeys jsonArray ≠ []
  · rw [if_pos hkeys, if_pos hkeys]
    simp only [hkeys, ne_eq, not_false_eq_true, and_self, true_and]
    generalize keyIndex (c.getKeys jsonArray) usingKey = i
    constructor
    · intro h k hk
      by_cases hki : k = i
      · exact Or.inr hki
      · refine Or.inl ?_
        rw [← getStatus_mark_of_ne _ hki status]
        refine h k ?_
        split
        · exact Finset.mem_erase.2 ⟨hki, hk⟩
        · exact Finset.mem_insert_of_mem hk
    · intro h k hk
      split at hk
      · obtain ⟨hki, hk⟩ := Finset.mem_erase.1 hk
        rw [getStatus_mark_of_ne _ hki]
        exact (h k hk).resolve_right hki
      · rename_i hstatus
        by_cases hki : k = i
        · subst hki
          rw [getStatus_mark_self _ _ hstatus]
          exact hstatus
        · rw [getStatus_mark_of_ne _ hki]
          exact (h k ((Finset.mem_insert.1 hk).resolve_left hki)).resolve_right hki
  · rw [if_neg hkeys, if_neg hkeys]
    simp only [hkeys, false_and, or_false]

/-! ### The answer of a request -/

theorem getStatus_of_mem_enabledIdx {l : StatusList} {keys : List String} {k : ℕ}
    (h : k ∈ enabledIdx l keys) : l.getStatus k = channelStatusEnabled := by
  unfold enabledIdx at h
  simpa using (List.mem_filter.1 h).2

theorem getD_mem_enabledIdx {l : StatusList} {keys : List String} {i : ℕ}
    (h : i < (enabledIdx l keys).length) :
    l.getStatus ((enabledIdx l keys).getD i 0) = channelStatusEnabled := by
  have hmem : (enabledIdx l keys).getD i 0 ∈ enabledIdx l keys := by
    rw [List.getD_eq_getElem?_getD, List.getElem?_eq_getElem h]
    exact List.getElem_mem h
  exact getStatus_of_mem_enabledIdx hmem

section Answer

variable {jsonArray : String → Option (List String)} {c : Channel} {draw : ℕ}

/-- An answer without the database is an enabled key of the channel as it was loaded. -/
theorem chooseKey_enabled {key : String} {k : ℕ}
    (h : chooseKey jsonArray c draw = some (.ok (key, k)))
    (hmulti : c.channelInfo.isMultiKey = true) :
    c.channelInfo.multiKeyStatusList.getStatus k = channelStatusEnabled := by
  unfold chooseKey at h
  simp only [hmulti, not_true_eq_false, if_false] at h
  split at h
  · cases h
  split at h
  · cases h
  rename_i hne
  have hpos : 0 < (enabledIdx c.channelInfo.multiKeyStatusList (c.getKeys jsonArray)).length :=
    List.length_pos_iff.2 hne
  split at h
  · cases h
    exact getD_mem_enabledIdx (Nat.mod_lt _ hpos)
  · cases h
  · cases h
    exact getD_mem_enabledIdx hpos

/-- Without one, the channel is polled and has an enabled key. -/
theorem enabledIdx_ne_nil (h : chooseKey jsonArray c draw = none) :
    enabledIdx c.channelInfo.multiKeyStatusList (c.getKeys jsonArray) ≠ [] := by
  unfold chooseKey at h
  split at h
  · cases h
  simp only at h
  split at h
  · cases h
  split at h
  · cases h
  assumption

/-- A polled key is an enabled key of the channel as it was loaded. -/
theorem pollKey_enabled
    (hne : enabledIdx c.channelInfo.multiKeyStatusList (c.getKeys jsonArray) ≠ []) (index : ℤ) :
    c.channelInfo.multiKeyStatusList.getStatus (pollKey jsonArray c index).1.2 =
      channelStatusEnabled := by
  unfold pollKey
  simp only
  split
  · rename_i i hfind
    unfold pollFrom at hfind
    simpa using List.find?_some hfind
  · exact getD_mem_enabledIdx (List.length_pos_iff.2 hne)

end Answer

/-! ### The invariant -/

/-- What is kept about a call in flight. -/
def CallInv (db : DB) : Call → Prop
  | .loaded c seen => ∀ k ∈ seen,
    c.channelInfo.multiKeyStatusList.getStatus k ≠ channelStatusEnabled
  | .polled _ seen (_, k) => k ∉ seen
  | .answered c seen (.ok (_, k)) => c.channelInfo.isMultiKey = true → k ∉ seen
  | .answered _ _ (.error _) => True
  | .updating c _ _ => (db.first c.id).isSome
  | .saved _ _ => True
  | .returned => True

/-- **The invariant**: the disabled keys are marked, and what the calls carry agrees. -/
structure PoolInv (s : Pool) : Prop where
  marked : ∀ id, ∀ k ∈ s.disabled id, ∃ row, s.db.first id = some row ∧
    row.channelInfo.multiKeyStatusList.getStatus k ≠ channelStatusEnabled
  calls : ∀ call ∈ s.calls, CallInv s.db call

theorem PoolInv.safe {s : Pool} (h : PoolInv s) : Safe s :=
  ⟨h.marked, fun _ _ _ _ hmem => h.calls _ hmem⟩

/-- Rows that stay keep what is known about the calls. -/
theorem CallInv.mono {db db' : DB}
    (h : ∀ id, (db.first id).isSome → (db'.first id).isSome) {call : Call}
    (hcall : CallInv db call) : CallInv db' call := by
  match call with
  | .updating c _ _ => exact h c.id hcall
  | .loaded _ _ => exact hcall
  | .polled _ _ (_, _) => exact hcall
  | .answered _ _ (.ok (_, _)) => exact hcall
  | .answered _ _ (.error _) => trivial
  | .saved _ _ => trivial
  | .returned => trivial

theorem first_saveChannelInfo (db : DB) (c : Channel) (i : ℕ) :
    (db.saveChannelInfo c).first i =
      if i = c.id then (db.first i).map fun row => { row with channelInfo := c.channelInfo }
      else db.first i := by
  unfold DB.saveChannelInfo
  refine DB.first_updateChannels db ?_ i
  intro row hrow
  exact hrow

theorem first_saveUpdated (jsonArray : String → Option (List String)) (db : DB) (c : Channel)
    (usingKey : String) (status : ℤ) (i : ℕ) :
    (db.saveWithoutKey (changed jsonArray c usingKey status)).first i =
      if i = c.id then (db.first i).map fun row =>
        { changed jsonArray c usingKey status with key := row.key, keys := row.keys }
      else db.first i := by
  have hid : (changed jsonArray c usingKey status).id = c.id := by
    obtain ⟨l, st, h⟩ := changed_frame jsonArray c usingKey status
    rw [h]
  simp only [first_saveWithoutKey, hid]

theorem first_isSome_of_eq {db db' : DB} {id : ℕ} {f : Channel → Channel}
    (h : ∀ i, db'.first i = if i = id then (db.first i).map f else db.first i) (i : ℕ)
    (hi : (db.first i).isSome) : (db'.first i).isSome := by
  rw [h]
  split
  · simpa using hi
  · exact hi

section Step

variable {jsonArray : String → Option (List String)} {s : Pool}

theorem calls_set {db : DB} {i : ℕ} {call : Call} (hinv : PoolInv s)
    (hrows : ∀ id, (s.db.first id).isSome → (db.first id).isSome) (hcall : CallInv db call) :
    ∀ x ∈ s.calls.set i call, CallInv db x := by
  intro x hx
  rcases List.mem_or_eq_of_mem_set hx with hx | rfl
  · exact (hinv.calls x hx).mono hrows
  · exact hcall

/-- **One access keeps the invariant, if it is not a stale save.** -/
theorem poolInv_access (hinv : PoolInv s) {i draw : ℕ} {call : Call} (hi : s.calls[i]? = some call)
    (hfresh : FreshCall jsonArray s.disabled call) :
    PoolInv (Pool.access jsonArray s i draw call) := by
  have hcall := hinv.calls call (List.mem_of_getElem? hi)
  match call, hcall, hfresh with
  | .loaded c seen, hcall, _ =>
    simp only [Pool.access]
    cases hchoose : chooseKey jsonArray c draw with
    | some answer =>
      refine ⟨hinv.marked, calls_set hinv (fun _ h => h) ?_⟩
      match answer with
      | .error _ => trivial
      | .ok (key, k) =>
        exact fun hmulti hk => hcall k hk (chooseKey_enabled hchoose hmulti)
    | none =>
      simp only
      split
      · exact hinv
      · cases hrow : s.db.first c.id with
        | none => exact ⟨hinv.marked, calls_set hinv (fun _ h => h) trivial⟩
        | some row =>
          refine ⟨hinv.marked, calls_set hinv (fun _ h => h) fun hk => ?_⟩
          exact hcall _ hk (pollKey_enabled (enabledIdx_ne_nil hchoose) _)
  | .polled c seen (key, k), hcall, hfresh =>
    have hfirst := first_saveChannelInfo s.db c
    refine ⟨fun id k' hk' => ?_, calls_set hinv (first_isSome_of_eq hfirst) fun _ => hcall⟩
    obtain ⟨row, hrow, hmark⟩ := hinv.marked id k' hk'
    show ∃ row, (s.db.saveChannelInfo c).first id = some row ∧ _
    rw [hfirst, hrow]
    by_cases hid : id = c.id
    · subst hid
      exact ⟨{ row with channelInfo := c.channelInfo }, by rw [if_pos rfl, Option.map_some],
        hfresh k' hk'⟩
    · exact ⟨row, by rw [if_neg hid], hmark⟩
  | .updating c usingKey status, hcall, hfresh =>
    have hfirst := first_saveUpdated jsonArray s.db c usingKey status
    refine ⟨fun id k hk => ?_, calls_set hinv (first_isSome_of_eq hfirst) ?_⟩
    · show ∃ row, (s.db.saveWithoutKey (changed jsonArray c usingKey status)).first id =
        some row ∧ _
      rw [hfirst]
      by_cases hid : id = c.id
      · subst hid
        obtain ⟨row, hrow⟩ := Option.isSome_iff_exists.1 hcall
        simp only [Pool.access, Function.update_self] at hk
        refine ⟨{ changed jsonArray c usingKey status with key := row.key, keys := row.keys },
          by rw [if_pos rfl, hrow, Option.map_some], ?_⟩
        exact (recordKey_marked_iff jsonArray c usingKey status _).2 hfresh k hk
      · simp only [Pool.access, Function.update_of_ne hid] at hk
        rw [if_neg hid]
        exact hinv.marked id k hk
    · split <;> trivial
  | .saved id status, _, _ => exact ⟨hinv.marked, calls_set hinv (fun _ h => h) trivial⟩
  | .answered _ _ _, _, _ => exact hinv
  | .returned, _, _ => exact hinv

/-- **One event keeps the invariant, if it is not a stale save.** -/
theorem poolInv_step (hinv : PoolInv s) {e : Pool.Event} (hfresh : NotStale jsonArray s e) :
    PoolInv (Pool.step jsonArray s e) := by
  cases e with
  | request id =>
    unfold Pool.step
    cases hrow : s.db.first id with
    | none => simpa only [hrow] using hinv
    | some row =>
      simp only [hrow]
      refine ⟨hinv.marked, fun call hmem => ?_⟩
      rcases List.mem_append.1 hmem with hmem | hmem
      · exact hinv.calls call hmem
      · rw [List.mem_singleton.1 hmem]
        intro k hk
        obtain ⟨row', hrow', hmark⟩ := hinv.marked id k hk
        rw [hrow] at hrow'
        cases hrow'
        exact hmark
  | update id usingKey status =>
    unfold Pool.step
    cases hrow : s.db.first id with
    | none => simpa only [hrow] using hinv
    | some row =>
      simp only [hrow]
      split
      · exact hinv
      · refine ⟨hinv.marked, fun call hmem => ?_⟩
        rcases List.mem_append.1 hmem with hmem | hmem
        · exact hinv.calls call hmem
        · rw [List.mem_singleton.1 hmem]
          show (s.db.first row.id).isSome
          rw [DB.id_of_first hrow, hrow]
          rfl
  | access i draw =>
    unfold Pool.step
    cases hi : s.calls[i]? with
    | none => simpa only [hi] using hinv
    | some call =>
      simp only [hi]
      exact poolInv_access hinv hi (hfresh call hi)

/-- **An event after which the disabled keys are safe was not a stale save.** -/
theorem notStale_of_safe {e : Pool.Event}
    (hsafe : Safe (Pool.step jsonArray s e)) : NotStale jsonArray s e := by
  cases e with
  | request id => trivial
  | update id usingKey status => trivial
  | access i draw =>
    intro call hi
    simp only [Pool.step, Option.mem_def.1 hi] at hsafe
    match call, hi with
    | .polled c seen answer, _ =>
      intro k hk
      obtain ⟨row, hrow, hmark⟩ := hsafe.marked c.id k hk
      simp only [Pool.access, first_saveChannelInfo, if_true] at hrow
      obtain ⟨row', -, rfl⟩ := Option.map_eq_some_iff.1 hrow
      exact hmark
    | .updating c usingKey status, _ =>
      refine (recordKey_marked_iff jsonArray c usingKey status _).1 fun k hk => ?_
      obtain ⟨row, hrow, hmark⟩ := hsafe.marked c.id k (by
        simp only [Pool.access, Function.update_self]
        exact hk)
      simp only [Pool.access, first_saveUpdated, if_true] at hrow
      obtain ⟨row', -, rfl⟩ := Option.map_eq_some_iff.1 hrow
      exact hmark
    | .loaded _ _, _ => trivial
    | .answered _ _ _, _ => trivial
    | .saved _ _, _ => trivial
    | .returned, _ => trivial

end Step

/-- **Disabled keys stay disabled in every state of a run exactly when no save of it is
stale**: for every interleaving of requests and status updates, from any tables and any
keys that are marked in them. -/
theorem safe_run_iff (jsonArray : String → Option (List String)) (db : DB)
    (disabled : ℕ → Finset ℕ)
    (hmarked : ∀ id, ∀ k ∈ disabled id, ∃ row, db.first id = some row ∧
      row.channelInfo.multiKeyStatusList.getStatus k ≠ channelStatusEnabled)
    (es : List Pool.Event) :
    (∀ n, Safe (run (Pool.step jsonArray) { db, disabled } (es.take n))) ↔
      Along (Pool.step jsonArray) (NotStale jsonArray) { db, disabled } es :=
  forall_take_iff (fun _ h => h.safe) (fun _ _ h hf => poolInv_step h hf)
    (fun _ _ _ hs => notStale_of_safe hs)
    ⟨hmarked, fun _ hmem => absurd hmem List.not_mem_nil⟩ es

/-- A key is disabled between two requests. -/
def oneAfterOther : List Pool.Event :=
  [.request 1, .access 0 0, .access 0 0, .update 1 "k1" channelStatusAutoDisabled, .access 1 0,
    .request 1, .access 2 0, .access 2 0]

theorem safe_run_one_after_other :
    Safe (run (Pool.step fun _ => none) { db := twoKeys, disabled := fun _ => ∅ }
      (oneAfterOther.take 8)) :=
  (safe_run_iff (fun _ => none) twoKeys (fun _ => ∅)
    (fun _ _ h => absurd h (Finset.notMem_empty _)) oneAfterOther).2 (by decide) 8

/-- **The request loads the channel, the key is disabled, and the request saves what it
loaded**: the stored list has lost the mark. -/
theorem stale_save_enables_key :
    ¬ Safe (run (Pool.step fun _ => none) { db := twoKeys, disabled := fun _ => ∅ }
      [.request 1, .update 1 "k1" channelStatusAutoDisabled, .access 1 0, .access 0 0,
        .access 0 0]) := by
  intro hsafe
  obtain ⟨row, hrow, hmark⟩ := hsafe.marked 1 0 (by decide)
  have hlost : ∀ row ∈ (run (Pool.step fun _ => none) { db := twoKeys, disabled := fun _ => ∅ }
      [.request 1, .update 1 "k1" channelStatusAutoDisabled, .access 1 0, .access 0 0,
        .access 0 0]).db.first 1,
      row.channelInfo.multiKeyStatusList.getStatus 0 = channelStatusEnabled := by
    decide
  exact hmark (hlost row hrow)

end NewApiPool.Routing
