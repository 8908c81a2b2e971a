import NewApiPool.Routing.Polling

/-!
# The status of a channel with several keys

`handlerMultiKeyUpdate` enables or disables one key of a channel, and the channel's own status
follows. What it is to do with them is said by `RightUpdate`: only the entry of the named key
changes, the channel is auto-disabled when all of its keys are, and a channel that was is enabled
again by the first key. Two things go wrong: a key that is not in the list is taken for the first
one, and the status is never taken back.

* `KeyBooks` – what the entries and the status of a channel stand for, before a run.
* `rightUpdate_run_iff` – every call of a run is right exactly when each names a key of the
  channel, or changes nothing, and none enables a key of a channel that is auto-disabled.
-/

namespace NewApiPool.Routing

open EventSystem

/-- A call of `handlerMultiKeyUpdate`. -/
structure KeyCall where
  usingKey : String
  status : ℤ

/-- **One call** of `handlerMultiKeyUpdate`, which gives the key the status and may change that of
the whole channel with it. -/
def keyStep (jsonArray : String → Option (List String)) (c : Channel) (call : KeyCall) : Channel :=
  handlerMultiKeyUpdate jsonArray c call.usingKey call.status

/-- Every key of the channel is disabled. -/
def AllDisabled (jsonArray : String → Option (List String)) (c : Channel) : Prop :=
  ∀ i < (c.getKeys jsonArray).length,
    c.channelInfo.multiKeyStatusList.getStatus i ≠ channelStatusEnabled

/-- **What a call is to do**: only entries of the key that it names change, the channel is
auto-disabled just if all its keys are disabled, and a key that is enabled again brings an
auto-disabled channel back. -/
structure RightUpdate (jsonArray : String → Option (List String)) (before : Channel)
    (call : KeyCall) (after : Channel) : Prop where
  named : ∀ i, after.channelInfo.multiKeyStatusList.lookup i ≠
      before.channelInfo.multiKeyStatusList.lookup i →
    (before.getKeys jsonArray)[i]? = some call.usingKey
  status : after.status = channelStatusAutoDisabled ↔ AllDisabled jsonArray after
  enabled : before.status = channelStatusAutoDisabled → call.status = channelStatusEnabled →
    call.usingKey ∈ before.getKeys jsonArray → after.status = channelStatusEnabled

/-- **The books of a channel**: it has keys, their number is its size, the entries are those of
disabled keys, and the channel is auto-disabled if all of them are. -/
structure KeyBooks (jsonArray : String → Option (List String)) (c : Channel) : Prop where
  keys : c.getKeys jsonArray ≠ []
  size : c.channelInfo.multiKeySize = (c.getKeys jsonArray).length
  entries : ∀ i status, c.channelInfo.multiKeyStatusList.lookup i = some status →
    i < (c.getKeys jsonArray).length ∧ status ≠ channelStatusEnabled
  status : c.status = channelStatusAutoDisabled ↔ AllDisabled jsonArray c

/-- The call names a key of the channel, or the entry it takes for that key's is as it makes it;
and it does not enable a key of a channel that is auto-disabled. -/
def Harmless (jsonArray : String → Option (List String)) (c : Channel) (call : KeyCall) : Prop :=
  (call.usingKey ∈ c.getKeys jsonArray ∨
    c.channelInfo.multiKeyStatusList.Marked 0 call.status) ∧
  ¬(call.status = channelStatusEnabled ∧ c.status = channelStatusAutoDisabled)

section Update

variable {jsonArray : String → Option (List String)} {c : Channel} {call : KeyCall}
  {l : StatusList} {keys : List String} {k : String} {i : ℕ}

theorem keyIndex_of_mem (h : k ∈ keys) : keys[keyIndex keys k]? = some k := by
  unfold keyIndex
  cases hfind : keys.findIdx? fun key => key == k with
  | none => exact absurd (List.findIdx?_eq_none_iff.1 hfind k h) (by simp)
  | some i =>
    obtain ⟨hi, hkey, -⟩ := List.findIdx?_eq_some_iff_getElem.1 hfind
    rw [Option.getD_some, List.getElem?_eq_getElem hi, beq_iff_eq.1 hkey]

theorem keyIndex_of_not_mem (h : k ∉ keys) : keyIndex keys k = 0 := by
  have hfind : (keys.findIdx? fun key => key == k) = none :=
    List.findIdx?_eq_none_iff.2 fun key hkey => beq_false_of_ne (ne_of_mem_of_not_mem hkey h)
  rw [keyIndex, hfind, Option.getD_none]

theorem keyIndex_lt (h : keys ≠ []) (k : String) : keyIndex keys k < keys.length := by
  by_cases hk : k ∈ keys
  · exact List.getElem?_eq_some_iff.1 (keyIndex_of_mem hk) |>.1
  · rw [keyIndex_of_not_mem hk]
    exact List.length_pos_of_ne_nil h

theorem getStatus_ne_iff
    (h : ∀ status, l.lookup i = some status → status ≠ channelStatusEnabled) :
    l.getStatus i ≠ channelStatusEnabled ↔ i ∈ l.keys := by
  unfold StatusList.getStatus
  rw [Finmap.mem_keys, ← Finmap.lookup_isSome]
  cases hl : l.lookup i with
  | none => simp
  | some status => simpa using h status hl

/-- **The size of the list tells whether all keys are disabled**, where the entries are those of
disabled keys. -/
theorem le_len_iff {n : ℕ}
    (h : ∀ i status, l.lookup i = some status → i < n ∧ status ≠ channelStatusEnabled) :
    (n : ℤ) ≤ l.len ↔ ∀ i < n, l.getStatus i ≠ channelStatusEnabled := by
  have hkeys : l.keys ⊆ Finset.range n := by
    intro i hi
    obtain ⟨status, hl⟩ :=
      Option.isSome_iff_exists.1 (Finmap.lookup_isSome.2 (Finmap.mem_keys.1 hi))
    exact Finset.mem_range.2 (h i status hl).1
  simp only [getStatus_ne_iff fun status hl => (h _ status hl).2]
  unfold StatusList.len
  rw [Int.ofNat_le]
  constructor
  · intro hcard i hi
    rw [Finset.eq_of_subset_of_card_le hkeys (by rwa [Finset.card_range])]
    exact Finset.mem_range.2 hi
  · intro hall
    rw [← Finset.card_range n]
    exact Finset.card_le_card fun i hi => hall i (Finset.mem_range.1 hi)

/-! ### One call -/

theorem getKeys_keyStep (c : Channel) (call : KeyCall) :
    (keyStep jsonArray c call).getKeys jsonArray = c.getKeys jsonArray := by
  obtain ⟨list, status, h⟩ := handlerMultiKeyUpdate_frame jsonArray c call.usingKey call.status
  rw [keyStep, h]
  rfl

theorem size_keyStep (c : Channel) (call : KeyCall) :
    (keyStep jsonArray c call).channelInfo.multiKeySize = c.channelInfo.multiKeySize := by
  obtain ⟨list, status, h⟩ := handlerMultiKeyUpdate_frame jsonArray c call.usingKey call.status
  rw [keyStep, h]

theorem KeyBooks.list_keyStep (h : KeyBooks jsonArray c) (call : KeyCall) :
    (keyStep jsonArray c call).channelInfo.multiKeyStatusList =
      c.channelInfo.multiKeyStatusList.mark
        (keyIndex (c.getKeys jsonArray) call.usingKey) call.status := by
  rw [keyStep, handlerMultiKeyUpdate_list, if_neg h.keys]

/-- The entries stay those of disabled keys, whatever the call. -/
theorem KeyBooks.entries_keyStep (h : KeyBooks jsonArray c) (call : KeyCall) (i : ℕ) (status : ℤ)
    (hl : (keyStep jsonArray c call).channelInfo.multiKeyStatusList.lookup i = some status) :
    i < (c.getKeys jsonArray).length ∧ status ≠ channelStatusEnabled := by
  rw [h.list_keyStep] at hl
  by_cases hi : i = keyIndex (c.getKeys jsonArray) call.usingKey
  · subst hi
    rw [lookup_mark] at hl
    split at hl
    · cases hl
    · rename_i hstatus
      exact ⟨keyIndex_lt h.keys _, Option.some.inj hl ▸ hstatus⟩
  · rw [lookup_mark_of_ne _ hi] at hl
    exact h.entries i status hl

/-- **The status after a call**: auto-disabled if all keys are disabled now, else what it was. -/
theorem KeyBooks.status_keyStep (h : KeyBooks jsonArray c) (call : KeyCall) :
    (keyStep jsonArray c call).status = channelStatusAutoDisabled ↔
      AllDisabled jsonArray (keyStep jsonArray c call) ∨
        c.status = channelStatusAutoDisabled := by
  have hfull : c.channelInfo.multiKeySize ≤
      (keyStep jsonArray c call).channelInfo.multiKeyStatusList.len ↔
        AllDisabled jsonArray (keyStep jsonArray c call) := by
    rw [h.size, le_len_iff (h.entries_keyStep call), AllDisabled, getKeys_keyStep]
  have hstatus := handlerMultiKeyUpdate_status jsonArray c call.usingKey call.status
  rw [if_neg h.keys, ← h.list_keyStep] at hstatus
  by_cases hall : AllDisabled jsonArray (keyStep jsonArray c call)
  · rw [if_pos (hfull.2 hall)] at hstatus
    exact ⟨fun _ => Or.inl hall, fun _ => hstatus⟩
  · rw [if_neg fun hle => hall (hfull.1 hle)] at hstatus
    rw [keyStep, hstatus]
    exact ⟨Or.inr, fun hor => hor.resolve_left hall⟩

/-- Where all keys are disabled, they stay so unless the call enables one. -/
theorem KeyBooks.allDisabled_keyStep (h : KeyBooks jsonArray c) (call : KeyCall)
    (hall : AllDisabled jsonArray c) :
    AllDisabled jsonArray (keyStep jsonArray c call) ↔ call.status ≠ channelStatusEnabled := by
  have hlt := keyIndex_lt h.keys call.usingKey
  constructor
  · intro hafter hstatus
    have hself := hafter _ (by rwa [getKeys_keyStep])
    rw [h.list_keyStep, hstatus, StatusList.getStatus, lookup_mark, if_pos rfl] at hself
    exact hself rfl
  · intro hstatus i hi
    rw [getKeys_keyStep] at hi
    rw [h.list_keyStep]
    by_cases hindex : i = keyIndex (c.getKeys jsonArray) call.usingKey
    · rw [hindex, getStatus_mark_self _ _ hstatus]
      exact hstatus
    · rw [getStatus_mark_of_ne _ hindex]
      exact hall i hi

/-- The entry of the named key is the only one that changes exactly if the key is one of the
channel, or none changes. -/
theorem KeyBooks.named_iff (h : KeyBooks jsonArray c) (call : KeyCall) :
    (∀ i, (keyStep jsonArray c call).channelInfo.multiKeyStatusList.lookup i ≠
        c.channelInfo.multiKeyStatusList.lookup i →
      (c.getKeys jsonArray)[i]? = some call.usingKey) ↔
      call.usingKey ∈ c.getKeys jsonArray ∨
        c.channelInfo.multiKeyStatusList.Marked 0 call.status := by
  rw [h.list_keyStep]
  by_cases hmem : call.usingKey ∈ c.getKeys jsonArray
  · refine iff_of_true (fun i hi => ?_) (Or.inl hmem)
    have hindex : i = keyIndex (c.getKeys jsonArray) call.usingKey :=
      by_contra fun hne => hi (lookup_mark_of_ne _ hne _)
    rw [hindex, keyIndex_of_mem hmem]
  · -- a key that is not there is taken for the first one
    rw [keyIndex_of_not_mem hmem, or_iff_right hmem]
    constructor
    · intro hnamed
      by_contra hmarked
      rw [StatusList.Marked, ← lookup_mark] at hmarked
      exact hmem (List.mem_of_getElem? (hnamed 0 (Ne.symm hmarked)))
    · intro hmarked i hi
      rw [mark_eq_self_iff.2 hmarked] at hi
      exact absurd rfl hi

/-- **When one call is right**: with the books in order, exactly if the call is harmless, that is,
if it names a key of the channel or changes nothing, and enables no key of a channel that is
auto-disabled. -/
theorem KeyBooks.rightUpdate_iff (h : KeyBooks jsonArray c) (call : KeyCall) :
    RightUpdate jsonArray c call (keyStep jsonArray c call) ↔ Harmless jsonArray c call := by
  unfold Harmless
  rw [← h.named_iff call]
  constructor
  · rintro ⟨hnamed, hstatus, -⟩
    refine ⟨hnamed, fun ⟨henable, hauto⟩ => ?_⟩
    have hafter := hstatus.1 ((h.status_keyStep call).2 (Or.inr hauto))
    exact (h.allDisabled_keyStep call (h.status.1 hauto)).1 hafter henable
  · rintro ⟨hnamed, hnot⟩
    refine ⟨hnamed, (h.status_keyStep call).trans ?_,
      fun hauto henable _ => absurd ⟨henable, hauto⟩ hnot⟩
    refine or_iff_left_of_imp fun hauto => ?_
    exact (h.allDisabled_keyStep call (h.status.1 hauto)).2 fun henable => hnot ⟨henable, hauto⟩

theorem KeyBooks.keyStep (h : KeyBooks jsonArray c) (call : KeyCall)
    (hright : RightUpdate jsonArray c call (keyStep jsonArray c call)) :
    KeyBooks jsonArray (keyStep jsonArray c call) where
  keys := by rw [getKeys_keyStep]; exact h.keys
  size := by rw [size_keyStep, getKeys_keyStep]; exact h.size
  entries := by rw [getKeys_keyStep]; exact h.entries_keyStep call
  status := hright.status

/-- **Every call of a run is right exactly when none does harm**, from a channel whose books are
kept. -/
theorem rightUpdate_run_iff (h : KeyBooks jsonArray c) (calls : List KeyCall) :
    Along (keyStep jsonArray)
        (fun c call => RightUpdate jsonArray c call (keyStep jsonArray c call)) c calls ↔
      Along (keyStep jsonArray) (Harmless jsonArray) c calls :=
  along_congr (I := KeyBooks jsonArray) (fun _ call h => h.rightUpdate_iff call)
    (fun _ call h hharm => h.keyStep call ((h.rightUpdate_iff call).2 hharm)) h calls

end Update

/-- A cached channel with two keys, the second of them disabled. -/
def halfDisabled : Channel where
  id := 1
  key := "a\nb"
  keys := ["a", "b"]
  status := channelStatusEnabled
  channelInfo :=
    { isMultiKey := true, multiKeySize := 2, multiKeyMode := .polling
      multiKeyStatusList := Finmap.singleton 1 channelStatusAutoDisabled }

theorem keyBooks_halfDisabled : KeyBooks (fun _ => none) halfDisabled where
  keys := by decide
  size := rfl
  entries := by
    intro i status hl
    by_cases hi : i = 1
    · subst hi
      obtain rfl : channelStatusAutoDisabled = status := Option.some.inj hl
      exact ⟨by decide, by decide⟩
    · have hnone : halfDisabled.channelInfo.multiKeyStatusList.lookup i = none :=
        Finmap.lookup_eq_none.2 fun hmem => hi ((Finmap.mem_singleton _ _ _).1 hmem)
      rw [hnone] at hl
      cases hl
  status := iff_of_false (by decide) fun hall => hall 0 (by decide) rfl

/-- The second key is disabled again, enabled and disabled, and then the first one is. -/
theorem rightUpdate_run_four :
    Along (keyStep fun _ => none)
      (fun c call => RightUpdate (fun _ => none) c call (keyStep (fun _ => none) c call))
      halfDisabled [⟨"b", channelStatusManuallyDisabled⟩, ⟨"b", channelStatusEnabled⟩,
        ⟨"b", channelStatusAutoDisabled⟩, ⟨"a", channelStatusAutoDisabled⟩] := by
  refine (rightUpdate_run_iff keyBooks_halfDisabled _).2 ?_
  simp only [along_cons, along_nil, Harmless]
  decide +kernel

/-- **Not every call is right**: the last key is disabled, and then enabled. The channel stays
auto-disabled. -/
theorem not_rightUpdate_run : ¬∀ (jsonArray : String → Option (List String)) (c : Channel),
    KeyBooks jsonArray c → ∀ calls : List KeyCall, Along (keyStep jsonArray)
      (fun c call => RightUpdate jsonArray c call (keyStep jsonArray c call)) c calls := by
  intro h
  have hrun := h _ _ keyBooks_halfDisabled
    [⟨"a", channelStatusAutoDisabled⟩, ⟨"a", channelStatusEnabled⟩]
  have henabled := hrun.2.1.enabled (by decide +kernel) rfl (by decide +kernel)
  exact absurd henabled (by decide +kernel)

end NewApiPool.Routing
