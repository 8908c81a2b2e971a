import NewApiPool.Lib.RoundRobin
import NewApiPool.Routing.Polling

/-!
# Polling the keys of a channel, with the memory cache

`GetNextEnabledKey` is a method of a channel in memory. It takes the keys and their statuses from
that channel, the index to start from out of the cached channel of the same id, and stores the
next index in the channel it was called on. With the memory cache on nothing is saved, so the
calls go around the keys exactly where the two are one object. The distributor calls it on the
cached channel as a rule; a token for a specific channel, the task that is locked to one, and the
tests of a channel load a copy, which takes the same key every time.

* `Memory.getNextEnabledKey` – one call, on the channel at an address.
* `Fair` – each answer is an enabled key with its own index, and in any window of consecutive
  answers two enabled keys come up equally often, or one of them once more.
* `fair_iff` – any number of calls on the objects of one channel are fair exactly when the cached
  channel is the only one of them, or there is only one key to choose.
-/

namespace NewApiPool.Routing

open RoundRobin

/-! ### One call -/

/-- The channels in memory, by address, and which of them is cached for an id. -/
structure Memory where
  channels : ℕ → Channel
  channelsIDM : ℕ → Option ℕ

namespace Memory

def cacheGetChannelInfo (m : Memory) (id : ℕ) : Except String ChannelInfo :=
  match m.channelsIDM id with
  | none => .error ("渠道# " ++ toString id ++ "，已不存在")
  | some cached => .ok (m.channels cached).channelInfo

/-- **`GetNextEnabledKey`**, on the channel at an address. The index is read from the cached
channel and written to this one. -/
def getNextEnabledKey (jsonArray : String → Option (List String)) (m : Memory)
    (channel draw : ℕ) : Except String (String × ℕ) × Memory :=
  match chooseKey jsonArray (m.channels channel) draw with
  | some answer => (answer, m)
  | none =>
    match m.cacheGetChannelInfo (m.channels channel).id with
    | .error err => (.error err, m)
    | .ok channelInfo =>
      let (answer, c) :=
        pollKey jsonArray (m.channels channel) channelInfo.multiKeyPollingIndex
      (.ok answer, { m with channels := Function.update m.channels channel c })

/-- The channel at an address gets another index. -/
def setIndex (m : Memory) (channel : ℕ) (index : ℤ) : Memory :=
  let c := m.channels channel
  { m with
    channels := Function.update m.channels channel
      { c with channelInfo.multiKeyPollingIndex := index } }

/-- The answers of consecutive calls, each with its address and its random number. -/
def answers (jsonArray : String → Option (List String)) :
    Memory → List (ℕ × ℕ) → List (Except String (String × ℕ))
  | _, [] => []
  | m, (channel, draw) :: calls =>
    (m.getNextEnabledKey jsonArray channel draw).1 ::
      answers jsonArray (m.getNextEnabledKey jsonArray channel draw).2 calls

end Memory

/-! ### Fairness -/

/-- The answer is an enabled key with its own index. -/
def IsEnabledKey (l : StatusList) (keys : List String) (answer : Except String (String × ℕ)) :
    Prop :=
  ∃ key i, answer = .ok (key, i) ∧ i ∈ enabledIdx l keys ∧ keys[i]? = some key

/-- The index of an answer. -/
def answerIndex : Except String (String × ℕ) → Option ℕ
  | .ok (_, i) => some i
  | .error _ => none

/-- **The answers are fair**: every answer is an enabled key, and over any stretch of calls two
enabled keys are given equally often, up to one. -/
structure Fair (l : StatusList) (keys : List String)
    (answers : List (Except String (String × ℕ))) : Prop where
  enabled : ∀ answer ∈ answers, IsEnabledKey l keys answer
  turns : ∀ window, window <:+: answers → ∀ i ∈ enabledIdx l keys, ∀ i' ∈ enabledIdx l keys,
    (window.map answerIndex).count (some i) ≤ (window.map answerIndex).count (some i') + 1

/-- **Objects of one channel in polling mode**: they agree on the keys and the statuses, of
which some are enabled. The saved index of each is its own. -/
structure Polled (jsonArray : String → Option (List String)) (m : Memory) (objects : Set ℕ)
    (id : ℕ) (l : StatusList) (keys : List String) : Prop where
  id_eq : ∀ c ∈ objects, (m.channels c).id = id
  multi : ∀ c ∈ objects, (m.channels c).channelInfo.isMultiKey = true
  mode : ∀ c ∈ objects, (m.channels c).channelInfo.multiKeyMode = .polling
  statuses : ∀ c ∈ objects, (m.channels c).channelInfo.multiKeyStatusList = l
  keys_eq : ∀ c ∈ objects, (m.channels c).getKeys jsonArray = keys
  enabled : enabledIdx l keys ≠ []

section Calls

variable {jsonArray : String → Option (List String)} {m : Memory} {objects : Set ℕ} {id c : ℕ}
  {l : StatusList} {keys : List String} {calls : List (ℕ × ℕ)} {i : ℕ}

/-- The status of an index, as the predicate of a scan. -/
abbrev StatusList.isEnabled (l : StatusList) (i : ℕ) : Bool :=
  decide (l.getStatus i = channelStatusEnabled)

theorem enabledIdx_eq (l : StatusList) (keys : List String) :
    enabledIdx l keys = eligible l.isEnabled keys.length := rfl

theorem pollFrom_eq (l : StatusList) (n start : ℕ) :
    pollFrom l n start = scan l.isEnabled n start := rfl

theorem pollStart_lt {n : ℕ} (hn : 0 < n) (index : ℤ) : pollStart n index < n := by
  unfold pollStart
  split
  · exact hn
  · omega

theorem pollStart_mod {n : ℕ} (hn : 0 < n) (i : ℕ) :
    pollStart n (((i + 1) % n : ℕ) : ℤ) = (i + 1) % n := by
  have hlt : (i + 1) % n < n := Nat.mod_lt _ hn
  unfold pollStart
  rw [if_neg (by omega), Int.toNat_natCast]

theorem length_pos_of_enabled (h : enabledIdx l keys ≠ []) : 0 < keys.length := by
  obtain ⟨i, hi⟩ := List.exists_mem_of_ne_nil _ h
  exact Nat.zero_lt_of_lt (mem_eligible.1 hi).1

/-- The answer for an index. -/
def answerAt (keys : List String) (i : ℕ) : Except String (String × ℕ) := .ok (keys.getD i "", i)

@[simp] theorem answerIndex_answerAt (keys : List String) (i : ℕ) :
    answerIndex (answerAt keys i) = some i := rfl

theorem isEnabledKey_answerAt (hi : i ∈ enabledIdx l keys) :
    IsEnabledKey l keys (answerAt keys i) := by
  have hlt : i < keys.length := (mem_eligible.1 hi).1
  refine ⟨keys.getD i "", i, rfl, hi, ?_⟩
  rw [List.getElem?_eq_getElem hlt, List.getD_eq_getElem _ _ hlt]

theorem Polled.chooseKey (h : Polled jsonArray m objects id l keys) (hc : c ∈ objects) (draw : ℕ) :
    chooseKey jsonArray (m.channels c) draw = none := by
  have hkeys : keys ≠ [] := List.ne_nil_of_length_pos (length_pos_of_enabled h.enabled)
  unfold Routing.chooseKey
  simp only [h.multi c hc, h.mode c hc, h.keys_eq c hc, h.statuses c hc, hkeys, h.enabled,
    not_true_eq_false, if_false]

/-- **One call on an object**: the scan starts at the index of the cached channel, and the
object gets the next one. -/
theorem Polled.getNextEnabledKey (h : Polled jsonArray m objects id l keys) (hc : c ∈ objects)
    {cached : ℕ} (hcached : m.channelsIDM id = some cached)
    (hi : scan l.isEnabled keys.length (pollStart keys.length
      (m.channels cached).channelInfo.multiKeyPollingIndex) = some i) (draw : ℕ) :
    m.getNextEnabledKey jsonArray c draw =
      (answerAt keys i, m.setIndex c ((i + 1) % keys.length : ℕ)) := by
  unfold Memory.getNextEnabledKey Memory.cacheGetChannelInfo
  simp only [h.chooseKey hc, h.id_eq c hc, hcached, pollKey, h.keys_eq c hc, h.statuses c hc,
    pollFrom_eq, hi, answerAt, Memory.setIndex]

theorem Polled.setIndex (h : Polled jsonArray m objects id l keys) (c : ℕ) (index : ℤ) :
    Polled jsonArray (m.setIndex c index) objects id l keys := by
  have hsame (a : ℕ) : ∃ index', (m.setIndex c index).channels a =
      { m.channels a with channelInfo.multiKeyPollingIndex := index' } := by
    by_cases ha : a = c
    · subst ha
      exact ⟨index, Function.update_self ..⟩
    · exact ⟨(m.channels a).channelInfo.multiKeyPollingIndex, Function.update_of_ne ha ..⟩
  refine ⟨?_, ?_, ?_, ?_, ?_, h.enabled⟩
  all_goals
    intro a ha
    obtain ⟨index', hindex⟩ := hsame a
    rw [hindex]
  · exact h.id_eq a ha
  · exact h.multi a ha
  · exact h.mode a ha
  · exact h.statuses a ha
  · exact h.keys_eq a ha

@[simp] theorem Memory.setIndex_index (m : Memory) (c : ℕ) (index : ℤ) :
    ((m.setIndex c index).channels c).channelInfo.multiKeyPollingIndex = index := by
  simp [Memory.setIndex]

@[simp] theorem Memory.setIndex_of_ne (m : Memory) {c c' : ℕ} (hne : c' ≠ c) (index : ℤ) :
    (m.setIndex c index).channels c' = m.channels c' := Function.update_of_ne hne ..

@[simp] theorem Memory.setIndex_channelsIDM (m : Memory) (c : ℕ) (index : ℤ) :
    (m.setIndex c index).channelsIDM = m.channelsIDM := rfl

/-! ### Calls on the cached channel -/

/-- **The answers go around the enabled keys**, from the one the saved index leads to. -/
theorem Polled.answers_cached (h : Polled jsonArray m objects id l keys) (hc : c ∈ objects)
    (hcached : m.channelsIDM id = some c) {a : ℕ}
    (ha : ((List.range keys.length).rotate (pollStart keys.length
        (m.channels c).channelInfo.multiKeyPollingIndex)).filter l.isEnabled =
      (enabledIdx l keys).rotate a)
    (hcalls : ∀ call ∈ calls, call.1 = c) :
    m.answers jsonArray calls =
      (List.range calls.length).map fun t => answerAt keys (turn (enabledIdx l keys) (a + t)) := by
  have hpos := length_pos_of_enabled h.enabled
  induction calls generalizing m a with
  | nil => rfl
  | cons call calls ih =>
    obtain ⟨channel, draw⟩ := call
    obtain rfl : channel = c := hcalls _ List.mem_cons_self
    obtain ⟨hscan, hnext⟩ := scan_eq h.enabled ha
    have hrest := ih (h.setIndex channel _) hcached
      (by rw [Memory.setIndex_index, pollStart_mod hpos]; exact hnext)
      fun call hcall => hcalls call (List.mem_cons_of_mem _ hcall)
    rw [Memory.answers, h.getNextEnabledKey hc hcached hscan, List.length_cons,
      List.range_succ_eq_map, List.map_cons, List.map_map, hrest]
    refine congrArg _ (List.map_congr_left fun t _ => ?_)
    rw [Function.comp_apply, Nat.succ_eq_add_one, ← Nat.add_assoc, Nat.add_right_comm]

/-- A window of answers that go around goes around itself. -/
theorem fair_turns (hne : enabledIdx l keys ≠ []) (a k : ℕ) :
    Fair l keys ((List.range k).map fun t => answerAt keys (turn (enabledIdx l keys) (a + t))) := by
  refine ⟨?_, ?_⟩
  · intro answer hanswer
    obtain ⟨t, -, rfl⟩ := List.mem_map.1 hanswer
    exact isEnabledKey_answerAt (turn_mem hne _)
  · rintro window ⟨before, behind, hsplit⟩ i hi i' hi'
    have hwindow : window.map answerIndex =
        ((List.range window.length).map fun t =>
          turn (enabledIdx l keys) (a + before.length + t)).map some := by
      refine List.ext_getElem? fun t => ?_
      by_cases ht : t < window.length
      · have hget : window[t]? =
            some (answerAt keys (turn (enabledIdx l keys) (a + (before.length + t)))) := by
          have hlength : before.length + t < k := by
            have := congrArg List.length hsplit
            simp only [List.length_append, List.length_map, List.length_range] at this
            omega
          have hwhole := congrArg (fun as => as[before.length + t]?) hsplit
          simp only [List.append_assoc] at hwhole
          rw [List.getElem?_append_right (Nat.le_add_right _ _), Nat.add_sub_cancel_left,
            List.getElem?_append_left ht] at hwhole
          rw [hwhole, List.getElem?_map, List.getElem?_range hlength, Option.map_some]
        rw [List.getElem?_map, hget, List.getElem?_map, List.getElem?_map,
          List.getElem?_range ht, ← Nat.add_assoc]
        rfl
      · simp [ht]
    rw [hwindow, List.count_map_of_injective _ _ (Option.some_injective _),
      List.count_map_of_injective _ _ (Option.some_injective _)]
    exact count_turns_le (nodup_eligible _ _) hi hi' _ _

/-! ### Calls on other objects -/

theorem Polled.answers_single (h : Polled jsonArray m objects id l keys) {cached : ℕ}
    (hcached : m.channelsIDM id = some cached) (hone : enabledIdx l keys = [i])
    (hcalls : ∀ call ∈ calls, call.1 ∈ objects) :
    m.answers jsonArray calls =
      (List.range calls.length).map fun t => answerAt keys (turn (enabledIdx l keys) (0 + t)) := by
  have hturn (t : ℕ) : turn (enabledIdx l keys) t = i := by
    have := turn_mem h.enabled t
    rwa [hone, List.mem_singleton, ← hone] at this
  simp only [hturn]
  induction calls generalizing m with
  | nil => rfl
  | cons call calls ih =>
    obtain ⟨channel, draw⟩ := call
    have hstart := pollStart_lt (length_pos_of_enabled h.enabled)
      (m.channels cached).channelInfo.multiKeyPollingIndex
    obtain ⟨a, ha⟩ := exists_rotate l.isEnabled hstart
    have hscan := (scan_eq h.enabled ha).1
    rw [← enabledIdx_eq, hturn] at hscan
    rw [Memory.answers, h.getNextEnabledKey (hcalls _ List.mem_cons_self) hcached hscan,
      List.length_cons, List.range_succ_eq_map, List.map_cons, List.map_map,
      ih (h.setIndex channel _) hcached fun call hcall =>
        hcalls call (List.mem_cons_of_mem _ hcall)]
    rfl

/-- **Two calls on an object that is not the cached one answer the same key.** -/
theorem Polled.answers_copy (h : Polled jsonArray m objects id l keys) (hc : c ∈ objects)
    {cached : ℕ} (hcached : m.channelsIDM id = some cached) (hne : cached ≠ c) :
    ∃ i ∈ enabledIdx l keys,
      m.answers jsonArray [(c, 0), (c, 0)] = [answerAt keys i, answerAt keys i] := by
  have hstart := pollStart_lt (length_pos_of_enabled h.enabled)
    (m.channels cached).channelInfo.multiKeyPollingIndex
  obtain ⟨a, ha⟩ := exists_rotate l.isEnabled hstart
  have hscan := (scan_eq h.enabled ha).1
  refine ⟨_, turn_mem h.enabled a, ?_⟩
  rw [Memory.answers, h.getNextEnabledKey hc hcached hscan, Memory.answers,
    (h.setIndex c _).getNextEnabledKey hc hcached (by rwa [Memory.setIndex_of_ne _ hne])]
  rfl

/-- **When the calls are fair**: all of them are on the cached channel, or there is one key. -/
theorem fair_iff (h : Polled jsonArray m objects id l keys) (hne : objects.Nonempty) :
    (∀ calls : List (ℕ × ℕ), (∀ call ∈ calls, call.1 ∈ objects) →
        Fair l keys (m.answers jsonArray calls)) ↔
      ∃ cached, m.channelsIDM id = some cached ∧
        (objects = {cached} ∨ (enabledIdx l keys).length = 1) := by
  constructor
  · intro hfair
    obtain ⟨c, hc⟩ := hne
    cases hcached : m.channelsIDM id with
    | none =>
      -- the index cannot be read
      obtain ⟨key, i, hanswer, -⟩ := (hfair [(c, 0)] (by simpa using hc)).enabled _
        List.mem_cons_self
      unfold Memory.getNextEnabledKey Memory.cacheGetChannelInfo at hanswer
      simp [h.chooseKey hc, h.id_eq c hc, hcached] at hanswer
    | some cached =>
      refine ⟨cached, rfl, ?_⟩
      by_contra hnot
      obtain ⟨hobjects, hlength⟩ := not_or.1 hnot
      obtain ⟨c', hc', hne'⟩ : ∃ c' ∈ objects, cached ≠ c' := by
        by_contra hall
        refine hobjects (Set.eq_singleton_iff_nonempty_unique_mem.2 ⟨⟨c, hc⟩, fun c' hc' => ?_⟩)
        by_contra hne'
        exact hall ⟨c', hc', Ne.symm hne'⟩
      obtain ⟨i, hi, hanswers⟩ := h.answers_copy hc' hcached hne'
      -- another enabled key has no turn in two calls
      obtain ⟨i', hi', hii'⟩ : ∃ i' ∈ enabledIdx l keys, i' ≠ i := by
        by_contra hall
        have hsame : ∀ i' ∈ enabledIdx l keys, i' = i := fun i' hi' =>
          by_contra fun hii' => hall ⟨i', hi', hii'⟩
        have hnodup : (List.replicate (enabledIdx l keys).length i).Nodup :=
          List.eq_replicate_of_mem hsame ▸ nodup_eligible _ _
        have hpos := List.length_pos_of_mem hi
        have hle := List.nodup_replicate.1 hnodup
        omega
      have hturns := (hfair [(c', 0), (c', 0)] (by simpa using hc')).turns _ List.infix_rfl i hi
        i' hi'
      rw [hanswers] at hturns
      simp [hii'.symm] at hturns
  · rintro ⟨cached, hcached, rfl | hone⟩ calls hcalls
    · obtain ⟨a, ha⟩ := exists_rotate l.isEnabled
        (pollStart_lt (length_pos_of_enabled h.enabled)
          (m.channels cached).channelInfo.multiKeyPollingIndex)
      rw [h.answers_cached (Set.mem_singleton cached) hcached ha hcalls]
      exact fair_turns h.enabled _ _
    · obtain ⟨i, hi⟩ := List.length_eq_one_iff.1 hone
      rw [h.answers_single hcached hi hcalls]
      exact fair_turns h.enabled _ _

end Calls

/-- A channel with two keys, cached with the keys parsed, and a copy of it that was loaded. -/
def twoKeyMemory : Memory where
  channels := fun address =>
    { id := 7, key := "a\nb", status := channelStatusEnabled
      keys := if address = 0 then ["a", "b"] else []
      channelInfo := { isMultiKey := true, multiKeySize := 2, multiKeyMode := .polling } }
  channelsIDM := fun id => if id = 7 then some 0 else none

theorem polled_twoKeyMemory (address : ℕ) :
    Polled (fun _ => none) twoKeyMemory {address} 7 ∅ ["a", "b"] where
  id_eq := fun _ _ => rfl
  multi := fun _ _ => rfl
  mode := fun _ _ => rfl
  statuses := fun _ _ => rfl
  keys_eq := by
    intro c _
    cases c with
    | zero => rfl
    | succ c =>
      have hparse : Channel.parseKeys (fun _ => none) "a\nb" = ["a", "b"] := by decide +kernel
      have hkey : (twoKeyMemory.channels (c + 1)).key = "a\nb" := rfl
      have hkeys : (twoKeyMemory.channels (c + 1)).keys = [] := rfl
      rw [Channel.getKeys, hkey, hkeys, if_neg (by decide), if_neg (not_not.2 rfl), hparse]
  enabled := by decide +kernel

theorem fair_cached :
    Fair ∅ ["a", "b"] (twoKeyMemory.answers (fun _ => none) [(0, 0), (0, 0), (0, 0)]) :=
  (fair_iff (polled_twoKeyMemory 0) (Set.singleton_nonempty 0)).2 ⟨0, rfl, Or.inl rfl⟩ _ (by simp)

/-- **Not fair**: a request by a token for this channel loads a copy, and two such requests get
the same key. -/
theorem not_fair : ¬∀ (jsonArray : String → Option (List String)) (m : Memory) (objects : Set ℕ)
    (id : ℕ) (l : StatusList) (keys : List String), Polled jsonArray m objects id l keys →
      ∀ calls : List (ℕ × ℕ), (∀ call ∈ calls, call.1 ∈ objects) →
        Fair l keys (m.answers jsonArray calls) := by
  intro h
  have hfair := h _ _ _ _ _ _ (polled_twoKeyMemory 1) [(1, 0), (1, 0)] (by simp)
  have hturns := hfair.turns _ List.infix_rfl 0 (by decide +kernel) 1 (by decide +kernel)
  exact absurd hturns (by decide +kernel)

end NewApiPool.Routing
