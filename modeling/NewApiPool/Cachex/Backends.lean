import NewApiPool.Cachex.HybridCache
import NewApiPool.Lib.Runs

/-!
# One backend and the other

A cache in Redis and a cache in memory are given the same calls, with the same doings of others in
the database between them. What is found in memory is then found in Redis as well, whatever was
given up in between; and as long as the keys that were written are not more than the memory has room
for, every operation has the same reply on both (`sameReply_of_run`). The keys of others are left
alone.
-/

namespace NewApiPool.Cachex

open EventSystem GoText KeyStore

variable {V : Type}

/-! ### Runs -/

inductive Call (V : Type)
  | get (key : Text)
  | setWithTTL (key : Text) (v : V)
  | keys
  | deleteMany (keys : List Text)
  | purge
  | deleteByPrefix (s : Text)

inductive Reply (V : Type)
  | value (v : Option (Option V))
  | ok
  | keys (ks : List Text)
  | deleted (res : Store Text Bool)
  | count (m : ℕ)

/-- What happens: a call, the end of the life of an entry, and what others do with a key in the
database. -/
inductive Event (V : Type)
  | call (call : Call V)
  | expire (k : Text)
  | other (k : Text) (raw : Option String)

section Runs

variable (server : Server) (codec : ValueCodec V) (n : Text)

def call (c : HybridCache V) : Call V → HybridCache V × Reply V
  | .get key => (c.touch n key, .value (c.get codec n key))
  | .setWithTTL key v => (c.setWithTTL codec n key v, .ok)
  | .keys => (c, .keys (c.keys server n))
  | .deleteMany keys => ((c.deleteMany n keys).1, .deleted (c.deleteMany n keys).2)
  | .purge => (c.purge server n, .ok)
  | .deleteByPrefix s => ((c.deleteByPrefix server n s).1, .count (c.deleteByPrefix server n s).2)

def step (c : HybridCache V) : Event V → HybridCache V
  | .call q => (call server codec n c q).1
  | .expire k => c.expire k
  | .other k (some raw) => { c with redis := c.redis.insert k raw }
  | .other k none => { c with redis := c.redis.erase k }

/-- What the code takes for granted: values that can be read back, prefixes that are plain, and
others that keep to keys of their own. -/
def Fair : Event V → Prop
  | .call (.setWithTTL _ v) => codec.Valid v
  | .call (.deleteByPrefix s) => Plain (HybridCache.fullPrefix n s)
  | .call _ => True
  | .expire k => namespacePrefix n <+: k
  | .other k _ => ¬namespacePrefix n <+: k

/-- What is written is written under one of some keys. -/
def WritesIn (ks : List Text) : Event V → Prop
  | .call (.setWithTTL key _) => fullKey n key ∈ ks
  | _ => True

/-- A cache that is empty, among the keys of others. -/
def start (redisOn : Bool) (db : Store Text String) (capacity : ℕ) (h : 0 < capacity) :
    HybridCache V :=
  ⟨redisOn, db, .empty capacity h⟩

/-- Replies that are the same to a caller: keys in any order, and counts unless the server lists a
key twice. -/
def SameReply : Reply V → Reply V → Prop
  | .keys ks, .keys ks' => ∀ k, k ∈ ks ↔ k ∈ ks'
  | .count m, .count m' => (∀ db s, (server.scan db s).Nodup) → m = m'
  | r, r' => r = r'

end Runs

/-! ### One step -/

section Step

variable {server : Server} {codec : ValueCodec V} {n : Text} {c : HybridCache V} {e : Event V}
  {k : Text}

theorem redisOn_step (c : HybridCache V) (e : Event V) :
    (step server codec n c e).redisOn = c.redisOn := by
  cases e with
  | call q =>
    cases q with
    | get key => exact HybridCache.redisOn_touch
    | setWithTTL key v => exact HybridCache.redisOn_setWithTTL
    | keys => rfl
    | deleteMany ks => exact HybridCache.redisOn_deleteMany
    | purge =>
      rw [step, call, HybridCache.purge]
      split_ifs
      · exact HybridCache.redisOn_deleteMany
      · rfl
    | deleteByPrefix s =>
      by_cases hne : HybridCache.fullPrefix n s = []
      · rw [step, call, HybridCache.deleteByPrefix, if_pos hne]
      · rw [step, call, HybridCache.deleteByPrefix_eq hne]
        exact HybridCache.redisOn_deleteMany
  | expire k =>
    rw [step, HybridCache.expire]
    split_ifs <;> rfl
  | other k raw => cases raw <;> rfl

/-- **What is kept** after a step: a call writes under the namespace and through the codec only. -/
theorem kept_step (hn : namespacePrefix n ≠ []) (h : c.Kept codec n) (he : Fair codec n e) :
    (step server codec n c e).Kept codec n := by
  cases e with
  | call q =>
    cases q with
    | get key => exact h.touch key
    | setWithTTL key v => exact h.setWithTTL hn he key
    | keys => exact h
    | deleteMany ks => exact h.deleteMany ks
    | purge => exact h.purge
    | deleteByPrefix s => exact h.deleteByPrefix
  | expire k => exact h.expire k
  | other k raw =>
    have hne {k' : Text} (hk' : namespacePrefix n <+: k') : k' ≠ k := fun heq => he (heq ▸ hk')
    refine h.mono (fun k' raw' hk' hraw => ?_) ?_
    · cases raw with
      | none =>
        rw [step, lookup_erase_eq, if_neg (hne hk')] at hraw
        exact hraw
      | some raw =>
        rw [step, lookup_insert_eq, if_neg (hne hk')] at hraw
        exact hraw
    · cases raw <;> exact fun _ => id

theorem kept_run (hn : namespacePrefix n ≠ []) (h : c.Kept codec n) {es : List (Event V)}
    (hes : ∀ e ∈ es, Fair codec n e) : (run (step server codec n) c es).Kept codec n := by
  induction es generalizing c with
  | nil => exact h
  | cons e es ih =>
    obtain ⟨he, hes⟩ := List.forall_mem_cons.mp hes
    exact ih (kept_step hn h he) hes

/-- An empty cache has what was written into it: nothing. -/
theorem kept_start {db : Store Text String} (hdb : ∀ k ∈ db, ¬namespacePrefix n <+: k)
    (redisOn : Bool) {capacity : ℕ} (hpos : 0 < capacity) :
    (start redisOn db capacity hpos).Kept codec n := by
  refine ⟨fun k raw hk hraw => ?_, fun k hk => absurd hk (AList.notMem_empty k)⟩
  exact absurd hk (hdb k (AList.lookup_isSome.mp (Option.isSome_of_eq_some hraw)))

/-- Deleting its own keys, a cache leaves those of others. -/
theorem lookup_redis_deleteMany (hn : namespacePrefix n ≠ []) (hk : ¬namespacePrefix n <+: k)
    (ks : List Text) : (c.deleteMany n ks).1.redis.lookup k = c.redis.lookup k := by
  rw [HybridCache.deleteMany]
  split_ifs
  · dsimp only
    rw [lookup_deleteMany, if_neg]
    intro hmem
    obtain ⟨hmem, hne⟩ := List.mem_filter.mp hmem
    obtain ⟨key, -, rfl⟩ := List.mem_map.mp hmem
    exact hk (prefix_fullKey hn (of_decide_eq_true hne))
  · rfl

/-- **The keys of others** are changed by others only. -/
theorem lookup_redis_step (hn : namespacePrefix n ≠ []) (he : Fair codec n e)
    (hk : ¬namespacePrefix n <+: k) :
    (step server codec n c e).redis.lookup k =
      match e with
      | .other k' raw => if k = k' then raw else c.redis.lookup k
      | _ => c.redis.lookup k := by
  cases e with
  | call q =>
    cases q with
    | get key =>
      rw [step, call, HybridCache.touch]
      split_ifs <;> rfl
    -- the keys that are written and deleted are under the namespace
    | setWithTTL key v =>
      rw [step, call, HybridCache.setWithTTL]
      split_ifs with hfull
      · rfl
      · have hne : k ≠ fullKey n key := fun heq => hk (heq ▸ prefix_fullKey hn hfull)
        dsimp only
        rw [lookup_insert_eq, if_neg hne]
      · rfl
    | keys => rfl
    | deleteMany ks => exact lookup_redis_deleteMany hn hk ks
    | purge =>
      rw [step, call, HybridCache.purge]
      split_ifs
      · exact lookup_redis_deleteMany hn hk _
      · rfl
    | deleteByPrefix s =>
      by_cases hne : HybridCache.fullPrefix n s = []
      · rw [step, call, HybridCache.deleteByPrefix, if_pos hne]
      · rw [step, call, HybridCache.deleteByPrefix_eq hne]
        exact lookup_redis_deleteMany hn hk _
  | expire k' =>
    have hne : k ≠ k' := fun heq => hk (heq ▸ he)
    rw [step, HybridCache.expire]
    split_ifs
    · dsimp only
      rw [lookup_erase_eq, if_neg hne]
    · rfl
  | other k' raw =>
    cases raw with
    | none => exact lookup_erase_eq _ _ _
    | some raw => exact lookup_insert_eq _ _ _ _

/-- Where others write and delete, the cache has what it had. -/
theorem entry_other (h : namespacePrefix n <+: k) {k' : Text} (hk' : ¬namespacePrefix n <+: k')
    (raw : Option String) :
    (step server codec n c (.other k' raw)).entry codec k = c.entry codec k := by
  have hne : k ≠ k' := fun heq => hk' (heq ▸ h)
  have hredis : (step server codec n c (.other k' raw)).redis.lookup k = c.redis.lookup k := by
    cases raw with
    | none => rw [step, lookup_erase_eq, if_neg hne]
    | some raw => rw [step, lookup_insert_eq, if_neg hne]
  have hmemory : (step server codec n c (.other k' raw)).memory = c.memory := by
    cases raw <;> rfl
  rw [HybridCache.entry, HybridCache.entry, redisOn_step, hredis, hmemory]

/-- A memory keeps its size, and its keys are among those that are written. -/
theorem memory_step (server : Server) (codec : ValueCodec V) {ks : List Text}
    (hmemory : c.redisOn = false) (he : WritesIn n ks e) (h : ∀ k ∈ c.memory.store, k ∈ ks) :
    (step server codec n c e).memory.capacity = c.memory.capacity ∧
      ∀ k ∈ (step server codec n c e).memory.store, k ∈ ks := by
  -- no deletion and no touch brings a key in
  have hdelete (keys : List Text) : (c.deleteMany n keys).1.memory.capacity = c.memory.capacity ∧
      ∀ k ∈ (c.deleteMany n keys).1.memory.store, k ∈ ks := by
    rw [HybridCache.deleteMany_memory hmemory]
    refine ⟨rfl, fun k hk => h k ?_⟩
    dsimp only at hk
    rw [Lru.mem_store_iff, Lru.lookup_deleteMany] at hk
    split_ifs at hk
    · exact absurd hk Bool.false_ne_true
    · exact Lru.mem_store_iff.mpr hk
  cases e with
  | call q =>
    cases q with
    | get key =>
      rw [step, call, HybridCache.touch]
      split_ifs
      · exact ⟨rfl, h⟩
      · refine ⟨Lru.capacity_touch, fun k hk => h k ?_⟩
        rw [Lru.mem_store_iff, Lru.lookup_touch] at hk
        exact Lru.mem_store_iff.mpr hk
    | setWithTTL key v =>
      rw [step, call, HybridCache.setWithTTL, if_neg (ne_true_of_eq_false hmemory)]
      split_ifs
      · exact ⟨rfl, h⟩
      · refine ⟨rfl, fun k hk => ?_⟩
        rcases HybridCache.mem_memory_set hk with rfl | hk
        · exact he
        · exact h k hk
    | keys => exact ⟨rfl, h⟩
    | deleteMany keys => exact hdelete keys
    | purge =>
      rw [step, call, HybridCache.purge, if_neg (ne_true_of_eq_false hmemory)]
      exact ⟨rfl, fun k hk => absurd hk (AList.notMem_empty k)⟩
    | deleteByPrefix s =>
      by_cases hne : HybridCache.fullPrefix n s = []
      · rw [step, call, HybridCache.deleteByPrefix, if_pos hne]
        exact ⟨rfl, h⟩
      · rw [step, call, HybridCache.deleteByPrefix_eq hne]
        exact hdelete _
  | expire k =>
    rw [step, HybridCache.expire, if_neg (ne_true_of_eq_false hmemory)]
    exact ⟨rfl, fun k hk => h k (AList.mem_erase.mp hk).2⟩
  | other k raw => cases raw <;> exact ⟨rfl, h⟩

end Step

/-! ### Both backends -/

section Agree

variable {server : Server} {codec : ValueCodec V} {n : Text} {c d c' d' : HybridCache V}
  {exact : Prop}

/-- A cache in Redis and one in memory. What is in memory is in Redis as well, and if the agreement
is exact, the other way round. The keys of others are the same. -/
structure Agree (exact : Prop) (codec : ValueCodec V) (n : Text) (c d : HybridCache V) : Prop where
  redisOn : c.redisOn = true
  redisOff : d.redisOn = false
  keptRedis : c.Kept codec n
  keptMemory : d.Kept codec n
  inside : ∀ k, namespacePrefix n <+: k →
    d.entry codec k = c.entry codec k ∨ ¬exact ∧ d.entry codec k = none
  outside : ∀ k, ¬namespacePrefix n <+: k → c.redis.lookup k = d.redis.lookup k

theorem Agree.inside_of_ite (h : Agree exact codec n c d) (p : Text → Prop) [DecidablePred p]
    (v : Option V)
    (hc : ∀ k, namespacePrefix n <+: k → c'.entry codec k = if p k then v else c.entry codec k)
    (hd : ∀ k, namespacePrefix n <+: k → d'.entry codec k = if p k then v else d.entry codec k)
    (k : Text) (hk : namespacePrefix n <+: k) :
    d'.entry codec k = c'.entry codec k ∨ ¬exact ∧ d'.entry codec k = none := by
  rw [hc k hk, hd k hk]
  split_ifs
  · exact .inl rfl
  · exact h.inside k hk

/-- **Writing** leaves an agreement that is exact as it is if there is room in memory. -/
theorem Agree.inside_setWithTTL (h : Agree exact codec n c d) {key : Text} {v : V}
    (hv : codec.Valid v) (hroom : exact → d.HasRoom (fullKey n key)) (k : Text)
    (hk : namespacePrefix n <+: k) :
    (d.setWithTTL codec n key v).entry codec k = (c.setWithTTL codec n key v).entry codec k ∨
      ¬exact ∧ (d.setWithTTL codec n key v).entry codec k = none := by
  by_cases hfull : fullKey n key = []
  · rw [HybridCache.setWithTTL, HybridCache.setWithTTL, if_pos hfull, if_pos hfull]
    exact h.inside k hk
  by_cases hkey : k = fullKey n key
  · rw [hkey, HybridCache.entry_setWithTTL_self hv hfull,
      HybridCache.entry_setWithTTL_self hv hfull]
    exact .inl rfl
  · rw [HybridCache.entry_setWithTTL_of_room (.inl h.redisOn) hkey]
    by_cases hexact : exact
    · rw [HybridCache.entry_setWithTTL_of_room (hroom hexact) hkey]
      exact h.inside k hk
    · rcases HybridCache.entry_setWithTTL_of_ne hkey with hentry | hentry
      · rw [hentry]
        exact h.inside k hk
      · exact .inr ⟨hexact, hentry⟩

/-- **A step** keeps the caches in agreement. -/
theorem agree_step (hn : namespacePrefix n ≠ []) (hplain : Plain (namespacePrefix n))
    (h : Agree exact codec n c d) {e : Event V} (he : Fair codec n e)
    (hroom : exact → ∀ key v, e = .call (.setWithTTL key v) → d.HasRoom (fullKey n key)) :
    Agree exact codec n (step server codec n c e) (step server codec n d e) := by
  refine ⟨(redisOn_step c e).trans h.redisOn, (redisOn_step d e).trans h.redisOff,
    kept_step hn h.keptRedis he, kept_step hn h.keptMemory he, ?_, fun k hk => ?_⟩
  · -- inside the namespace, an event changes the entries of the two in the same way
    cases e with
    | call q =>
      cases q with
      | get key =>
        intro k hk
        have hentry := h.inside k hk
        rwa [← HybridCache.entry_touch c key, ← HybridCache.entry_touch d key] at hentry
      | setWithTTL key v => exact h.inside_setWithTTL he fun hexact => hroom hexact key v rfl
      | keys => exact h.inside
      | deleteMany ks =>
        exact h.inside_of_ite (· ∈ (ks.map (fullKey n)).filter (· ≠ [])) none
          (fun k _ => HybridCache.entry_deleteMany c ks k)
          (fun k _ => HybridCache.entry_deleteMany d ks k)
      | purge =>
        exact h.inside_of_ite (namespacePrefix n <+: ·) none
          (fun k _ => h.keptRedis.entry_purge hn hplain k)
          (fun k _ => h.keptMemory.entry_purge hn hplain k)
      | deleteByPrefix s =>
        by_cases hne : HybridCache.fullPrefix n s = []
        · rw [step, step, call, call, HybridCache.deleteByPrefix, HybridCache.deleteByPrefix,
            if_pos hne, if_pos hne]
          exact h.inside
        · exact h.inside_of_ite (HybridCache.fullPrefix n s <+: ·) none
            (fun k _ => h.keptRedis.entry_deleteByPrefix hn he hne k)
            (fun k _ => h.keptMemory.entry_deleteByPrefix hn he hne k)
    | expire k =>
      exact h.inside_of_ite (· = k) none (fun k' _ => HybridCache.entry_expire c k k')
        (fun k' _ => HybridCache.entry_expire d k k')
    | other k' raw =>
      intro k hk
      rw [entry_other hk he, entry_other hk he]
      exact h.inside k hk
  · rw [lookup_redis_step hn he hk, lookup_redis_step hn he hk]
    cases e <;> simp only [h.outside k hk]

/-- **A run** keeps the caches in agreement. It is exact if no more keys are written than there is
room for. -/
theorem agree_run (hn : namespacePrefix n ≠ []) (hplain : Plain (namespacePrefix n))
    (ks : List Text) (h : Agree exact codec n c d)
    (hroom : exact → ks.length ≤ d.memory.capacity ∧ ∀ k ∈ d.memory.store, k ∈ ks)
    {es : List (Event V)} (hes : ∀ e ∈ es, Fair codec n e)
    (hwrites : exact → ∀ e ∈ es, WritesIn n ks e) :
    Agree exact codec n (run (step server codec n) c es) (run (step server codec n) d es) := by
  induction es generalizing c d with
  | nil => exact h
  | cons e es ih =>
    obtain ⟨he, hes⟩ := List.forall_mem_cons.mp hes
    refine ih (agree_step hn hplain h he ?_) (fun hexact => ?_) hes fun hexact =>
      (List.forall_mem_cons.mp (hwrites hexact)).2
    · rintro hexact key v rfl
      obtain ⟨hle, hsub⟩ := hroom hexact
      exact .inr (Lru.hasRoom_of_subset hle hsub (hwrites hexact _ List.mem_cons_self))
    · obtain ⟨hle, hsub⟩ := hroom hexact
      obtain ⟨hcapacity, hkeys⟩ := memory_step server codec h.redisOff
        (hwrites hexact e List.mem_cons_self) hsub
      exact ⟨hcapacity ▸ hle, hkeys⟩

theorem agree_start {db : Store Text String} (hdb : ∀ k ∈ db, ¬namespacePrefix n <+: k)
    {capacity : ℕ} (hpos : 0 < capacity) :
    Agree exact codec n (start true db capacity hpos) (start false db capacity hpos) := by
  refine ⟨rfl, rfl, kept_start hdb true hpos, kept_start hdb false hpos, fun k hk => .inl ?_,
    fun k _ => rfl⟩
  rw [HybridCache.entry_memory rfl, HybridCache.entry_redis rfl]
  have hnone : db.lookup k = none := AList.lookup_eq_none.mpr fun hmem => hdb k hmem hk
  exact (AList.lookup_empty k).trans (congrArg (Option.bind · codec.decode) hnone).symm

/-! ### Replies -/

/-- **What memory finds**, Redis finds. -/
theorem Agree.get_of_get (h : Agree exact codec n c d) (hn : namespacePrefix n ≠ []) {key : Text}
    {v : V} (hget : d.get codec n key = some (some v)) : c.get codec n key = some (some v) := by
  rw [h.keptMemory.get_eq hn] at hget
  rw [h.keptRedis.get_eq hn]
  split_ifs at hget ⊢ with hfull
  · cases hget
  · rcases h.inside _ (prefix_fullKey hn hfull) with hentry | hentry
    · rwa [← hentry]
    · rw [hentry.2] at hget
      cases hget

/-- **What memory lists**, Redis lists. -/
theorem Agree.mem_keys_of_mem (h : Agree exact codec n c d) (hplain : Plain (namespacePrefix n))
    {k : Text} (hk : k ∈ d.keys server n) : k ∈ c.keys server n := by
  rw [h.keptMemory.mem_keys hplain] at hk
  rw [h.keptRedis.mem_keys hplain]
  refine ⟨hk.1, ?_⟩
  rcases h.inside k hk.1 with hentry | hentry
  · exact hentry ▸ hk.2
  · rw [hentry.2] at hk
    exact absurd hk.2 Bool.false_ne_true

theorem Agree.entry_eq (h : Agree True codec n c d) {k : Text} (hk : namespacePrefix n <+: k) :
    d.entry codec k = c.entry codec k :=
  (h.inside k hk).resolve_right fun hnot => hnot.1 trivial

theorem Agree.mem_iff (h : Agree True codec n c d) {k : Text} (hk : namespacePrefix n <+: k) :
    k ∈ c.redis ↔ k ∈ d.memory.store := by
  have hredis : (c.entry codec k).isSome ↔ _ := h.keptRedis.isSome_entry_iff hk
  have hmemory : (d.entry codec k).isSome ↔ _ := h.keptMemory.isSome_entry_iff hk
  rw [if_pos h.redisOn] at hredis
  rw [if_neg (ne_true_of_eq_false h.redisOff)] at hmemory
  rw [← hredis, ← hmemory, h.entry_eq hk]

theorem Agree.snd_deleteMany (h : Agree True codec n c d) (hn : namespacePrefix n ≠ [])
    (ks : List Text) : (c.deleteMany n ks).2 = (d.deleteMany n ks).2 := by
  rw [HybridCache.deleteMany_redis h.redisOn, HybridCache.deleteMany_memory h.redisOff]
  refine deleteMany_snd_congr fun k hk => ?_
  obtain ⟨hmem, hne⟩ := List.mem_filter.mp hk
  obtain ⟨key, -, rfl⟩ := List.mem_map.mp hmem
  exact h.mem_iff (prefix_fullKey hn (of_decide_eq_true hne))

/-- As many keys are deleted, if the server lists none twice. -/
theorem Agree.snd_deleteByPrefix (h : Agree True codec n c d) (hn : namespacePrefix n ≠ [])
    {s : Text} (hs : Plain (HybridCache.fullPrefix n s))
    (hnodup : ∀ db s, (server.scan db s).Nodup) :
    (c.deleteByPrefix server n s).2 = (d.deleteByPrefix server n s).2 := by
  by_cases hne : HybridCache.fullPrefix n s = []
  · rw [HybridCache.deleteByPrefix, HybridCache.deleteByPrefix, if_pos hne, if_pos hne]
  rw [HybridCache.deleteByPrefix_eq hne, HybridCache.deleteByPrefix_eq hne,
    HybridCache.deleteMany_redis h.redisOn, HybridCache.deleteMany_memory h.redisOff]
  dsimp only
  rw [h.keptRedis.fullKeysUnder hn hs hne, h.keptMemory.fullKeysUnder hn hs hne]
  have hstarts := HybridCache.prefix_fullPrefix hn hne
  have hredis (k : Text) : k ∈ c.keysUnder server n s ↔
      HybridCache.fullPrefix n s <+: k ∧ (c.entry codec k).isSome :=
    h.keptRedis.mem_keysUnder hn hs hne
  have hmemory (k : Text) : k ∈ d.keysUnder server n s ↔
      HybridCache.fullPrefix n s <+: k ∧ (d.entry codec k).isSome :=
    h.keptMemory.mem_keysUnder hn hs hne
  have hnodupRedis : (c.keysUnder server n s).Nodup := by
    rw [HybridCache.keysUnder, if_pos h.redisOn]
    exact hnodup _ _
  have hnodupMemory : (d.keysUnder server n s).Nodup := by
    rw [HybridCache.keysUnder, if_neg (ne_true_of_eq_false h.redisOff)]
    exact d.memory.store.keys_nodup.filter _
  -- the same keys are deleted, in another order
  have hperm : (c.keysUnder server n s).Perm (d.keysUnder server n s) := by
    refine (List.perm_ext_iff_of_nodup hnodupRedis hnodupMemory).mpr fun k => ?_
    rw [hredis, hmemory]
    exact and_congr_right fun hk => by rw [h.entry_eq (hstarts.trans hk)]
  have hdeletedRedis := deletedCount_deleteMany hnodupRedis fun k hk => by
    have hentry := (hredis k).mp hk
    have hiff := h.keptRedis.isSome_entry_iff (hstarts.trans hentry.1)
    rw [if_pos h.redisOn] at hiff
    exact hiff.mp hentry.2
  have hdeletedMemory := deletedCount_deleteMany hnodupMemory fun k hk => by
    have hentry := (hmemory k).mp hk
    have hiff := h.keptMemory.isSome_entry_iff (hstarts.trans hentry.1)
    rw [if_neg (ne_true_of_eq_false h.redisOff)] at hiff
    exact hiff.mp hentry.2
  exact hdeletedRedis.trans (hperm.length_eq.trans hdeletedMemory.symm)

/-- **A reply** is the same on both backends if the agreement is exact. -/
theorem Agree.sameReply (h : Agree True codec n c d) (hn : namespacePrefix n ≠ [])
    (hplain : Plain (namespacePrefix n)) {q : Call V} (hq : Fair codec n (.call q)) :
    SameReply server (call server codec n c q).2 (call server codec n d q).2 := by
  cases q with
  | get key =>
    refine congrArg Reply.value ?_
    rw [h.keptRedis.get_eq hn, h.keptMemory.get_eq hn]
    split_ifs with hfull
    · rfl
    · rw [h.entry_eq (prefix_fullKey hn hfull)]
  | setWithTTL key v => rfl
  | keys =>
    intro k
    rw [h.keptRedis.mem_keys hplain, h.keptMemory.mem_keys hplain]
    exact and_congr_right fun hk => by rw [h.entry_eq hk]
  | deleteMany ks => exact congrArg Reply.deleted (h.snd_deleteMany hn ks)
  | purge => rfl
  | deleteByPrefix s => exact h.snd_deleteByPrefix hn hq

/-- **Both backends are the same** to a caller who writes no more keys than the memory has room for.
After any calls, and with the same doings of others in the database between them, what memory finds
or lists is what Redis finds or lists; where at most as many keys were written as there is room for,
the next call has the same reply; and the keys of others are what the others have made of them. -/
theorem sameReply_of_run (hn : namespacePrefix n ≠ []) (hplain : Plain (namespacePrefix n))
    {db : Store Text String} (hdb : ∀ k ∈ db, ¬namespacePrefix n <+: k) {capacity : ℕ}
    (hpos : 0 < capacity) {es : List (Event V)} (hes : ∀ e ∈ es, Fair codec n e)
    (hc : run (step server codec n) (start true db capacity hpos) es = c)
    (hd : run (step server codec n) (start false db capacity hpos) es = d) :
    (∀ key v, d.get codec n key = some (some v) → c.get codec n key = some (some v)) ∧
      (∀ k ∈ d.keys server n, k ∈ c.keys server n) ∧
      (∀ ks, ks.length ≤ capacity → (∀ e ∈ es, WritesIn n ks e) → ∀ q, Fair codec n (.call q) →
        SameReply server (call server codec n c q).2 (call server codec n d q).2) ∧
      ∀ k, ¬namespacePrefix n <+: k → c.redis.lookup k = d.redis.lookup k := by
  subst hc hd
  have hrun : Agree False codec n (run (step server codec n) (start true db capacity hpos) es)
      (run (step server codec n) (start false db capacity hpos) es) :=
    agree_run hn hplain [] (agree_start hdb hpos) False.elim hes False.elim
  refine ⟨fun key v => hrun.get_of_get hn, fun k => hrun.mem_keys_of_mem hplain,
    fun ks hle hwrites q hq => ?_, hrun.outside⟩
  have hexact : Agree True codec n (run (step server codec n) (start true db capacity hpos) es)
      (run (step server codec n) (start false db capacity hpos) es) :=
    agree_run hn hplain ks (agree_start hdb hpos)
      (fun _ => ⟨hle, fun k hk => absurd hk (AList.notMem_empty k)⟩) hes fun _ => hwrites
  exact hexact.sameReply hn hplain hq

end Agree

section Sample

/-- A server that knows no patterns but those for the beginning of a key. -/
def sampleServer : Server where
  scan db pattern := db.keys.filter (pattern.dropLast <+: ·)
  mem_scan db s _ k := by
    rw [List.dropLast_concat, List.mem_filter, AList.mem_keys, decide_eq_true_iff]

/-- The name of a cache. -/
def affinityNamespace : Text := "affinity:v1".toList

/-- Two channels are remembered, others write a key, and one of the channels is forgotten. -/
def sampleEvents : List (Event ℤ) :=
  [.call (.setWithTTL "r:a".toList 7), .other "user:1".toList (some "x"),
    .call (.setWithTTL "s:a".toList 8), .call (.deleteByPrefix "r".toList)]

/-- The cache after these events, with room for two of them in memory. -/
def sampleCache (redisOn : Bool) : HybridCache ℤ :=
  run (step sampleServer intCodec affinityNamespace)
    (start redisOn ∅ 2 (by decide)) sampleEvents

theorem run_sampleEvents (redisOn : Bool) :
    run (step sampleServer intCodec affinityNamespace) (start redisOn ∅ 2 (by decide))
      sampleEvents = sampleCache redisOn :=
  rfl

theorem plain_affinityNamespace : Plain (namespacePrefix affinityNamespace) := by
  decide +kernel

theorem fair_sampleEvents : ∀ e ∈ sampleEvents, Fair intCodec affinityNamespace e := by
  have hfull : Plain (HybridCache.fullPrefix affinityNamespace "r".toList) := by
    decide +kernel
  have hother : ¬namespacePrefix affinityNamespace <+: "user:1".toList := by
    decide +kernel
  simp only [sampleEvents, List.forall_mem_cons]
  exact ⟨⟨by decide, by decide⟩, hother, ⟨by decide, by decide⟩, hfull, by simp⟩

/-- Two keys were written, so there is room for them. -/
theorem sameReply_sample :
    SameReply sampleServer
        (call sampleServer intCodec affinityNamespace (sampleCache true) .keys).2
        (call sampleServer intCodec affinityNamespace (sampleCache false) .keys).2 ∧
      ∀ k, ¬namespacePrefix affinityNamespace <+: k →
        (sampleCache true).redis.lookup k = (sampleCache false).redis.lookup k := by
  obtain ⟨-, -, hsame, houtside⟩ := sameReply_of_run (by decide +kernel) plain_affinityNamespace
    (fun k hk => absurd hk (AList.notMem_empty k)) (by decide) fair_sampleEvents
    (run_sampleEvents true) (run_sampleEvents false)
  refine ⟨hsame ["affinity:v1:r:a".toList, "affinity:v1:s:a".toList] (by decide) ?_ .keys trivial,
    houtside⟩
  simp only [sampleEvents, List.forall_mem_cons]
  exact ⟨List.mem_cons.mpr (.inl (by decide +kernel)), trivial,
    List.mem_cons_of_mem _ (List.mem_singleton.mpr (by decide +kernel)), trivial, by simp⟩

end Sample

end NewApiPool.Cachex
