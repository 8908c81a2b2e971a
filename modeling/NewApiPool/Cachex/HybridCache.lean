import NewApiPool.Cachex.Namespace
import NewApiPool.Lib.Lru

/-!
# The cache on two backends

A cache keeps its entries in Redis if that is enabled, and in memory if not. In Redis they lie
among the keys of all others, behind a prefix of their own, and what is to be listed or deleted is
looked for by a pattern. In memory the keys are compared; there is room for some entries only, and
the one that has not been used for the longest time is given up for a new one.

On either backend the cache is a map from full keys (`HybridCache.entry`), and each operation is
described by what it does to this map. Keys of others are left alone, and what lies under the prefix
is what the cache has written there (`Kept`). This takes prefixes in which no character has a
meaning of its own in a pattern.
-/

namespace NewApiPool.Cachex

open GoText KeyStore

variable {V : Type}

/-! ### Values -/

/-- `ValueCodec`, for the values that are kept. Texts that are no value of the type are not
decoded. -/
structure ValueCodec (V : Type) where
  encode : V → String
  decode : String → Option V
  Valid : V → Prop
  decode_encode : ∀ v, Valid v → decode (encode v) = some v

/-- `IntCodec.Decode`. -/
def decodeInt (s : String) : Option ℤ :=
  let s := trimSpace s
  if s = "" then none else atoi s

theorem decodeInt_toString {i : ℤ} (hpos : 0 < i) (hlt : i < 2 ^ 63) :
    decodeInt (toString i) = some i := by
  obtain ⟨m, rfl⟩ := Int.eq_ofNat_of_zero_le (Int.le_of_lt hpos)
  have htext : toString (m : ℤ) = m.repr := rfl
  rw [htext, decodeInt, trimSpace_repr]
  rw [if_neg (repr_ne_empty m), atoi_repr (by omega)]

/-- `IntCodec`, for numbers of channels. -/
def intCodec : ValueCodec ℤ where
  encode := toString
  decode := decodeInt
  Valid i := 0 < i ∧ i < 2 ^ 63
  decode_encode _ h := decodeInt_toString h.1 h.2

/-- Text that stands for itself in a pattern. -/
def Plain (s : Text) : Prop := ∀ c ∈ s, c ∉ ['*', '?', '[', ']', '\\']

instance : DecidablePred Plain := fun s => List.decidableBAll _ s

/-- The Redis server. `SCAN` may list a key more than once. -/
structure Server where
  scan : Store Text String → Text → List Text
  mem_scan : ∀ db s, Plain s → ∀ k, k ∈ scan db (s ++ ['*']) ↔ k ∈ db ∧ s <+: k

/-! ### The cache -/

/-- `HybridCache`: the database, and the memory of the process, which is a `hot.LRU`. Redis has its
values as text. -/
structure HybridCache (V : Type) where
  redisOn : Bool
  redis : Store Text String
  memory : Lru Text V

namespace HybridCache

section Operations

variable (server : Server) (codec : ValueCodec V) (n : Text) (c : HybridCache V)

/-- `HybridCache.Get`: the value, if one is found; `none` stands for an error. -/
def get (key : Text) : Option (Option V) :=
  let full := fullKey n key
  if full = [] then some none
  else if c.redisOn then
    match c.redis.lookup full with
    | some raw => (codec.decode raw).map some
    | none => some none
  else some (c.memory.lookup full)

/-- The cache that a `Get` leaves: in memory, what is found has been used. -/
def touch (key : Text) : HybridCache V :=
  let full := fullKey n key
  if full = [] ∨ c.redisOn then c else { c with memory := c.memory.touch full }

def setWithTTL (key : Text) (v : V) : HybridCache V :=
  let full := fullKey n key
  if full = [] then c
  else if c.redisOn then { c with redis := c.redis.insert full (codec.encode v) }
  else { c with memory := c.memory.set full v }

def keys : List Text :=
  if c.redisOn then server.scan c.redis (matchPattern n) else c.memory.store.keys

def deleteMany (keys : List Text) : HybridCache V × Store Text Bool :=
  let fullKeys := (keys.map (fullKey n)).filter (· ≠ [])
  if c.redisOn then
    let (redis, res) := KeyStore.deleteMany c.redis fullKeys
    ({ c with redis := redis }, res)
  else
    let (memory, res) := c.memory.deleteMany fullKeys
    ({ c with memory := memory }, res)

def purge : HybridCache V :=
  if c.redisOn then (c.deleteMany n (c.keys server n)).1 else { c with memory := c.memory.clear }

/-- What a prefix is completed to: it is one of whole components. -/
def fullPrefix (s : Text) : Text :=
  let full := fullKey n s
  if full = [] ∨ full.getLast? = some ':' then full else full ++ [':']

/-- `HybridCache.DeleteByPrefix`, with the number of the keys that were deleted. -/
def deleteByPrefix (s : Text) : HybridCache V × ℕ :=
  let full := fullPrefix n s
  if full = [] then (c, 0)
  else
    let keys :=
      if c.redisOn then server.scan c.redis (full ++ ['*'])
      else c.memory.store.keys.filter (full <+: ·)
    let (c, res) := c.deleteMany n keys
    (c, deletedCount res)

/-- The life of an entry ends. -/
def expire (k : Text) : HybridCache V :=
  if c.redisOn then { c with redis := c.redis.erase k } else { c with memory := c.memory.erase k }

/-- **The value that the cache has** under a full key. -/
def entry (k : Text) : Option V :=
  if c.redisOn then (c.redis.lookup k).bind codec.decode else c.memory.lookup k

/-- A value can be written under a full key, and nothing is given up for it. -/
def HasRoom (k : Text) : Prop :=
  c.redisOn = true ∨ c.memory.HasRoom k

/-- **What is in a cache** under its prefix: full keys, and in Redis values that can be read. In
memory there is nothing else. -/
structure Kept : Prop where
  redis : ∀ k raw, namespacePrefix n <+: k → c.redis.lookup k = some raw →
    fullKey n k = k ∧ ∃ v, codec.Valid v ∧ codec.encode v = raw
  memory : ∀ k ∈ c.memory.store, fullKey n k = k ∧ namespacePrefix n <+: k

end Operations

/-! ### Reading and writing -/

section Entries

variable {codec : ValueCodec V} {n : Text} {c : HybridCache V} {k key : Text} {v w : V}

theorem entry_redis (h : c.redisOn = true) (k : Text) :
    c.entry codec k = (c.redis.lookup k).bind codec.decode := by
  rw [entry, if_pos h]

theorem entry_memory (h : c.redisOn = false) (k : Text) :
    c.entry codec k = c.memory.lookup k := by
  rw [entry, if_neg (ne_true_of_eq_false h)]

theorem entry_withRedis (h : c.redisOn = true) (redis : Store Text String) (k : Text) :
    ({ c with redis := redis } : HybridCache V).entry codec k =
      (redis.lookup k).bind codec.decode :=
  if_pos h

theorem entry_withMemory (h : c.redisOn = false) (memory : Lru Text V) (k : Text) :
    ({ c with memory := memory } : HybridCache V).entry codec k = memory.lookup k :=
  if_neg (ne_true_of_eq_false h)

/-- What a `Get` finds, whether its errors are told or not. -/
theorem join_get (c : HybridCache V) (key : Text) :
    (c.get codec n key).join =
      if fullKey n key = [] then none else c.entry codec (fullKey n key) := by
  rw [get, entry]
  split_ifs with hfull hredis
  · rfl
  · cases c.redis.lookup (fullKey n key) with
    | none => rfl
    | some raw =>
      rw [Option.bind_some]
      dsimp only
      cases codec.decode raw <;> rfl
  · rfl

@[simp] theorem redisOn_touch : (c.touch n key).redisOn = c.redisOn := by
  rw [touch]
  split_ifs <;> rfl

@[simp] theorem redisOn_setWithTTL : (c.setWithTTL codec n key v).redisOn = c.redisOn := by
  rw [setWithTTL]
  split_ifs <;> rfl

theorem entry_touch (c : HybridCache V) (key k : Text) :
    (c.touch n key).entry codec k = c.entry codec k := by
  rw [touch]
  split_ifs with h
  · rfl
  · have hmemory : c.redisOn = false := eq_false_of_ne_true fun hon => h (.inr hon)
    rw [entry_withMemory hmemory, entry_memory hmemory, Lru.lookup_touch]

/-- **What was written is found**, on both backends. -/
theorem entry_setWithTTL_self (hv : codec.Valid v) (hfull : fullKey n key ≠ []) :
    (c.setWithTTL codec n key v).entry codec (fullKey n key) = some v := by
  rw [setWithTTL, if_neg hfull]
  split_ifs with hon
  · rw [entry_withRedis hon, AList.lookup_insert, Option.bind_some, codec.decode_encode v hv]
  · rw [entry_withMemory (eq_false_of_ne_true hon), Lru.lookup_set_self]

/-- **Writing** leaves the other entries, where nothing has to be given up for it. -/
theorem entry_setWithTTL_of_room (hroom : c.HasRoom (fullKey n key)) (h : k ≠ fullKey n key) :
    (c.setWithTTL codec n key v).entry codec k = c.entry codec k := by
  rw [setWithTTL]
  split_ifs with hfull hon
  · rfl
  · rw [entry_withRedis hon, entry_redis hon, lookup_insert_eq, if_neg h]
  · have hmemory := eq_false_of_ne_true hon
    rw [entry_withMemory hmemory, entry_memory hmemory,
      Lru.lookup_set_of_room (hroom.resolve_left hon), if_neg h]

/-- Where something is given up, what else is found was there before. -/
theorem entry_setWithTTL_of_ne (h : k ≠ fullKey n key) :
    (c.setWithTTL codec n key v).entry codec k = c.entry codec k ∨
      (c.setWithTTL codec n key v).entry codec k = none := by
  by_cases hon : c.redisOn = true
  · exact .inl (entry_setWithTTL_of_room (.inl hon) h)
  · rw [setWithTTL]
    split_ifs
    · exact .inl rfl
    · have hmemory := eq_false_of_ne_true hon
      rw [entry_withMemory hmemory, entry_memory hmemory]
      exact Lru.lookup_set_of_ne v h

end Entries

/-! ### What is kept -/

section Kept

variable {server : Server} {codec : ValueCodec V} {n : Text} {c c' : HybridCache V}
  {k key s : Text} {v : V} {ks : List Text}

/-- A cache that keeps entries under its namespace does so after some of them are gone. -/
theorem Kept.mono (h : Kept codec n c)
    (hredis : ∀ k raw, namespacePrefix n <+: k → c'.redis.lookup k = some raw →
      c.redis.lookup k = some raw)
    (hmemory : ∀ k ∈ c'.memory.store, k ∈ c.memory.store) : Kept codec n c' :=
  ⟨fun k raw hk hraw => h.redis k raw hk (hredis k raw hk hraw),
    fun k hk => h.memory k (hmemory k hk)⟩

/-- The keys that have a value are those that are there. -/
theorem Kept.isSome_entry_iff (h : Kept codec n c) (hk : namespacePrefix n <+: k) :
    (c.entry codec k).isSome ↔ if c.redisOn then k ∈ c.redis else k ∈ c.memory.store := by
  rw [entry]
  split_ifs with hon
  · cases hraw : c.redis.lookup k with
    | none => exact iff_of_false Bool.false_ne_true (AList.lookup_eq_none.mp hraw)
    | some raw =>
      obtain ⟨-, v, hv, rfl⟩ := h.redis k raw hk hraw
      rw [Option.bind_some, codec.decode_encode v hv]
      exact iff_of_true rfl (AList.lookup_isSome.mp (Option.isSome_of_eq_some hraw))
  · exact AList.lookup_isSome

theorem Kept.fullKey_eq (h : Kept codec n c) (hk : namespacePrefix n <+: k)
    (hentry : (c.entry codec k).isSome) : fullKey n k = k := by
  rw [h.isSome_entry_iff hk] at hentry
  split_ifs at hentry with hon
  · obtain ⟨raw, hraw⟩ := Option.isSome_iff_exists.mp (AList.lookup_isSome.mpr hentry)
    exact (h.redis k raw hk hraw).1
  · exact (h.memory k hentry).1

theorem Kept.entry_outside (h : Kept codec n c) (hmemory : c.redisOn = false)
    (hk : ¬namespacePrefix n <+: k) : c.entry codec k = none := by
  rw [entry_memory hmemory]
  exact AList.lookup_eq_none.mpr fun hmem => hk (h.memory k hmem).2

/-- What is read is a value: every text that is stored under the namespace was written by the codec,
so that it is decoded. -/
theorem Kept.get_eq (h : Kept codec n c) (hn : namespacePrefix n ≠ []) (key : Text) :
    c.get codec n key =
      some (if fullKey n key = [] then none else c.entry codec (fullKey n key)) := by
  rw [get, entry]
  split_ifs with hfull hon
  · rfl
  · cases hraw : c.redis.lookup (fullKey n key) with
    | none => rfl
    | some raw =>
      obtain ⟨-, v, hv, rfl⟩ := h.redis _ raw (prefix_fullKey hn hfull) hraw
      rw [Option.bind_some]
      dsimp only
      rw [codec.decode_encode v hv]
      rfl
  · rfl

/-- **Listing** shows the keys that have a value. -/
theorem Kept.mem_keys (h : Kept codec n c) (hplain : Plain (namespacePrefix n)) :
    k ∈ c.keys server n ↔ namespacePrefix n <+: k ∧ (c.entry codec k).isSome := by
  rw [and_congr_right fun hk => h.isSome_entry_iff hk, keys]
  split_ifs with hon
  · rw [matchPattern, server.mem_scan _ _ hplain, and_comm]
  · rw [AList.mem_keys, iff_and_self]
    exact fun hk => (h.memory k hk).2

/-! ### Deleting -/

theorem deleteMany_redis (h : c.redisOn = true) (ks : List Text) :
    c.deleteMany n ks =
      ({ c with redis := (KeyStore.deleteMany c.redis ((ks.map (fullKey n)).filter (· ≠ []))).1 },
        (KeyStore.deleteMany c.redis ((ks.map (fullKey n)).filter (· ≠ []))).2) :=
  if_pos h

theorem deleteMany_memory (h : c.redisOn = false) (ks : List Text) :
    c.deleteMany n ks =
      ({ c with memory := (c.memory.deleteMany ((ks.map (fullKey n)).filter (· ≠ []))).1 },
        (c.memory.deleteMany ((ks.map (fullKey n)).filter (· ≠ []))).2) :=
  if_neg (ne_true_of_eq_false h)

/-- **Deleting** takes away the entries of the keys that are given, and of no other. -/
theorem entry_deleteMany (c : HybridCache V) (ks : List Text) (k : Text) :
    (c.deleteMany n ks).1.entry codec k =
      if k ∈ (ks.map (fullKey n)).filter (· ≠ []) then none else c.entry codec k := by
  by_cases hon : c.redisOn = true
  · rw [deleteMany_redis hon, entry_withRedis hon, entry_redis hon, lookup_deleteMany]
    split_ifs <;> rfl
  · have hmemory := eq_false_of_ne_true hon
    rw [deleteMany_memory hmemory, entry_withMemory hmemory, entry_memory hmemory,
      Lru.lookup_deleteMany]
    split_ifs <;> rfl

@[simp] theorem redisOn_deleteMany : (c.deleteMany n ks).1.redisOn = c.redisOn := by
  rw [deleteMany]
  split_ifs <;> rfl

theorem Kept.deleteMany (h : Kept codec n c) (ks : List Text) :
    Kept codec n (c.deleteMany n ks).1 := by
  by_cases hon : c.redisOn = true
  · rw [deleteMany_redis hon]
    refine h.mono (fun k raw _ hraw => ?_) fun _ => id
    dsimp only at hraw
    rw [lookup_deleteMany] at hraw
    split_ifs at hraw
    exact hraw
  · rw [deleteMany_memory (eq_false_of_ne_true hon)]
    refine h.mono (fun _ _ _ => id) fun k hk => ?_
    dsimp only at hk
    rw [Lru.mem_store_iff, Lru.lookup_deleteMany] at hk
    split_ifs at hk
    · exact absurd hk Bool.false_ne_true
    · exact Lru.mem_store_iff.mpr hk

/-- Keys that are full and not empty are deleted as they are. -/
theorem Kept.fullKeys_eq_self (h : Kept codec n c) (hn : namespacePrefix n ≠ [])
    (hks : ∀ k ∈ ks, namespacePrefix n <+: k ∧ (c.entry codec k).isSome) :
    (ks.map (fullKey n)).filter (· ≠ []) = ks := by
  refine Cachex.fullKeys_eq_self fun k hk => ?_
  obtain ⟨hstarts, hentry⟩ := hks k hk
  refine ⟨h.fullKey_eq hstarts hentry, ?_⟩
  rintro rfl
  exact hn (List.prefix_nil.mp hstarts)

/-- **Deleting all** leaves no entry under the namespace, on either side. -/
theorem Kept.entry_purge (h : Kept codec n c) (hn : namespacePrefix n ≠ [])
    (hplain : Plain (namespacePrefix n)) (k : Text) :
    (c.purge server n).entry codec k =
      if namespacePrefix n <+: k then none else c.entry codec k := by
  rw [purge]
  split_ifs with hon hk hk
  · rw [entry_deleteMany, h.fullKeys_eq_self hn fun k hk => (h.mem_keys hplain).mp hk]
    split_ifs with hmem
    · rfl
    · exact Option.not_isSome_iff_eq_none.mp fun hentry =>
        hmem ((h.mem_keys hplain).mpr ⟨hk, hentry⟩)
  · rw [entry_deleteMany, h.fullKeys_eq_self hn fun k hk => (h.mem_keys hplain).mp hk,
      if_neg fun hmem => hk ((h.mem_keys hplain).mp hmem).1]
  · rw [entry_withMemory (eq_false_of_ne_true hon)]
    exact AList.lookup_empty k
  · rw [h.entry_outside (eq_false_of_ne_true hon) hk,
      entry_withMemory (eq_false_of_ne_true hon)]
    exact AList.lookup_empty k

theorem Kept.purge (h : Kept codec n c) : Kept codec n (c.purge server n) := by
  rw [HybridCache.purge]
  split_ifs
  · exact h.deleteMany _
  · exact h.mono (fun _ _ _ => id) fun k hk => absurd hk (AList.notMem_empty k)

theorem prefix_fullPrefix (hn : namespacePrefix n ≠ []) (h : fullPrefix n s ≠ []) :
    namespacePrefix n <+: fullPrefix n s := by
  rw [fullPrefix] at h ⊢
  split_ifs at h ⊢ with hfull
  · exact prefix_fullKey hn h
  · exact (prefix_fullKey hn fun hempty => hfull (.inl hempty)).trans (List.prefix_append _ _)

/-- The keys with a prefix, as they are listed by the server or found in memory. -/
def keysUnder (server : Server) (n : Text) (c : HybridCache V) (s : Text) : List Text :=
  if c.redisOn then server.scan c.redis (fullPrefix n s ++ ['*'])
  else c.memory.store.keys.filter (fullPrefix n s <+: ·)

theorem deleteByPrefix_eq (h : fullPrefix n s ≠ []) :
    c.deleteByPrefix server n s =
      ((c.deleteMany n (c.keysUnder server n s)).1,
        deletedCount (c.deleteMany n (c.keysUnder server n s)).2) := by
  rw [deleteByPrefix, if_neg h]
  rfl

theorem Kept.mem_keysUnder (h : Kept codec n c) (hn : namespacePrefix n ≠ [])
    (hs : Plain (fullPrefix n s)) (hne : fullPrefix n s ≠ []) :
    k ∈ c.keysUnder server n s ↔ fullPrefix n s <+: k ∧ (c.entry codec k).isSome := by
  have hstarts := prefix_fullPrefix hn hne
  rw [and_congr_right fun hk => h.isSome_entry_iff (hstarts.trans hk), keysUnder]
  split_ifs with hon
  · rw [server.mem_scan _ _ hs, and_comm]
  · rw [List.mem_filter, AList.mem_keys, decide_eq_true_iff, and_comm]

theorem Kept.fullKeysUnder (h : Kept codec n c) (hn : namespacePrefix n ≠ [])
    (hs : Plain (fullPrefix n s)) (hne : fullPrefix n s ≠ []) :
    ((c.keysUnder server n s).map (fullKey n)).filter (· ≠ []) = c.keysUnder server n s :=
  h.fullKeys_eq_self hn fun _ hk =>
    ((h.mem_keysUnder hn hs hne).mp hk).imp_left (prefix_fullPrefix hn hne).trans

/-- **Deleting what has a prefix** deletes just that. -/
theorem Kept.entry_deleteByPrefix (h : Kept codec n c) (hn : namespacePrefix n ≠ [])
    (hs : Plain (fullPrefix n s)) (hne : fullPrefix n s ≠ []) (k : Text) :
    (c.deleteByPrefix server n s).1.entry codec k =
      if fullPrefix n s <+: k then none else c.entry codec k := by
  have hmem : k ∈ c.keysUnder server n s ↔ fullPrefix n s <+: k ∧ (c.entry codec k).isSome :=
    h.mem_keysUnder hn hs hne
  rw [deleteByPrefix_eq hne, entry_deleteMany, h.fullKeysUnder hn hs hne]
  by_cases hk : fullPrefix n s <+: k
  · rw [if_pos hk]
    split_ifs with hkey
    · rfl
    · exact Option.not_isSome_iff_eq_none.mp fun hsome => hkey (hmem.mpr ⟨hk, hsome⟩)
  · rw [if_neg hk, if_neg fun hkey => hk (hmem.mp hkey).1]

theorem Kept.deleteByPrefix (h : Kept codec n c) :
    Kept codec n (c.deleteByPrefix server n s).1 := by
  by_cases hne : fullPrefix n s = []
  · rw [HybridCache.deleteByPrefix, if_pos hne]
    exact h
  · rw [deleteByPrefix_eq hne]
    exact h.deleteMany _

/-! ### What is written is kept -/

theorem Kept.touch (h : Kept codec n c) (key : Text) : Kept codec n (c.touch n key) := by
  rw [HybridCache.touch]
  split_ifs
  · exact h
  · refine h.mono (fun _ _ _ => id) fun k hk => ?_
    rw [Lru.mem_store_iff, Lru.lookup_touch] at hk
    exact Lru.mem_store_iff.mpr hk

/-- A key that is in memory after a value was written. -/
theorem mem_memory_set {memory : Lru Text V} {full : Text}
    (hk : k ∈ (memory.set full v).store) : k = full ∨ k ∈ memory.store := by
  by_cases hkey : k = full
  · exact .inl hkey
  · refine .inr ?_
    have hfound : (memory.set full v).lookup k ≠ none := fun hnone =>
      AList.lookup_eq_none.mp hnone hk
    rw [(Lru.lookup_set_of_ne v hkey).resolve_right hfound] at hfound
    exact not_not.mp (mt AList.lookup_eq_none.mpr hfound)

theorem Kept.setWithTTL (h : Kept codec n c) (hn : namespacePrefix n ≠ []) (hv : codec.Valid v)
    (key : Text) : Kept codec n (c.setWithTTL codec n key v) := by
  rw [HybridCache.setWithTTL]
  split_ifs with hfull hon
  · exact h
  · refine ⟨fun k raw hk hraw => ?_, h.memory⟩
    dsimp only at hraw
    rw [lookup_insert_eq] at hraw
    split_ifs at hraw with hkey
    · exact ⟨hkey ▸ fullKey_fullKey hn key, v, hv, Option.some.inj hraw⟩
    · exact h.redis k raw hk hraw
  · refine ⟨h.redis, fun k hk => ?_⟩
    rcases mem_memory_set hk with rfl | hk
    · exact ⟨fullKey_fullKey hn key, prefix_fullKey hn hfull⟩
    · exact h.memory k hk

theorem entry_expire (c : HybridCache V) (k k' : Text) :
    (c.expire k).entry codec k' = if k' = k then none else c.entry codec k' := by
  rw [expire]
  by_cases hon : c.redisOn = true
  · rw [if_pos hon, entry_withRedis hon, entry_redis hon, lookup_erase_eq]
    split_ifs <;> rfl
  · have hmemory := eq_false_of_ne_true hon
    rw [if_neg hon, entry_withMemory hmemory, entry_memory hmemory, Lru.lookup_erase]

theorem Kept.expire (h : Kept codec n c) (k : Text) : Kept codec n (c.expire k) := by
  rw [HybridCache.expire]
  split_ifs
  · refine h.mono (fun k' raw _ hraw => ?_) fun _ => id
    dsimp only at hraw
    rw [lookup_erase_eq] at hraw
    split_ifs at hraw
    exact hraw
  · refine h.mono (fun _ _ _ => id) fun k' hk' => ?_
    exact (AList.mem_erase.mp hk').2

end Kept

end HybridCache

end NewApiPool.Cachex
