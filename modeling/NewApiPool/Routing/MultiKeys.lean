import NewApiPool.Lib.Runs
import NewApiPool.Routing.Abilities
import NewApiPool.Routing.Polling

/-!
# The keys of a multi-key channel

`ManageMultiKeys` disables, enables and deletes the keys of a channel by their place, and
`UpdateChannel` appends keys or replaces them all. Both change the loaded row and hand it to
`Channel.Update`, which counts the keys anew. A status is kept by the place of its key, so the
statuses have to move whenever the keys do.

* `Channel.serve` – the struct an operation hands to `Update`, or the answer that refuses it.
* `Change.Holds` – what an operation is for, on the list of the keys with their statuses.
* `Bookkept` – a step keeps the books: the size is the number of keys, the keys and their
  statuses are what the operation is to make of them, and no key is enabled by the way.
* `bookkept_run` – all steps of a run do, where the keys that are stored are read back as they
  were joined and a new text does not move keys whose status matters (`Orderly`).
* `not_bookkept` – the last disabled keys cannot be deleted and are enabled instead, and keys
  that replace others take over their statuses.

The reasons and times of a disabled key are moved in the same loops; nothing depends on them.
-/

namespace NewApiPool.Routing

open EventSystem GoText

/-! ### The operations -/

/-- What the JSON decoder makes of an array of keys: a text, or the encoding of another value. -/
inductive KeyValue
  | str (text : String)
  | other (encoded : String)

/-- The decoders: of an array of raw values, and of one of values. -/
structure Decoders where
  jsonArray : String → Option (List String)
  keyArray : String → Except String (List KeyValue)

def Decoders.getVertexArrayKeys (dec : Decoders) (keys : String) : Except String (List String) :=
  if keys = "" then .ok []
  else
    match dec.keyArray keys with
    | .error err =>
      .error ("批量添加 Vertex AI 必须使用标准的JsonArray格式，例如[\x7bkey1\x7d, \x7bkey2\x7d...]，请检查输入: " ++
        err)
    | .ok keyArray =>
      let cleanKeys := (keyArray.map fun
        | .str text => trimSpace text
        | .other encoded => encoded).filter (· ≠ "")
      if cleanKeys = [] then .error "批量添加 Vertex AI 的 keys 不能为空" else .ok cleanKeys

/-- What `ManageMultiKeys` is asked for. -/
inductive Action
  | disableKey
  | enableKey
  | enableAllKeys
  | disableAllKeys
  | deleteKey
  | deleteDisabledKeys
  deriving DecidableEq

/-- `PatchChannel`, with what `validateChannel` says of it and whether its type and settings
are those of Vertex AI with JSON keys. -/
structure PatchChannel where
  channel : Channel
  multiKeyMode : Option String := none
  keyMode : Option String := none
  invalid : Option String := none
  vertexJSON : Bool := false

/-- A request: `ManageMultiKeys` for an index, or `UpdateChannel`. -/
inductive KeyEvent
  | manage (channelId : ℕ) (action : Action) (keyIndex : Option ℤ)
  | update (p : PatchChannel)

/-- The channel a request is about. -/
def KeyEvent.channelId : KeyEvent → ℕ
  | .manage channelId _ _ => channelId
  | .update p => p.channel.id

/-- The text of a multi-key mode. -/
def MultiKeyMode.ofString (mode : String) : MultiKeyMode :=
  if mode = "random" then .random else if mode = "polling" then .polling else .other mode

/-- The loop that leaves keys out: the keys that are kept, and their statuses under the new
indices. The first key has the index `i`, and the next that is kept gets `newIndex`. -/
def StatusList.reindex (l : StatusList) (keep : ℕ → Bool) :
    List String → (i newIndex : ℕ) → List String × StatusList
  | [], _, _ => ([], ∅)
  | key :: keys, i, newIndex =>
    if keep i then
      let rest := l.reindex keep keys (i + 1) (newIndex + 1)
      (key :: rest.1,
        if l.getStatus i ≠ channelStatusEnabled then rest.2.insert newIndex (l.getStatus i)
        else rest.2)
    else l.reindex keep keys (i + 1) newIndex

namespace Channel

variable (dec : Decoders)

/-- The checks of an index. -/
def checkIndex (c : Channel) (unspecified : String) : Option ℤ → Except String ℕ
  | none => .error unspecified
  | some i =>
    if i < 0 ∨ c.channelInfo.multiKeySize ≤ i then .error "密钥索引超出范围" else .ok i.toNat

def withStatuses (c : Channel) (l : StatusList) : Channel :=
  { c with channelInfo.multiKeyStatusList := l }

/-- The keys that are left, with their statuses. -/
def withKeys (c : Channel) (remaining : List String × StatusList) : Channel :=
  { c with
    key := "\n".intercalate remaining.1
    channelInfo.multiKeySize := remaining.1.length
    channelInfo.multiKeyStatusList := remaining.2 }

/-- `ManageMultiKeys`, on the row of a multi-key channel: what it hands to `Update`. -/
def manage (c : Channel) (keyIndex : Option ℤ) : Action → Except String Channel
  | .disableKey =>
    match c.checkIndex "未指定要禁用的密钥索引" keyIndex with
    | .error err => .error err
    | .ok i => .ok (c.withStatuses
        (c.channelInfo.multiKeyStatusList.insert i channelStatusManuallyDisabled))
  | .enableKey =>
    match c.checkIndex "未指定要启用的密钥索引" keyIndex with
    | .error err => .error err
    | .ok i => .ok (c.withStatuses (c.channelInfo.multiKeyStatusList.erase i))
  | .enableAllKeys => .ok (c.withStatuses ∅)
  | .disableAllKeys =>
    let enabled := (List.range c.channelInfo.multiKeySize.toNat).filter fun i =>
      c.channelInfo.multiKeyStatusList.getStatus i = channelStatusEnabled
    if enabled = [] then .error "没有可禁用的密钥"
    else .ok (c.withStatuses (enabled.foldl
      (fun l i => l.insert i channelStatusManuallyDisabled) c.channelInfo.multiKeyStatusList))
  | .deleteKey =>
    match c.checkIndex "未指定要删除的密钥索引" keyIndex with
    | .error err => .error err
    | .ok i =>
      let remaining := c.channelInfo.multiKeyStatusList.reindex (fun j => j ≠ i)
        (c.getKeys dec.jsonArray) 0 0
      if remaining.1 = [] then .error "不能删除最后一个密钥" else .ok (c.withKeys remaining)
  | .deleteDisabledKeys =>
    let keep (i : ℕ) : Bool :=
      c.channelInfo.multiKeyStatusList.getStatus i ≠ channelStatusAutoDisabled
    let keys := c.getKeys dec.jsonArray
    if (List.range keys.length).all keep then .error "没有需要删除的自动禁用密钥"
    else .ok (c.withKeys (c.channelInfo.multiKeyStatusList.reindex keep keys 0 0))

/-- The keys that are stored, as `UpdateChannel` reads them. -/
def existingKeys (c : Channel) : List String :=
  let trimmed := trimSpace c.key
  if startsWith trimmed "[" then (dec.jsonArray trimmed).getD []
  else split '\n' (trim '\n' c.key)

/-- The keys of the request. -/
def newKeys (p : PatchChannel) : Except String (List String) :=
  let key := p.channel.key
  if p.vertexJSON then
    if startsWith (trimSpace key) "[" then dec.getVertexArrayKeys key else .ok [key]
  else .ok (((split '\n' key).map trimSpace).filter (· ≠ ""))

/-- Trimmed keys that were not seen before. -/
def dedupedNewKeys (seen : List String) : List String → List String
  | [] => []
  | key :: keys =>
    let normalized := trimSpace key
    if normalized = "" ∨ normalized ∈ seen then dedupedNewKeys seen keys
    else normalized :: dedupedNewKeys (normalized :: seen) keys

/-- The keys that are appended to those that are stored. -/
def appendedKeys (existing new : List String) : List String :=
  dedupedNewKeys ((existing.map trimSpace).filter (· ≠ "")) new

/-- The struct of the request, with the stored `channel_info` and the mode that is asked for. -/
def withInfo (origin : Channel) (p : PatchChannel) : Channel :=
  { p.channel with
    keys := []
    channelInfo := { origin.channelInfo with
      multiKeyMode := match p.multiKeyMode with
        | some mode => if mode = "" then origin.channelInfo.multiKeyMode else .ofString mode
        | none => origin.channelInfo.multiKeyMode } }

/-- `UpdateChannel`, with the row it loads: what it hands to `Update`. -/
def edit (origin : Channel) (p : PatchChannel) : Except String Channel :=
  match p.invalid with
  | some err => .error err
  | none =>
    if p.keyMode = some "append" ∧ origin.channelInfo.isMultiKey ∧ origin.key ≠ "" then
      match newKeys dec p with
      | .error err => .error ("追加密钥解析失败: " ++ err)
      | .ok new =>
        let existing := origin.existingKeys dec
        .ok { origin.withInfo p with
          key := "\n".intercalate (existing ++ appendedKeys existing new) }
    else .ok (origin.withInfo p)

/-- What an operation hands to `Update`, or why it does not. -/
def serve (row : Channel) : KeyEvent → Except String Channel
  | .manage _ action keyIndex =>
    if row.channelInfo.isMultiKey then row.manage dec keyIndex action
    else .error "该渠道不是多密钥模式"
  | .update p => row.edit dec p

end Channel

/-- **A request**: the row is loaded, and the struct is saved by `Update`. -/
def DB.serve (dec : Decoders) (db : DB) (e : KeyEvent) : DB :=
  match db.first e.channelId with
  | none => db
  | some row =>
    match row.serve dec e with
    | .error _ => db
    | .ok c => db.update dec.jsonArray c

/-! ### What the operations are for -/

/-- The keys with their statuses. -/
abbrev KeyTable := List (String × ℤ)

/-- What an operation is to make of the keys. -/
inductive Change
  | disable (i : ℕ)
  | enable (i : ℕ)
  | enableAll
  | disableAll
  | delete (i : ℕ)
  | deleteDisabled
  | append (keys : List String)
  | replace (keys : List String)

/-- The key is disabled. -/
def disabled (p : String × ℤ) : String × ℤ := (p.1, channelStatusManuallyDisabled)

def enabled (p : String × ℤ) : String × ℤ := (p.1, channelStatusEnabled)

/-- **What the change is**: the other keys keep their statuses, a deleted key is gone, and a new
key is enabled. Where keys are replaced, a key that is stored again keeps a status it had. -/
def Change.Holds (table table' : KeyTable) : Change → Prop
  | .disable i => table' = table.modify i disabled
  | .enable i => table' = table.modify i enabled
  | .enableAll => table' = table.map enabled
  | .disableAll => table' = table.map fun p => if p.2 = channelStatusEnabled then disabled p else p
  | .delete i => table' = table.eraseIdx i
  | .deleteDisabled => table' = table.filter fun p => p.2 ≠ channelStatusAutoDisabled
  | .append keys => (∀ k ∈ keys, k ∉ table.map Prod.fst) ∧
      table' = table ++ keys.map fun k => (k, channelStatusEnabled)
  | .replace keys => table'.map Prod.fst = keys ∧
      ∀ p ∈ table', p ∈ table ∨ (p.1 ∉ table.map Prod.fst ∧ p.2 = channelStatusEnabled)

/-- The change enables keys, one of them or all. After any other change a key that is enabled was so
before, or is new. -/
def Change.enables : Change → Bool
  | .enable _ => true
  | .enableAll => true
  | _ => false

/-- **No key is enabled by the way**: where a change does not enable keys, a key that is enabled
was so, or is new. -/
theorem Change.Holds.enabled_before {change : Change} {table table' : KeyTable}
    (h : change.Holds table table') (henables : change.enables = false) {k : String}
    (hk : (k, channelStatusEnabled) ∈ table') :
    (k, channelStatusEnabled) ∈ table ∨ k ∉ table.map Prod.fst := by
  have hne : channelStatusManuallyDisabled ≠ channelStatusEnabled := by decide
  have hdisabled (p : String × ℤ) : disabled p ≠ (k, channelStatusEnabled) :=
    fun heq => hne (congrArg Prod.snd heq)
  cases change with
  | disable i =>
    obtain ⟨j, hj⟩ := List.mem_iff_getElem?.mp ((h : table' = _) ▸ hk)
    rw [List.getElem?_modify] at hj
    obtain ⟨p, hp, heq⟩ := Option.map_eq_some_iff.mp hj
    split at heq
    · exact absurd heq (hdisabled p)
    · exact Or.inl (heq ▸ List.mem_of_getElem? hp)
  | enable i => cases henables
  | enableAll => cases henables
  | disableAll =>
    obtain ⟨p, hp, heq⟩ := List.mem_map.mp ((h : table' = _) ▸ hk)
    split at heq
    · exact absurd heq (hdisabled p)
    · exact Or.inl (heq ▸ hp)
  | delete i => exact Or.inl ((List.eraseIdx_sublist ..).mem ((h : table' = _) ▸ hk))
  | deleteDisabled => exact Or.inl (List.mem_filter.mp ((h : table' = _) ▸ hk)).1
  | append keys =>
    rw [h.2] at hk
    rcases List.mem_append.mp hk with hk | hk
    · exact Or.inl hk
    · obtain ⟨k', hk', heq⟩ := List.mem_map.mp hk
      have hkey : k' = k := congrArg Prod.fst heq
      exact Or.inr (hkey ▸ h.1 k' hk')
  | replace keys => exact (h.2 _ hk).imp_right And.left

/-! ### Tables -/

namespace StatusList

/-- Keys from the index `n` on, with the statuses of a list. -/
def table (l : StatusList) (keys : List String) (n : ℕ) : KeyTable :=
  (keys.zipIdx n).map fun x => (x.1, l.getStatus x.2)

variable {l l' : StatusList} {keys : List String} {i n : ℕ}

theorem getElem?_table (l : StatusList) (keys : List String) (n i : ℕ) :
    (l.table keys n)[i]? = keys[i]?.map fun k => (k, l.getStatus (n + i)) := by
  rw [table, List.getElem?_map, List.getElem?_zipIdx, Option.map_map]
  rfl

@[simp] theorem map_fst_table (l : StatusList) (keys : List String) (n : ℕ) :
    (l.table keys n).map Prod.fst = keys := by
  rw [table, List.map_map]
  exact List.zipIdx_map_fst n keys

theorem table_congr (h : ∀ i < keys.length, l.getStatus (n + i) = l'.getStatus (n + i)) :
    l.table keys n = l'.table keys n := by
  refine List.ext_getElem? fun i => ?_
  rw [getElem?_table, getElem?_table]
  cases hi : keys[i]? with
  | none => rfl
  | some k => rw [Option.map_some, Option.map_some, h i (List.getElem?_eq_some_iff.mp hi).1]

theorem getStatus_insert (l : StatusList) (i j : ℕ) (status : ℤ) :
    StatusList.getStatus (l.insert i status) j = if j = i then status else l.getStatus j := by
  rw [getStatus, getStatus]
  split
  · rename_i h
    rw [h, Finmap.lookup_insert]
    rfl
  · rename_i h
    rw [Finmap.lookup_insert_of_ne l h]

theorem getStatus_erase (l : StatusList) (i j : ℕ) :
    StatusList.getStatus (l.erase i) j = if j = i then channelStatusEnabled else l.getStatus j := by
  rw [getStatus, getStatus]
  split
  · rename_i h
    rw [h, Finmap.lookup_erase]
    rfl
  · rename_i h
    rw [Finmap.lookup_erase_ne h]

theorem getStatus_empty (j : ℕ) : StatusList.getStatus ∅ j = channelStatusEnabled := by
  rw [getStatus, Finmap.lookup_empty]
  rfl

theorem lookup_below (l : StatusList) (n j : ℕ) :
    (l.below n).lookup j = if j < n then l.lookup j else none := by
  have hmem : ∀ v, v ∈ (l.below n).lookup j ↔ v ∈ (if j < n then l.lookup j else none) := by
    intro v
    split
    · rename_i h
      simp only [Option.mem_def, Finmap.lookup_eq_some_iff, below, Multiset.mem_filter, h,
        and_true]
    · rename_i h
      simp only [Option.mem_def, Finmap.lookup_eq_some_iff, below, Multiset.mem_filter, h,
        and_false, reduceCtorEq]
  exact Option.ext hmem

theorem table_cons (l : StatusList) (k : String) (keys : List String) (n : ℕ) :
    l.table (k :: keys) n = (k, l.getStatus n) :: l.table keys (n + 1) := by
  rw [table, List.zipIdx_cons, List.map_cons]
  rfl

/-- The statuses that are written have the indices of the keys that are kept. -/
theorem lookup_reindex (keep : ℕ → Bool) {j : ℕ}
    (h : j < n ∨ n + (l.reindex keep keys i n).1.length ≤ j) :
    (l.reindex keep keys i n).2.lookup j = none := by
  induction keys generalizing i n with
  | nil => exact Finmap.lookup_empty j
  | cons k keys ih =>
    rw [reindex] at h ⊢
    split at h <;> rename_i hkeep
    · rw [if_pos hkeep]
      simp only [List.length_cons] at h
      have hrest : (l.reindex keep keys (i + 1) (n + 1)).2.lookup j = none := ih (by omega)
      dsimp only
      split
      · rw [Finmap.lookup_insert_of_ne _ (by omega), hrest]
      · exact hrest
    · rw [if_neg hkeep]
      exact ih h

/-- **The keys that are kept keep their statuses.** -/
theorem table_reindex (l : StatusList) (keep : ℕ → Bool) (keys : List String) (i n : ℕ) :
    (l.reindex keep keys i n).2.table (l.reindex keep keys i n).1 n =
      ((keys.zipIdx i).filter fun x => keep x.2).map fun x => (x.1, l.getStatus x.2) := by
  induction keys generalizing i n with
  | nil => rfl
  | cons k keys ih =>
    rw [reindex, List.zipIdx_cons]
    cases hkeep : keep i with
    | false =>
      rw [List.filter_cons_of_neg (by simp [hkeep])]
      exact ih (i + 1) n
    | true =>
      rw [List.filter_cons_of_pos (by simp [hkeep]), List.map_cons, ← ih (i + 1) (n + 1),
        if_pos rfl]
      generalize hr : l.reindex keep keys (i + 1) (n + 1) = r
      have hnone : r.2.lookup n = none := by
        rw [← hr]
        exact lookup_reindex keep (Or.inl (Nat.lt_succ_self n))
      dsimp only
      rw [table_cons]
      split
      · rw [getStatus_insert, if_pos rfl]
        refine congrArg _ (table_congr fun j _ => ?_)
        rw [getStatus_insert, if_neg (by omega)]
      · rename_i henabled
        rw [not_not.mp henabled, getStatus, hnone]
        rfl

end StatusList

theorem filter_zipIdx_ne {α : Type*} (xs : List α) (i n : ℕ) :
    (xs.zipIdx n).filter (fun x => x.2 ≠ n + i) = (xs.zipIdx n).eraseIdx i := by
  induction xs generalizing i n with
  | nil => rfl
  | cons x xs ih =>
    rw [List.zipIdx_cons]
    cases i with
    | zero =>
      rw [List.filter_cons_of_neg (by simp), List.eraseIdx_cons_zero, List.filter_eq_self]
      intro y hy
      have hlt := List.le_snd_of_mem_zipIdx hy
      simp only [Nat.add_zero, ne_eq, decide_eq_true_eq]
      omega
    | succ i =>
      rw [List.filter_cons_of_pos (by simp), List.eraseIdx_cons_succ, ← ih i (n + 1)]
      simp only [Nat.add_assoc, Nat.add_comm 1 i]

/-! ### Joined keys -/

/-- A separator between texts: the first of them stands at the start. -/
theorem head?_intercalate {α : Type*} (sep xs : List α) (ls : List (List α)) (h : xs ≠ []) :
    (sep.intercalate (xs :: ls)).head? = xs.head? := by
  cases ls with
  | nil => rw [List.intercalate_singleton]
  | cons ys ls =>
    obtain ⟨x, xs, rfl⟩ := List.exists_cons_of_ne_nil h
    rw [List.intercalate_cons_cons]
    rfl

theorem getLast?_intercalate {α : Type*} (sep : List α) {xs : List α} {ls : List (List α)}
    (hlast : ls.getLast? = some xs) (h : xs ≠ []) :
    (sep.intercalate ls).getLast? = xs.getLast? := by
  induction ls with
  | nil => cases hlast
  | cons ys ls ih =>
    cases ls with
    | nil =>
      rw [List.getLast?_singleton] at hlast
      rw [List.intercalate_singleton, Option.some.inj hlast]
    | cons zs ls =>
      rw [List.intercalate_cons_cons, List.getLast?_append, ih hlast]
      obtain ⟨init, last, rfl⟩ := List.eq_nil_or_concat xs |>.resolve_left h
      rw [List.concat_eq_append, List.getLast?_concat]
      rfl

/-- The array of a key field that begins with a bracket. -/
def Decoders.arrayOf (dec : Decoders) (key : String) : Option (List String) :=
  let trimmed := trimSpace key
  if startsWith trimmed "[" then dec.jsonArray trimmed else none

/-- The keys of a key field. -/
def Decoders.storedKeys (dec : Decoders) (key : String) : List String :=
  if key = "" then [] else Channel.parseKeys dec.jsonArray key

theorem Decoders.parseKeys_of_none {dec : Decoders} {key : String} (h : dec.arrayOf key = none) :
    Channel.parseKeys dec.jsonArray key = split '\n' (trim '\n' key) := by
  rw [Decoders.arrayOf] at h
  rw [Channel.parseKeys, h]

/-- **Keys that are read back as they were joined**: none of them has a line break, neither the
first nor the last is empty, and the whole is not a JSON array. -/
structure Lines (dec : Decoders) (keys : List String) : Prop where
  ne_nil : keys ≠ []
  line : ∀ k ∈ keys, '\n' ∉ k.toList
  head : keys.head? ≠ some ""
  last : keys.getLast? ≠ some ""
  array : dec.arrayOf ("\n".intercalate keys) = none

section Lines

variable {dec : Decoders} {keys : List String}

theorem Lines.toList_ne (h : Lines dec keys) :
    ("\n".intercalate keys).toList.head? ≠ some '\n' ∧
      ("\n".intercalate keys).toList.getLast? ≠ some '\n' ∧ "\n".intercalate keys ≠ "" := by
  rw [Ne, Ne, Ne, ← String.toList_eq_nil_iff, String.toList_intercalate]
  obtain ⟨k, rest, rfl⟩ := List.exists_cons_of_ne_nil h.ne_nil
  have hk : k.toList ≠ [] := fun hk => h.head (by rw [String.toList_eq_nil_iff.mp hk]; rfl)
  have hhead := head?_intercalate "\n".toList k.toList (rest.map String.toList) hk
  obtain ⟨last, hlast⟩ : ∃ last, (k :: rest).getLast? = some last :=
    ⟨_, List.getLast?_eq_some_getLast (List.cons_ne_nil k rest)⟩
  have hl : last.toList ≠ [] := fun hl => h.last (by rw [hlast, String.toList_eq_nil_iff.mp hl])
  have hlast' : ((k :: rest).map String.toList).getLast? = some last.toList := by
    rw [List.getLast?_map, hlast]
    rfl
  have hend := getLast?_intercalate "\n".toList hlast' hl
  rw [List.map_cons] at hend ⊢
  rw [hhead, hend]
  refine ⟨fun hc => ?_, fun hc => ?_, fun hc => ?_⟩
  · exact h.line k List.mem_cons_self (List.mem_of_mem_head? hc)
  · exact h.line last (List.mem_of_getLast? hlast) (List.mem_of_getLast? hc)
  · rw [hc] at hhead
    exact hk (List.head?_eq_none_iff.mp hhead.symm)

/-- **Joined lines are read back.** -/
theorem Lines.storedKeys (h : Lines dec keys) :
    dec.storedKeys ("\n".intercalate keys) = keys := by
  obtain ⟨hhead, hlast, hne⟩ := h.toList_ne
  rw [Decoders.storedKeys, if_neg hne, Decoders.parseKeys_of_none h.array]
  rw [trim_eq_self hhead hlast]
  exact split_intercalate h.ne_nil h.line

end Lines

/-! ### The row that is saved -/

section Update

variable {dec : Decoders} {row c : Channel}

/-- The keys of a row with their statuses. -/
def Channel.table (dec : Decoders) (c : Channel) : KeyTable :=
  c.channelInfo.multiKeyStatusList.table (c.getKeys dec.jsonArray) 0

/-- **The row of a multi-key channel**: its size is the number of its keys, which are not an
empty array, and there is no status beyond them. -/
structure Channel.Wf (dec : Decoders) (c : Channel) : Prop where
  id : c.id ≠ 0
  multi : c.channelInfo.isMultiKey = true
  stored : c.keys = []
  size : c.channelInfo.multiKeySize = (c.getKeys dec.jsonArray).length
  array : dec.arrayOf c.key ≠ some []
  below : ∀ i, (c.getKeys dec.jsonArray).length ≤ i →
    c.channelInfo.multiKeyStatusList.lookup i = none

/-- The row after `Update` with the struct `c`. -/
def Channel.updated (dec : Decoders) (row c : Channel) : Channel :=
  row.patch (if c.channelInfo.isMultiKey then
    c.recount dec.jsonArray (if c.key ≠ "" then c.key else row.key) else c)

/-- **`Update` saves one row.** -/
theorem DB.first_update (db : DB) {c row : Channel} (hid : c.id ≠ 0)
    (hrow : db.first c.id = some row) (i : ℕ) : (db.update dec.jsonArray c).first i =
      if i = c.id then some (row.updated dec c) else db.first i := by
  have hkey : ((db.first c.id).map Channel.key).getD "" = row.key := by rw [hrow]; rfl
  rw [DB.update, hkey, Channel.updated]
  generalize hc' : (if c.channelInfo.isMultiKey then
    c.recount dec.jsonArray (if c.key ≠ "" then c.key else row.key) else c) = c'
  have hid' : c'.id = c.id := by
    rw [← hc']
    split <;> rfl
  rw [hid', if_neg hid]
  show (db.updates c').first i = _
  have hpatch (r : Channel) (hr : r.id = c'.id) : (r.patch c').id = c'.id := hr
  rw [DB.updates, DB.first_updateChannels db hpatch, hid']
  split
  · rename_i h
    rw [h, hrow]
    rfl
  · rfl

theorem Channel.getKeys_of_stored (h : c.keys = []) :
    c.getKeys dec.jsonArray = dec.storedKeys c.key := by
  rw [getKeys, Decoders.storedKeys, if_neg (not_not.mpr h)]

/-- The keys are counted as they are read, unless they are an empty array. -/
theorem Channel.recount_eq {keyStr : String} (h : dec.arrayOf keyStr ≠ some []) :
    c.recount dec.jsonArray keyStr =
      { c with
        channelInfo.multiKeySize := (dec.storedKeys keyStr).length
        channelInfo.multiKeyStatusList :=
          c.channelInfo.multiKeyStatusList.below (dec.storedKeys keyStr).length } := by
  rw [recount, Decoders.storedKeys, parseKeys]
  rw [Decoders.arrayOf] at h
  dsimp only
  by_cases hkey : keyStr = ""
  · rw [if_pos hkey, if_pos hkey]
  rw [if_neg hkey, if_neg hkey]
  cases harr : (if startsWith (trimSpace keyStr) "[" then dec.jsonArray (trimSpace keyStr)
    else none) with
  | none => rfl
  | some arr =>
    cases arr with
    | nil => exact absurd harr h
    | cons k ks => rfl

/-- **The books after `Update`**: the row is as it should be, and its table has the keys of the
key field, with the statuses that were handed over. -/
theorem Channel.Wf.updated (hrow : row.Wf dec) (hmulti : c.channelInfo.isMultiKey = true)
    {key : String} (hkey : key = if c.key = "" then row.key else c.key)
    (harray : dec.arrayOf key ≠ some []) : (row.updated dec c).Wf dec ∧
      (row.updated dec c).table dec =
        c.channelInfo.multiKeyStatusList.table (dec.storedKeys key) 0 := by
  have hkeyStr : (if c.key ≠ "" then c.key else row.key) = key := by
    rw [hkey]
    by_cases h : c.key = ""
    · rw [if_pos h, if_neg (not_not.mpr h)]
    · rw [if_neg h, if_pos h]
  have hpatch : row.updated dec c = row.patch (c.recount dec.jsonArray key) := by
    rw [Channel.updated, hmulti, hkeyStr, if_pos rfl]
  rw [Channel.recount_eq harray] at hpatch
  have hinfo : (row.updated dec c).channelInfo =
      { c.channelInfo with
        multiKeySize := (dec.storedKeys key).length
        multiKeyStatusList :=
          c.channelInfo.multiKeyStatusList.below (dec.storedKeys key).length } := by
    rw [hpatch, Channel.patch]
    refine if_neg fun h => ?_
    have hfalse : c.channelInfo.isMultiKey = false := congrArg ChannelInfo.isMultiKey h
    exact absurd (hmulti.symm.trans hfalse) (by decide)
  have hstored : (row.updated dec c).keys = [] := by rw [hpatch]; exact hrow.stored
  have hkey' : (row.updated dec c).key = key := by rw [hpatch, hkey]; rfl
  have hkeys : (row.updated dec c).getKeys dec.jsonArray = dec.storedKeys key := by
    rw [Channel.getKeys_of_stored hstored, hkey']
  refine ⟨⟨?_, ?_, hstored, ?_, ?_, fun i hi => ?_⟩, ?_⟩
  · rw [hpatch]
    exact hrow.id
  · rw [hinfo]
    exact hmulti
  · rw [hinfo, hkeys]
  · rw [hkey']
    exact harray
  · rw [hkeys] at hi
    rw [hinfo]
    dsimp only
    rw [StatusList.lookup_below, if_neg (by omega)]
  · rw [Channel.table, hinfo, hkeys]
    refine StatusList.table_congr fun i hi => ?_
    rw [StatusList.getStatus, StatusList.getStatus]
    dsimp only
    rw [StatusList.lookup_below, if_pos (by omega)]

end Update

/-! ### Requests -/

section Requests

variable {dec : Decoders} {row : Channel}

/-- The request appends to the keys that are stored. -/
def Channel.appends (row : Channel) (p : PatchChannel) : Prop :=
  p.keyMode = some "append" ∧ row.channelInfo.isMultiKey = true ∧ row.key ≠ ""

instance decidableAppends (row : Channel) (p : PatchChannel) : Decidable (row.appends p) :=
  inferInstanceAs (Decidable (_ ∧ _ ∧ _))

/-- The keys a request adds to those that are stored. -/
def Channel.added (dec : Decoders) (row : Channel) (p : PatchChannel) : List String :=
  match newKeys dec p with
  | .error _ => []
  | .ok new => appendedKeys (row.getKeys dec.jsonArray) new

/-- **What a request is for**: a text that is empty is not a change of the keys. -/
def Channel.change (dec : Decoders) (row : Channel) : KeyEvent → Change
  | .manage _ .disableKey keyIndex => .disable (keyIndex.getD 0).toNat
  | .manage _ .enableKey keyIndex => .enable (keyIndex.getD 0).toNat
  | .manage _ .enableAllKeys _ => .enableAll
  | .manage _ .disableAllKeys _ => .disableAll
  | .manage _ .deleteKey keyIndex => .delete (keyIndex.getD 0).toNat
  | .manage _ .deleteDisabledKeys _ => .deleteDisabled
  | .update p =>
    if row.appends p then .append (row.added dec p)
    else if p.channel.key = "" then .append []
    else .replace (dec.storedKeys p.channel.key)

/-- **A step keeps the books**: the size is the number of the keys, a request that is refused
changes nothing and any other what it is for, and where it does not enable keys a key that is
enabled was so, or is new. -/
structure Bookkept (dec : Decoders) (e : KeyEvent) (row row' : Channel) : Prop where
  size : row'.channelInfo.multiKeySize = (row'.getKeys dec.jsonArray).length
  change : match row.serve dec e with
    | .error _ => row' = row
    | .ok _ => (row.change dec e).Holds (row.table dec) (row'.table dec)
  enabled : (row.change dec e).enables = false → ∀ k,
    (k, channelStatusEnabled) ∈ row'.table dec →
      (k, channelStatusEnabled) ∈ row.table dec ∨ k ∉ row.getKeys dec.jsonArray

/-- **Every key of a new text stands where it stood**, or neither it nor the key whose place it
takes is disabled. -/
def Channel.InPlace (dec : Decoders) (row : Channel) (keys : List String) : Prop :=
  ∀ i < keys.length, (row.getKeys dec.jsonArray)[i]? = keys[i]? ∨
    (row.channelInfo.multiKeyStatusList.getStatus i = channelStatusEnabled ∧
      ∀ k ∈ keys[i]?, k ∈ row.getKeys dec.jsonArray → (k, channelStatusEnabled) ∈ row.table dec)

/-- **What the books rest on**: the keys that are left by a deletion, and the keys with those
that are appended, are read back as they are joined; a stored text that begins with a bracket
is an array where keys are appended to it; and a text that replaces another is no empty array
and keeps the keys in place. -/
def Orderly (dec : Decoders) (row : Channel) : KeyEvent → Prop
  | .manage _ .deleteKey keyIndex => ∀ i ∈ keyIndex,
    (row.getKeys dec.jsonArray).eraseIdx i.toNat ≠ [] →
      Lines dec ((row.getKeys dec.jsonArray).eraseIdx i.toNat)
  | .manage _ .deleteDisabledKeys _ => (∃ p ∈ row.table dec, p.2 = channelStatusAutoDisabled) →
    Lines dec (((row.table dec).filter fun p => p.2 ≠ channelStatusAutoDisabled).map Prod.fst)
  | .manage _ _ _ => True
  | .update p =>
    if row.appends p then
      (startsWith (trimSpace row.key) "[" = true → (dec.arrayOf row.key).isSome) ∧
        Lines dec (row.getKeys dec.jsonArray ++ row.added dec p)
    else p.channel.key ≠ "" → dec.arrayOf p.channel.key ≠ some [] ∧
      row.InPlace dec (dec.storedKeys p.channel.key)

/-- The step, on the row. -/
def Channel.step (dec : Decoders) (row : Channel) (e : KeyEvent) : Channel :=
  match row.serve dec e with
  | .error _ => row
  | .ok c => row.updated dec c

theorem Channel.Wf.storedKeys (h : row.Wf dec) :
    dec.storedKeys row.key = row.getKeys dec.jsonArray :=
  (Channel.getKeys_of_stored h.stored).symm

@[simp] theorem Channel.map_fst_table (dec : Decoders) (row : Channel) :
    (row.table dec).map Prod.fst = row.getKeys dec.jsonArray :=
  StatusList.map_fst_table ..

variable {e : KeyEvent}

/-- A step that changes what it is for keeps the books. -/
theorem Bookkept.of_change {row' : Channel} (hwf : row'.Wf dec) {c : Channel}
    (hserve : row.serve dec e = .ok c)
    (h : (row.change dec e).Holds (row.table dec) (row'.table dec)) : Bookkept dec e row row' where
  size := hwf.size
  change := by
    rw [hserve]
    exact h
  enabled := fun henables k hk => by
    rw [← Channel.map_fst_table dec row]
    exact h.enabled_before henables hk

theorem Bookkept.of_error {err : String} (hwf : row.Wf dec)
    (hserve : row.serve dec e = .error err) : Bookkept dec e row row where
  size := hwf.size
  change := by rw [hserve]
  enabled := fun _ _ hk => Or.inl hk

theorem Channel.Wf.checkIndex (h : row.Wf dec) {unspecified : String} {keyIndex : Option ℤ} {i : ℕ}
    (hi : row.checkIndex unspecified keyIndex = .ok i) :
    (keyIndex.getD 0).toNat = i ∧ keyIndex.isSome ∧ i < (row.getKeys dec.jsonArray).length := by
  cases keyIndex with
  | none => cases hi
  | some z =>
    rw [Channel.checkIndex, h.size] at hi
    split at hi
    · cases hi
    · rename_i hz
      cases hi
      exact ⟨rfl, rfl, by omega⟩

theorem Channel.Wf.withStatuses (h : row.Wf dec) (l : StatusList) :
    (row.updated dec (row.withStatuses l)).Wf dec ∧
      (row.updated dec (row.withStatuses l)).table dec = l.table (row.getKeys dec.jsonArray) 0 := by
  have hkey : row.key = if (row.withStatuses l).key = "" then row.key else
      (row.withStatuses l).key := (ite_self row.key).symm
  have hbooks := h.updated (c := row.withStatuses l) h.multi hkey h.array
  rwa [h.storedKeys] at hbooks

theorem Channel.Wf.withKeys (h : row.Wf dec) {remaining : List String × StatusList}
    (hlines : Lines dec remaining.1) : (row.updated dec (row.withKeys remaining)).Wf dec ∧
      (row.updated dec (row.withKeys remaining)).table dec =
        remaining.2.table remaining.1 0 := by
  have hkey : "\n".intercalate remaining.1 = if (row.withKeys remaining).key = "" then row.key else
      (row.withKeys remaining).key := (if_neg hlines.toList_ne.2.2).symm
  have hbooks := h.updated (c := row.withKeys remaining) h.multi hkey (by rw [hlines.array]; nofun)
  rwa [hlines.storedKeys] at hbooks

theorem table_insert (l : StatusList) (keys : List String) (i : ℕ) :
    StatusList.table (l.insert i channelStatusManuallyDisabled) keys 0 =
      (l.table keys 0).modify i disabled := by
  refine List.ext_getElem? fun j => ?_
  rw [List.getElem?_modify, StatusList.getElem?_table, StatusList.getElem?_table,
    StatusList.getStatus_insert]
  cases keys[j]? with
  | none => rfl
  | some k =>
    by_cases hj : i = j
    · simp [hj, disabled]
    · simp [hj, Ne.symm hj]

theorem table_erase (l : StatusList) (keys : List String) (i : ℕ) :
    StatusList.table (l.erase i) keys 0 = (l.table keys 0).modify i enabled := by
  refine List.ext_getElem? fun j => ?_
  rw [List.getElem?_modify, StatusList.getElem?_table, StatusList.getElem?_table,
    StatusList.getStatus_erase]
  cases keys[j]? with
  | none => rfl
  | some k =>
    by_cases hj : i = j
    · simp [hj, enabled]
    · simp [hj, Ne.symm hj]

theorem table_empty (l : StatusList) (keys : List String) :
    StatusList.table ∅ keys 0 = (l.table keys 0).map enabled := by
  refine List.ext_getElem? fun j => ?_
  rw [List.getElem?_map, StatusList.getElem?_table, StatusList.getElem?_table,
    StatusList.getStatus_empty, Option.map_map]
  rfl

theorem getStatus_foldl_insert (is : List ℕ) (l : StatusList) (j : ℕ) :
    StatusList.getStatus (is.foldl (fun l i => l.insert i channelStatusManuallyDisabled) l) j =
      if j ∈ is then channelStatusManuallyDisabled else l.getStatus j := by
  induction is generalizing l with
  | nil => rfl
  | cons i is ih =>
    rw [List.foldl_cons, ih, StatusList.getStatus_insert]
    by_cases hj : j = i <;> by_cases hmem : j ∈ is <;> simp [hj, hmem]

theorem table_foldl_insert (l : StatusList) (keys : List String) :
    StatusList.table (((List.range keys.length).filter fun i =>
        l.getStatus i = channelStatusEnabled).foldl
          (fun l i => l.insert i channelStatusManuallyDisabled) l) keys 0 =
      (l.table keys 0).map fun p => if p.2 = channelStatusEnabled then disabled p else p := by
  refine List.ext_getElem? fun j => ?_
  rw [List.getElem?_map, StatusList.getElem?_table, StatusList.getElem?_table,
    getStatus_foldl_insert, Nat.zero_add]
  cases hj : keys[j]? with
  | none => rfl
  | some k =>
    have hlt := (List.getElem?_eq_some_iff.mp hj).1
    by_cases hstatus : l.getStatus j = channelStatusEnabled
    · simp [hstatus, hlt, disabled]
    · simp [hstatus]

theorem table_reindex_ne (l : StatusList) (keys : List String) (i : ℕ) :
    StatusList.table (l.reindex (fun j => j ≠ i) keys 0 0).2
        (l.reindex (fun j => j ≠ i) keys 0 0).1 0 = (l.table keys 0).eraseIdx i := by
  have hfilter := filter_zipIdx_ne keys i 0
  rw [Nat.zero_add] at hfilter
  rw [StatusList.table_reindex, hfilter, StatusList.table, List.eraseIdx_map]

theorem table_reindex_status (l : StatusList) (keys : List String) (status : ℤ) :
    StatusList.table (l.reindex (fun i => l.getStatus i ≠ status) keys 0 0).2
        (l.reindex (fun i => l.getStatus i ≠ status) keys 0 0).1 0 =
      (l.table keys 0).filter fun p => p.2 ≠ status := by
  rw [StatusList.table_reindex, StatusList.table, List.filter_map]
  rfl

theorem fst_reindex_ne (l : StatusList) (keys : List String) (i : ℕ) :
    (l.reindex (fun j => j ≠ i) keys 0 0).1 = keys.eraseIdx i := by
  have h := congrArg (List.map Prod.fst) (table_reindex_ne l keys i)
  rwa [StatusList.map_fst_table, ← List.eraseIdx_map, StatusList.map_fst_table] at h

variable {keys : List String}

theorem exists_status_of_not_all {l : StatusList} {status : ℤ}
    (h : ¬((List.range keys.length).all fun i => l.getStatus i ≠ status) = true) :
    ∃ p ∈ l.table keys 0, p.2 = status := by
  simp only [List.all_eq_true, List.mem_range, not_forall, decide_eq_true_eq, not_not] at h
  obtain ⟨j, hj, hstatus⟩ := h
  have hrow : (l.table keys 0)[j]? = some (keys[j], status) := by
    rw [StatusList.getElem?_table, List.getElem?_eq_getElem hj, Nat.zero_add, hstatus]
    rfl
  exact ⟨_, List.mem_of_getElem? hrow, rfl⟩

/-- **`ManageMultiKeys` keeps the books.** -/
theorem bookkept_manage (h : row.Wf dec) {channelId : ℕ} {keyIndex : Option ℤ} {action : Action}
    (ho : Orderly dec row (.manage channelId action keyIndex)) :
    (row.step dec (.manage channelId action keyIndex)).Wf dec ∧
      Bookkept dec (.manage channelId action keyIndex) row
        (row.step dec (.manage channelId action keyIndex)) := by
  have hserve : row.serve dec (.manage channelId action keyIndex) =
      row.manage dec keyIndex action := if_pos h.multi
  rw [Channel.step, hserve]
  cases hmanage : row.manage dec keyIndex action with
  | error err => exact ⟨h, Bookkept.of_error h (hserve.trans hmanage)⟩
  | ok c =>
    have hbooks (hwf : (row.updated dec c).Wf dec)
        (hchange : (row.change dec (.manage channelId action keyIndex)).Holds (row.table dec)
          ((row.updated dec c).table dec)) : (row.updated dec c).Wf dec ∧
          Bookkept dec (.manage channelId action keyIndex) row (row.updated dec c) :=
      ⟨hwf, Bookkept.of_change hwf (hserve.trans hmanage) hchange⟩
    dsimp only
    cases action with
    | disableKey =>
      rw [Channel.manage] at hmanage
      split at hmanage
      · cases hmanage
      rename_i i hi
      cases hmanage
      obtain ⟨hwf, htable⟩ := h.withStatuses
        (row.channelInfo.multiKeyStatusList.insert i channelStatusManuallyDisabled)
      refine hbooks hwf (htable.trans ?_)
      rw [table_insert, (h.checkIndex hi).1]
      rfl
    | enableKey =>
      rw [Channel.manage] at hmanage
      split at hmanage
      · cases hmanage
      rename_i i hi
      cases hmanage
      obtain ⟨hwf, htable⟩ := h.withStatuses (row.channelInfo.multiKeyStatusList.erase i)
      refine hbooks hwf (htable.trans ?_)
      rw [table_erase, (h.checkIndex hi).1]
      rfl
    | enableAllKeys =>
      cases hmanage
      obtain ⟨hwf, htable⟩ := h.withStatuses ∅
      exact hbooks hwf (htable.trans (table_empty ..))
    | disableAllKeys =>
      rw [Channel.manage] at hmanage
      split at hmanage
      · cases hmanage
      cases hmanage
      obtain ⟨hwf, htable⟩ := h.withStatuses (((List.range
        row.channelInfo.multiKeySize.toNat).filter fun i =>
          row.channelInfo.multiKeyStatusList.getStatus i = channelStatusEnabled).foldl
            (fun l i => l.insert i channelStatusManuallyDisabled)
              row.channelInfo.multiKeyStatusList)
      refine hbooks hwf (htable.trans ?_)
      rw [h.size, Int.toNat_natCast, table_foldl_insert]
      rfl
    | deleteKey =>
      rw [Channel.manage] at hmanage
      split at hmanage
      · cases hmanage
      rename_i i hi
      dsimp only at hmanage
      split at hmanage
      · cases hmanage
      rename_i hleft
      cases hmanage
      obtain ⟨hi', hsome, -⟩ := h.checkIndex hi
      obtain ⟨z, rfl⟩ := Option.isSome_iff_exists.mp hsome
      have hlines := ho z rfl
      rw [show z.toNat = i from hi', ← fst_reindex_ne row.channelInfo.multiKeyStatusList] at hlines
      obtain ⟨hwf, htable⟩ := h.withKeys (hlines hleft)
      refine hbooks hwf (htable.trans ?_)
      rw [table_reindex_ne, ← hi']
      rfl
    | deleteDisabledKeys =>
      rw [Channel.manage] at hmanage
      split at hmanage
      · cases hmanage
      rename_i hsome
      cases hmanage
      have htable' := table_reindex_status row.channelInfo.multiKeyStatusList
        (row.getKeys dec.jsonArray) channelStatusAutoDisabled
      have hkeys := congrArg (List.map Prod.fst) htable'
      rw [StatusList.map_fst_table] at hkeys
      have hlines := ho (exists_status_of_not_all hsome)
      rw [Channel.table, ← hkeys] at hlines
      obtain ⟨hwf, htable⟩ := h.withKeys hlines
      exact hbooks hwf (htable.trans htable')

/-! ### New keys -/

/-- A key that is appended is trimmed, and was not seen. -/
theorem of_mem_dedupedNewKeys {seen : List String} {k : String}
    (h : k ∈ Channel.dedupedNewKeys seen keys) : trimSpace k = k ∧ k ≠ "" ∧ k ∉ seen := by
  induction keys generalizing seen with
  | nil => cases h
  | cons key keys ih =>
    rw [Channel.dedupedNewKeys] at h
    split at h
    · exact ih h
    · rename_i hnew
      rcases List.mem_cons.mp h with rfl | h
      · exact ⟨trimSpace_trimSpace key, not_or.mp hnew⟩
      · obtain ⟨htrim, hne, hseen⟩ := ih h
        exact ⟨htrim, hne, fun hk => hseen (List.mem_cons_of_mem _ hk)⟩

theorem not_mem_of_mem_appendedKeys {existing new : List String} {k : String}
    (h : k ∈ Channel.appendedKeys existing new) : k ∉ existing := by
  obtain ⟨htrim, hne, hseen⟩ := of_mem_dedupedNewKeys h
  intro hk
  have hmem := List.mem_map_of_mem (f := trimSpace) hk
  rw [htrim] at hmem
  exact hseen (List.mem_filter.mpr ⟨hmem, decide_eq_true hne⟩)

/-- `UpdateChannel` reads the stored keys as they are, unless an array is broken. -/
theorem Channel.Wf.existingKeys (h : row.Wf dec) (hne : row.key ≠ "")
    (harray : startsWith (trimSpace row.key) "[" = true → (dec.arrayOf row.key).isSome) :
    row.existingKeys dec = row.getKeys dec.jsonArray := by
  rw [Channel.getKeys_of_stored h.stored, Decoders.storedKeys, if_neg hne, Channel.existingKeys]
  by_cases hstart : startsWith (trimSpace row.key) "[" = true
  · obtain ⟨arr, harr⟩ := Option.isSome_iff_exists.mp (harray hstart)
    rw [Decoders.arrayOf, if_pos hstart] at harr
    rw [Channel.parseKeys, if_pos hstart, if_pos hstart, harr]
    rfl
  · have hnone : dec.arrayOf row.key = none := by rw [Decoders.arrayOf, if_neg hstart]
    rw [Decoders.parseKeys_of_none hnone, if_neg hstart]

theorem Channel.Wf.table_append (h : row.Wf dec) (keys : List String) :
    row.channelInfo.multiKeyStatusList.table (row.getKeys dec.jsonArray ++ keys) 0 =
      row.table dec ++ keys.map fun k => (k, channelStatusEnabled) := by
  rw [StatusList.table, List.zipIdx_append, List.map_append]
  refine congrArg _ (List.ext_getElem? fun i => ?_)
  rw [List.getElem?_map, List.getElem?_map, List.getElem?_zipIdx, Option.map_map]
  refine congrArg (fun f => keys[i]?.map f) (funext fun k => ?_)
  rw [Function.comp_apply, StatusList.getStatus, h.below _ (by omega)]
  rfl

theorem Channel.Wf.table_replace (hplace : row.InPlace dec keys)
    {p : String × ℤ} (hp : p ∈ row.channelInfo.multiKeyStatusList.table keys 0) :
    p ∈ row.table dec ∨ (p.1 ∉ (row.table dec).map Prod.fst ∧ p.2 = channelStatusEnabled) := by
  obtain ⟨i, hi⟩ := List.mem_iff_getElem?.mp hp
  rw [StatusList.getElem?_table] at hi
  obtain ⟨k, hk, rfl⟩ := Option.map_eq_some_iff.mp hi
  rw [Nat.zero_add, Channel.map_fst_table]
  rcases hplace i (List.getElem?_eq_some_iff.mp hk).1 with hold | ⟨henabled, hkeep⟩
  · refine Or.inl (List.mem_of_getElem? (i := i) ?_)
    rw [Channel.table, StatusList.getElem?_table, hold, hk, Nat.zero_add]
    rfl
  · rw [henabled]
    by_cases hmem : k ∈ row.getKeys dec.jsonArray
    · exact Or.inl (hkeep k hk hmem)
    · exact Or.inr ⟨hmem, rfl⟩

/-- **`UpdateChannel` keeps the books.** -/
theorem bookkept_update (h : row.Wf dec) {p : PatchChannel} (ho : Orderly dec row (.update p)) :
    (row.step dec (.update p)).Wf dec ∧
      Bookkept dec (.update p) row (row.step dec (.update p)) := by
  have hserve : row.serve dec (.update p) = row.edit dec p := rfl
  rw [Channel.step, hserve]
  rw [Orderly] at ho
  cases hedit : row.edit dec p with
  | error err => exact ⟨h, Bookkept.of_error h (hserve.trans hedit)⟩
  | ok c =>
    have hbooks (hwf : (row.updated dec c).Wf dec)
        (hchange : (row.change dec (.update p)).Holds (row.table dec)
          ((row.updated dec c).table dec)) : (row.updated dec c).Wf dec ∧
          Bookkept dec (.update p) row (row.updated dec c) :=
      ⟨hwf, Bookkept.of_change hwf (hserve.trans hedit) hchange⟩
    rw [Channel.change] at hbooks
    dsimp only
    rw [Channel.edit] at hedit
    split at hedit
    · cases hedit
    by_cases happends : row.appends p
    · have happends' := happends
      rw [Channel.appends] at happends'
      rw [if_pos happends'] at hedit
      rw [if_pos happends] at hbooks ho
      split at hedit
      · cases hedit
      rename_i new hnew
      have hadded : row.added dec p =
          Channel.appendedKeys (row.getKeys dec.jsonArray) new := by
        rw [Channel.added, hnew]
      obtain ⟨harray, hlines⟩ := ho
      dsimp only at hedit
      rw [h.existingKeys happends.2.2 harray, ← hadded] at hedit
      cases hedit
      obtain ⟨hwf, htable⟩ := h.updated
        (c := { row.withInfo p with
          key := "\n".intercalate (row.getKeys dec.jsonArray ++ row.added dec p) })
        h.multi (if_neg hlines.toList_ne.2.2).symm (by rw [hlines.array]; nofun)
      refine hbooks hwf ⟨fun k hk => ?_, ?_⟩
      · rw [Channel.map_fst_table]
        exact not_mem_of_mem_appendedKeys (hadded ▸ hk)
      · rw [htable, hlines.storedKeys, ← h.table_append]
        rfl
    · rw [Channel.appends] at happends
      rw [if_neg happends] at hedit
      rw [if_neg (show ¬row.appends p from happends)] at hbooks ho
      cases hedit
      by_cases hkey : p.channel.key = ""
      · rw [if_pos hkey] at hbooks
        obtain ⟨hwf, htable⟩ := h.updated (c := row.withInfo p) h.multi
          (if_pos hkey).symm h.array
        refine hbooks hwf ⟨nofun, ?_⟩
        rw [htable, h.storedKeys, List.map_nil, List.append_nil]
        rfl
      · rw [if_neg hkey] at hbooks
        obtain ⟨harray, hplace⟩ := ho hkey
        obtain ⟨hwf, htable⟩ := h.updated (c := row.withInfo p) h.multi
          (if_neg hkey).symm harray
        refine hbooks hwf ⟨?_, fun q hq => ?_⟩
        · rw [htable, StatusList.map_fst_table]
          rfl
        · rw [htable] at hq
          exact Channel.Wf.table_replace hplace hq

/-- **One step** keeps the books of the keys: their number is right, the table changes as the
request asks or not at all, and no key is enabled by the way. -/
theorem bookkept_step (h : row.Wf dec) (ho : Orderly dec row e) :
    (row.step dec e).Wf dec ∧ Bookkept dec e row (row.step dec e) := by
  cases e with
  | manage channelId action keyIndex => exact bookkept_manage h ho
  | update p => exact bookkept_update h ho

end Requests

/-! ### Runs -/

section Runs

variable {dec : Decoders} {db : DB} {row : Channel} {e : KeyEvent}

/-- What is handed to `Update` has the id of the request. -/
theorem id_of_serve {c : Channel} (hid : row.id = e.channelId)
    (hserve : row.serve dec e = .ok c) : c.id = e.channelId := by
  cases e with
  | manage channelId action keyIndex =>
    rw [← hid]
    rw [Channel.serve] at hserve
    split at hserve
    · cases action with
      | disableKey =>
        rw [Channel.manage] at hserve
        split at hserve <;> cases hserve
        rfl
      | enableKey =>
        rw [Channel.manage] at hserve
        split at hserve <;> cases hserve
        rfl
      | enableAllKeys =>
        cases hserve
        rfl
      | disableAllKeys =>
        rw [Channel.manage] at hserve
        split at hserve <;> cases hserve
        rfl
      | deleteKey =>
        rw [Channel.manage] at hserve
        split at hserve
        · cases hserve
        · dsimp only at hserve
          split at hserve <;> cases hserve
          rfl
      | deleteDisabledKeys =>
        rw [Channel.manage] at hserve
        split at hserve <;> cases hserve
        rfl
    · cases hserve
  | update p =>
    rw [Channel.serve, Channel.edit] at hserve
    split at hserve
    · cases hserve
    · split at hserve
      · split at hserve <;> cases hserve
        rfl
      · cases hserve
        rfl

/-- **A request is a step of the row it is about**, and leaves the others. -/
theorem DB.first_serve (hrow : db.first e.channelId = some row) (hid : row.id ≠ 0)
    (i : ℕ) : (db.serve dec e).first i =
      if i = e.channelId then some (row.step dec e) else db.first i := by
  have hrowId : row.id = e.channelId := DB.id_of_first hrow
  rw [DB.serve, hrow, Channel.step]
  dsimp only
  cases hserve : row.serve dec e with
  | error err =>
    dsimp only
    split
    · rename_i h
      rw [h, hrow]
    · rfl
  | ok c =>
    have hc := id_of_serve hrowId hserve
    have hcrow : db.first c.id = some row := by rw [hc]; exact hrow
    have hcid : c.id ≠ 0 := by rw [hc, ← hrowId]; exact hid
    have hupdate : (db.update dec.jsonArray c).first i = _ := db.first_update hcid hcrow i
    rwa [hc] at hupdate

theorem DB.first_serve_of_ne {i : ℕ} (hi : i ≠ e.channelId) :
    (db.serve dec e).first i = db.first i := by
  cases hrow : db.first e.channelId with
  | none => rw [DB.serve, hrow]
  | some row =>
    by_cases hid : row.id = 0
    · rw [DB.serve, hrow]
      dsimp only
      cases hserve : row.serve dec e with
      | error err => rfl
      | ok c =>
        have hc := id_of_serve (DB.id_of_first hrow) hserve
        rw [← DB.id_of_first hrow, hid] at hc
        show (db.update dec.jsonArray c).first i = db.first i
        rw [DB.update]
        have hzero : (if c.channelInfo.isMultiKey then c.recount dec.jsonArray
            (if c.key ≠ "" then c.key else ((db.first c.id).map Channel.key).getD "") else c).id =
              0 := by
          split <;> exact hc
        rw [if_pos hzero]
    · rw [DB.first_serve hrow hid, if_neg hi]

/-- **What holds of a channel along a run**: its row is there, and is as it should be. -/
theorem bookkept_serve {id : ℕ} (hrow : db.first id = some row) (hwf : row.Wf dec)
    (ho : e.channelId = id → Orderly dec row e) : ∃ row', (db.serve dec e).first id = some row' ∧
      row'.Wf dec ∧ (e.channelId = id → Bookkept dec e row row') ∧
        (e.channelId ≠ id → row' = row) := by
  by_cases hid : e.channelId = id
  · subst hid
    obtain ⟨hwf', hbooks⟩ := bookkept_step hwf (ho rfl)
    refine ⟨row.step dec e, ?_, hwf', fun _ => hbooks, fun hne => absurd rfl hne⟩
    rw [DB.first_serve hrow hwf.id, if_pos rfl]
  · refine ⟨row, ?_, hwf, fun heq => absurd heq hid, fun _ => rfl⟩
    rw [DB.first_serve_of_ne (Ne.symm hid), hrow]

/-- **Every step of a run keeps the books** of a channel, if the requests for it are orderly:
the size is the number of its keys after it, the keys and their statuses are what the request
is to make of them, and a request for another channel leaves them alone. -/
theorem bookkept_run {id : ℕ} (hrow : db.first id = some row) (hwf : row.Wf dec)
    {es : List KeyEvent} (h : Along (DB.serve dec) (fun db e => e.channelId = id →
      ∀ row ∈ db.first id, Orderly dec row e) db es) (n : ℕ) {e : KeyEvent} (hn : es[n]? = some e) :
    ∃ row row', (run (DB.serve dec) db (es.take n)).first id = some row ∧
      (run (DB.serve dec) db (es.take (n + 1))).first id = some row' ∧
        row'.channelInfo.multiKeySize = (row'.getKeys dec.jsonArray).length ∧
          (e.channelId = id → Bookkept dec e row row') ∧ (e.channelId ≠ id → row' = row) := by
  have hinv : ∃ row, (run (DB.serve dec) db (es.take n)).first id = some row ∧ row.Wf dec := by
    refine inv_run (I := fun db => ∃ row, db.first id = some row ∧ row.Wf dec)
      (fun db e hrow ho => ?_) ⟨row, hrow, hwf⟩ (along_take h n)
    obtain ⟨row, hrow, hwf⟩ := hrow
    obtain ⟨row', hrow', hwf', -⟩ := bookkept_serve hrow hwf fun he => ho he row hrow
    exact ⟨row', hrow', hwf'⟩
  obtain ⟨row₁, hrow₁, hwf₁⟩ := hinv
  have htake : es.take (n + 1) = es.take n ++ [e] := by rw [List.take_add_one, hn]; rfl
  have hlast := along_take h (n + 1)
  rw [htake, along_append] at hlast
  obtain ⟨row', hrow', hwf', hbooks⟩ :=
    bookkept_serve hrow₁ hwf₁ fun he => hlast.2.1 he row₁ hrow₁
  refine ⟨row₁, row', hrow₁, ?_, hwf'.size, hbooks⟩
  rw [htake, run_append]
  exact hrow'

/-- A decoder that knows no arrays. -/
def noArrays : Decoders where
  jsonArray := fun _ => none
  keyArray := fun _ => .error "invalid character"

/-- A multi-key channel with its keys and statuses. -/
def multiKeyChannel (keys : List String) (statuses : StatusList) : Channel where
  id := 1
  key := "\n".intercalate keys
  channelInfo :=
    { isMultiKey := true
      multiKeySize := keys.length
      multiKeyStatusList := statuses }

/-- The first of two keys is deleted, of which the other is disabled. -/
theorem bookkept_run_two : ∃ row row',
    (run (DB.serve noArrays) ⟨[multiKeyChannel ["sk-a", "sk-b"] ∅], []⟩
      [.manage 1 .disableKey (some 1)]).first 1 = some row ∧
    (run (DB.serve noArrays) ⟨[multiKeyChannel ["sk-a", "sk-b"] ∅], []⟩
      [.manage 1 .disableKey (some 1), .manage 1 .deleteKey (some 0)]).first 1 = some row' ∧
    Bookkept noArrays (.manage 1 .deleteKey (some 0)) row row' := by
  have hwf : (multiKeyChannel ["sk-a", "sk-b"] ∅).Wf noArrays :=
    ⟨by decide, rfl, rfl, by decide +kernel, nofun, fun _ _ => rfl⟩
  have hrow : (DB.serve noArrays ⟨[multiKeyChannel ["sk-a", "sk-b"] ∅], []⟩
      (.manage 1 .disableKey (some 1))).first 1 =
        some (multiKeyChannel ["sk-a", "sk-b"] ((∅ : StatusList).insert 1 2)) := by
    decide +kernel
  have hlines : Lines noArrays ["sk-b"] :=
    ⟨by decide, by decide, by decide, by decide, by decide +kernel⟩
  have hkeys : (Channel.getKeys noArrays.jsonArray (multiKeyChannel ["sk-a", "sk-b"]
      ((∅ : StatusList).insert 1 2))).eraseIdx 0 = ["sk-b"] := by decide +kernel
  have halong : Along (DB.serve noArrays) (fun db e => e.channelId = 1 →
      ∀ row ∈ db.first 1, Orderly noArrays row e) ⟨[multiKeyChannel ["sk-a", "sk-b"] ∅], []⟩
        [.manage 1 .disableKey (some 1), .manage 1 .deleteKey (some 0)] := by
    refine ⟨fun _ _ _ => trivial, fun _ row hmem => ?_, trivial⟩
    cases hrow.symm.trans hmem
    intro i hi _
    cases hi
    rw [show (0 : ℤ).toNat = 0 from rfl, hkeys]
    exact hlines
  obtain ⟨row, row', hbefore, hafter, -, hbooks, -⟩ := bookkept_run rfl hwf halong 1 rfl
  exact ⟨row, row', hbefore, hafter, hbooks rfl⟩

theorem Bookkept.holds {row' : Channel} (h : Bookkept dec e row row')
    (hok : (row.serve dec e).isOk = true) :
    (row.change dec e).Holds (row.table dec) (row'.table dec) := by
  have hchange := h.change
  cases hserve : row.serve dec e with
  | error err =>
    rw [hserve] at hok
    cases hok
  | ok c => rwa [hserve] at hchange

/-- All keys are disabled and are to be deleted, and are enabled; a key that replaces a disabled
one is disabled; and a key in brackets is lost where another is appended, which is disabled. -/
theorem not_bookkept :
    ((multiKeyChannel ["sk-a"] ((∅ : StatusList).insert 0 3)).Wf noArrays ∧
      ¬Bookkept noArrays (.manage 1 .deleteDisabledKeys none)
        (multiKeyChannel ["sk-a"] ((∅ : StatusList).insert 0 3))
        ((multiKeyChannel ["sk-a"] ((∅ : StatusList).insert 0 3)).step noArrays
          (.manage 1 .deleteDisabledKeys none)) ∧
      ¬Bookkept noArrays
        (.update { channel := { id := 1, key := "sk-b" }, keyMode := some "replace" })
        (multiKeyChannel ["sk-a"] ((∅ : StatusList).insert 0 3))
        ((multiKeyChannel ["sk-a"] ((∅ : StatusList).insert 0 3)).step noArrays
          (.update { channel := { id := 1, key := "sk-b" }, keyMode := some "replace" }))) ∧
    (multiKeyChannel ["[sk-a]"] ((∅ : StatusList).insert 0 3)).Wf noArrays ∧
      ¬Bookkept noArrays
        (.update { channel := { id := 1, key := "sk-b" }, keyMode := some "append" })
        (multiKeyChannel ["[sk-a]"] ((∅ : StatusList).insert 0 3))
        ((multiKeyChannel ["[sk-a]"] ((∅ : StatusList).insert 0 3)).step noArrays
          (.update { channel := { id := 1, key := "sk-b" }, keyMode := some "append" })) := by
  have hbelow (i : ℕ) (hi : 1 ≤ i) : ((∅ : StatusList).insert 0 3).lookup i = none := by
    rw [Finmap.lookup_insert_of_ne _ (by omega), Finmap.lookup_empty]
  refine ⟨⟨⟨by decide, rfl, rfl, by decide +kernel, by decide +kernel, fun i hi => hbelow i ?_⟩,
    fun h => ?_, fun h => ?_⟩, ⟨by decide, rfl, rfl, by decide +kernel, by decide +kernel,
    fun i hi => hbelow i ?_⟩, fun h => ?_⟩
  · exact (by decide +kernel : 1 ≤ _).trans hi
  · exact absurd (h.enabled rfl "sk-a" (by decide +kernel)) (by decide +kernel)
  · exact absurd ((h.holds (by decide +kernel)).2 ("sk-b", 3) (by decide +kernel))
      (by decide +kernel)
  · exact (by decide +kernel : 1 ≤ _).trans hi
  · exact absurd (h.holds (by decide +kernel)).2 (by decide +kernel)

end Runs

end NewApiPool.Routing
