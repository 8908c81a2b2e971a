import Mathlib.Data.Finmap
import Mathlib.Data.List.Nodup
import NewApiPool.Lib.GoText

/-!
# Channels and their abilities

The two tables the routing reads, and the single statements the operations of
`model/channel.go` and `model/ability.go` are made of. A channel lists its groups and
models as two comma-separated texts; an ability is one row per group, model and channel,
with the columns of the channel that a selection looks at copied into it.

* `Channel.newAbilities` – the rows `AddAbilities` and `UpdateAbilities` build for a
  channel: the product of the two lists, less the pairs whose key was seen before.
* `DB.create`, `DB.updates`, `DB.createAbilities`, … – one definition per statement, with
  what the ORM does on the way: a column default replaces a zero value on `Create`, and
  `Updates` from a struct leaves the columns of its zero values alone.
* `Mirrors` – what the second table is for: exactly the rows the channels list, each with
  the columns of its channel.

A stored priority or weight is never NULL (both columns have the default `0`), so the
copies in an ability are plain numbers. The names, quotas, prices and settings of a
channel, and the reasons and times of a disabled key, are read by nothing here.
-/

namespace NewApiPool.Routing

open GoText

/-! ### Rows -/

/-- `common.ChannelStatusEnabled`. -/
def channelStatusEnabled : ℤ := 1

/-- `common.ChannelStatusManuallyDisabled`. -/
def channelStatusManuallyDisabled : ℤ := 2

/-- `common.ChannelStatusAutoDisabled`. -/
def channelStatusAutoDisabled : ℤ := 3

/-- `constant.MultiKeyMode`: a text, of which two values are known. -/
inductive MultiKeyMode
  | random
  | polling
  | other (mode : String)
  deriving DecidableEq

/-- A Go map from key index to status. -/
abbrev StatusList := Finmap fun _ : ℕ => ℤ

/-- The entries of a status list for the indices below `n`. -/
def StatusList.below (l : StatusList) (n : ℕ) : StatusList where
  entries := l.entries.filter fun e => e.1 < n
  nodupKeys := by
    rw [← Multiset.nodup_keys]
    have hkeys : l.entries.keys.Nodup := Multiset.nodup_keys.2 l.nodupKeys
    exact Multiset.nodup_of_le (Multiset.map_le_map (Multiset.filter_le _ _)) hkeys

/-- The column `channel_info`. -/
structure ChannelInfo where
  isMultiKey : Bool := false
  multiKeySize : ℤ := 0
  multiKeyStatusList : StatusList := ∅
  multiKeyPollingIndex : ℤ := 0
  multiKeyMode : MultiKeyMode := .other ""
  deriving DecidableEq

/-- `Channel`, as a row and as the struct a caller fills in: a `none`, a `0` or an empty
text there is a value the caller did not give. -/
structure Channel where
  id : ℕ
  key : String := ""
  status : ℤ := 0
  weight : Option ℕ := none
  models : String := ""
  group : String := ""
  priority : Option ℤ := none
  tag : Option String := none
  channelInfo : ChannelInfo := {}
  /-- The keys once parsed. No column: only the cached channels carry them. -/
  keys : List String := []
  deriving DecidableEq

/-- `Ability`. The first three columns are the primary key. -/
structure Ability where
  group : String
  model : String
  channelId : ℕ
  enabled : Bool
  priority : ℤ
  weight : ℕ
  tag : Option String
  deriving DecidableEq

/-- The primary key of an ability. -/
def Ability.key (a : Ability) : String × String × ℕ := (a.group, a.model, a.channelId)

namespace Channel

def getPriority (c : Channel) : ℤ := c.priority.getD 0

def getWeight (c : Channel) : ℕ := c.weight.getD 0

/-- `strings.Split(channel.Group, ",")`. -/
def groupList (c : Channel) : List String := split ',' c.group

/-- `strings.Split(channel.Models, ",")`. -/
def modelList (c : Channel) : List String := split ',' c.models

/-- `channel.Status == common.ChannelStatusEnabled`. -/
def isEnabled (c : Channel) : Bool := c.status == channelStatusEnabled

theorem groupList_ne_nil (c : Channel) : c.groupList ≠ [] := split_ne_nil ',' c.group

theorem modelList_ne_nil (c : Channel) : c.modelList ≠ [] := split_ne_nil ',' c.models

/-! ### The keys of one channel

The JSON decoder is a parameter: `common.Unmarshal` of a text into a list of raw values. -/

/-- The text of a key field as a list of keys: a JSON array, else one key a line. -/
def parseKeys (jsonArray : String → Option (List String)) (key : String) : List String :=
  let trimmed := trimSpace key
  match if startsWith trimmed "[" then jsonArray trimmed else none with
  | some arr => arr
  | none => split '\n' (trim '\n' key)

/-- `Channel.GetKeys`: none without a key field, else the parsed ones if they are at hand. -/
def getKeys (jsonArray : String → Option (List String)) (c : Channel) : List String :=
  if c.key = "" then []
  else if c.keys ≠ [] then c.keys
  else parseKeys jsonArray c.key

/-- The recount at the head of `Channel.Update`, for the key text the channel will have: the
number of keys, and no status beyond it. An array that is empty, or is none, is split by
lines here. -/
def recount (jsonArray : String → Option (List String)) (c : Channel) (keyStr : String) :
    Channel :=
  let keys :=
    if keyStr = "" then []
    else
      let trimmed := trimSpace keyStr
      match if startsWith trimmed "[" then jsonArray trimmed else none with
      | some (k :: ks) => k :: ks
      | _ => split '\n' (trim '\n' keyStr)
  { c with
    channelInfo.multiKeySize := keys.length
    channelInfo.multiKeyStatusList := c.channelInfo.multiKeyStatusList.below keys.length }

/-! ### The rows of one channel -/

/-- The row of a channel for one group and model. -/
def ability (c : Channel) (group model : String) : Ability where
  group := group
  model := model
  channelId := c.id
  enabled := c.isEnabled
  priority := c.getPriority
  weight := c.getWeight
  tag := c.tag

@[simp] theorem ability_group (c : Channel) (g m : String) : (c.ability g m).group = g := rfl

@[simp] theorem ability_model (c : Channel) (g m : String) : (c.ability g m).model = m := rfl

@[simp] theorem ability_channelId (c : Channel) (g m : String) :
    (c.ability g m).channelId = c.id := rfl

@[simp] theorem ability_tag (c : Channel) (g m : String) : (c.ability g m).tag = c.tag := rfl

/-- The key the loop remembers a pair by. -/
def pairKey (group model : String) : String := group ++ "|" ++ model

/-- The body of the loop over models and groups: a pair whose key was seen is skipped. -/
def collect (c : Channel) (seen : List String) : List (String × String) → List Ability
  | [] => []
  | (g, m) :: rest =>
    if pairKey g m ∈ seen then collect c seen rest
    else c.ability g m :: collect c (pairKey g m :: seen) rest

/-- The pairs in the order of the two loops, models outside. -/
def pairs (c : Channel) : List (String × String) :=
  c.modelList.flatMap fun m => c.groupList.map fun g => (g, m)

/-- **The rows `AddAbilities` and `UpdateAbilities` build.** -/
def newAbilities (c : Channel) : List Ability := c.collect [] c.pairs

@[simp] theorem mem_pairs (c : Channel) (g m : String) :
    (g, m) ∈ c.pairs ↔ g ∈ c.groupList ∧ m ∈ c.modelList := by
  unfold pairs
  simp only [List.mem_flatMap, List.mem_map, Prod.mk.injEq]
  refine ⟨?_, fun ⟨hg, hm⟩ => ⟨m, hm, g, hg, rfl, rfl⟩⟩
  rintro ⟨m', hm, g', hg, rfl, rfl⟩
  exact ⟨hg, hm⟩

/-- What `Create` stores for a struct: the column defaults in place of the zero values. -/
def withDefaults (c : Channel) : Channel :=
  { c with
    status := if c.status = 0 then 1 else c.status
    weight := some c.getWeight
    group := if c.group = "" then "default" else c.group
    priority := some c.getPriority
    keys := [] }

/-- What `Updates` with the struct `c` makes of a row: the zero values of `c` are left
out. -/
def patch (row c : Channel) : Channel :=
  { row with
    key := if c.key = "" then row.key else c.key
    status := if c.status = 0 then row.status else c.status
    weight := c.weight.or row.weight
    models := if c.models = "" then row.models else c.models
    group := if c.group = "" then row.group else c.group
    priority := c.priority.or row.priority
    tag := c.tag.or row.tag
    channelInfo := if c.channelInfo = {} then row.channelInfo else c.channelInfo }

@[simp] theorem patch_id (row c : Channel) : (row.patch c).id = row.id := rfl

@[simp] theorem withDefaults_id (c : Channel) : c.withDefaults.id = c.id := rfl

end Channel

/-! ### The tables and their statements -/

structure DB where
  channels : List Channel
  abilities : List Ability
  deriving DecidableEq

namespace DB

/-- `DB.First(&channel, "id = ?", id)`. -/
def first (db : DB) (id : ℕ) : Option Channel := db.channels.find? fun c => c.id == id

/-- `DB.Create(channel)`. A taken id is a primary key conflict and nothing is stored. -/
def create (db : DB) (c : Channel) : DB :=
  if (db.first c.id).isSome then db
  else { db with channels := db.channels ++ [c.withDefaults] }

/-- An `UPDATE` of the channel rows that meet a condition. -/
def updateChannels (db : DB) (cond : Channel → Bool) (f : Channel → Channel) : DB :=
  { db with channels := db.channels.map fun c => if cond c then f c else c }

theorem id_of_first {db : DB} {id : ℕ} {c : Channel} (h : db.first id = some c) : c.id = id := by
  simpa using List.find?_some h

/-- **The rows after an update by id.** -/
theorem first_updateChannels (db : DB) {id : ℕ} {f : Channel → Channel}
    (hf : ∀ row : Channel, row.id = id → (f row).id = id) (i : ℕ) :
    (db.updateChannels (fun row => row.id == id) f).first i =
      if i = id then (db.first i).map f else db.first i := by
  unfold updateChannels first
  rw [List.find?_map]
  have hkeep : ∀ row : Channel, (if row.id == id then f row else row).id = row.id := by
    intro row
    split
    · rename_i h
      rw [hf row (beq_iff_eq.1 h), beq_iff_eq.1 h]
    · rfl
  have hpred : ((fun row : Channel => row.id == i) ∘ fun row =>
      if row.id == id then f row else row) = fun row => row.id == i := by
    funext row
    simp only [Function.comp_apply, hkeep]
  rw [hpred]
  cases hfind : db.channels.find? fun row => row.id == i with
  | none => simp
  | some row =>
    have hrow : row.id = i := by simpa using List.find?_some hfind
    by_cases hi : i = id
    · simp [hi, hrow]
    · simp [hi, hrow]

/-- `DB.Model(channel).Updates(channel)`. -/
def updates (db : DB) (c : Channel) : DB :=
  db.updateChannels (fun row => row.id == c.id) fun row => row.patch c

/-- A `DELETE` of the channel rows that meet a condition. -/
def deleteChannels (db : DB) (cond : Channel → Bool) : DB :=
  { db with channels := db.channels.filter fun c => !cond c }

/-- `Create` of ability rows with `OnConflict{DoNothing: true}`: a row whose key is in the
table is left out. -/
def createAbilities (db : DB) (rows : List Ability) : DB :=
  { db with
    abilities := rows.foldl (fun table a =>
      if a.key ∈ table.map Ability.key then table else table ++ [a]) db.abilities }

/-- An `UPDATE` of the ability rows that meet a condition. -/
def updateAbilityRows (db : DB) (cond : Ability → Bool) (f : Ability → Ability) : DB :=
  { db with abilities := db.abilities.map fun a => if cond a then f a else a }

/-- A `DELETE` of the ability rows that meet a condition. -/
def deleteAbilityRows (db : DB) (cond : Ability → Bool) : DB :=
  { db with abilities := db.abilities.filter fun a => !cond a }

def deleteAbilities (db : DB) (id : ℕ) : DB := db.deleteAbilityRows fun a => a.channelId == id

/-- `Channel.UpdateAbilities`: one transaction, in which the rows of the channel are deleted
and built again. -/
def updateAbilities (db : DB) (c : Channel) : DB :=
  (db.deleteAbilities c.id).createAbilities c.newAbilities

end DB

/-! ### The invariants of the tables -/

/-- The primary key of the channels. -/
def DistinctIds (channels : List Channel) : Prop := (channels.map Channel.id).Nodup

instance (channels : List Channel) : Decidable (DistinctIds channels) :=
  inferInstanceAs (Decidable (List.Nodup _))

/-- **Abilities mirror channels**: a row for every group and model an existing channel
lists, with the columns of that channel, no other row, and none twice. -/
structure Mirrors (db : DB) : Prop where
  mem_iff : ∀ a, a ∈ db.abilities ↔
    ∃ c ∈ db.channels, a.group ∈ c.groupList ∧ a.model ∈ c.modelList ∧
      a = c.ability a.group a.model
  keys : (db.abilities.map Ability.key).Nodup

theorem mirrors_iff (db : DB) : Mirrors db ↔
    (∀ a ∈ db.abilities, ∃ c ∈ db.channels, a.group ∈ c.groupList ∧ a.model ∈ c.modelList ∧
      a = c.ability a.group a.model) ∧
    (∀ c ∈ db.channels, ∀ g ∈ c.groupList, ∀ m ∈ c.modelList, c.ability g m ∈ db.abilities) ∧
    (db.abilities.map Ability.key).Nodup := by
  constructor
  · rintro ⟨hmem, hkeys⟩
    exact ⟨fun a ha => (hmem a).1 ha,
      fun c hc g hg m hm => (hmem _).2 ⟨c, hc, hg, hm, rfl⟩, hkeys⟩
  · rintro ⟨hsound, hcomplete, hkeys⟩
    refine ⟨fun a => ⟨hsound a, ?_⟩, hkeys⟩
    rintro ⟨c, hc, hg, hm, ha⟩
    rw [ha]
    exact hcomplete c hc _ hg _ hm

instance (db : DB) : Decidable (Mirrors db) := decidable_of_iff _ (mirrors_iff db).symm

end NewApiPool.Routing
