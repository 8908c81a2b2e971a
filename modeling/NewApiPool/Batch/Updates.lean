import NewApiPool.Lib.Runs
import NewApiPool.Lib.Tally
import NewApiPool.Billing.Accounts

/-!
# Batched updates of the counters

With batch update on, the calls that move a quota or a counter do not write the
database. `addNewRecord` adds the amount to a map, one for each of the five kinds of
update, and `batchUpdate` takes the maps away one after the other and writes what it
found in them.

A call is the list of its operations: insertions into a map, or statements of the
database. A running `batchUpdate` is where it stands in its two loops, with the
entries of the map it has taken and not written. Both are in the state, in any
number, and an event lets one operation of one of them through; so the runs are the
interleavings the locks allow.

The columns are read through `NewApiPool.Batch.Database.value`, which has no value
where there is no row: an `UPDATE` of a row that is not there does nothing, with batch
update on and off.

Two theorems are the point of this file. `NewApiPool.Batch.conserved_run`: what the
database has, with what is in the maps and what was taken from them, is what it had
and what was added since. `NewApiPool.Batch.batch_refines_direct`: when nothing is
left to write, the database is the one the same calls would have made without
batching, in whatever order.
-/

namespace NewApiPool.Batch

open EventSystem Tally Billing

/-! ### The rows -/

/-- The counters of a row of `users`. -/
structure UserRow where
  quota : Int
  usedQuota : Int
  requestCount : Int
deriving DecidableEq, Repr

/-- The counter of a row of `channels`. -/
structure ChannelRow where
  usedQuota : Int
deriving DecidableEq, Repr

/-- The rows the updates go to, by id. -/
structure Database where
  user : Int → Option UserRow
  token : Int → Option TokenRow
  channel : Int → Option ChannelRow

inductive Cell where
  | quota (userId : Int)
  | usedQuota (userId : Int)
  | requestCount (userId : Int)
  | tokenRemain (tokenId : Int)
  | tokenUsed (tokenId : Int)
  | channelUsed (channelId : Int)
deriving DecidableEq, Repr

/-- What the database has in a cell, if there is a row. -/
def Database.value (db : Database) : Cell → Option Int
  | .quota id => (db.user id).map UserRow.quota
  | .usedQuota id => (db.user id).map UserRow.usedQuota
  | .requestCount id => (db.user id).map UserRow.requestCount
  | .tokenRemain id => (db.token id).map TokenRow.remainQuota
  | .tokenUsed id => (db.token id).map TokenRow.usedQuota
  | .channelUsed id => (db.channel id).map ChannelRow.usedQuota

theorem user_eq_of_columns {r r' : Option UserRow}
    (hq : r.map UserRow.quota = r'.map UserRow.quota)
    (hu : r.map UserRow.usedQuota = r'.map UserRow.usedQuota)
    (hc : r.map UserRow.requestCount = r'.map UserRow.requestCount) : r = r' := by
  rcases r with _ | ⟨q, u, c⟩ <;> rcases r' with _ | ⟨q', u', c'⟩ <;> simp_all

theorem token_eq_of_columns {r r' : Option TokenRow}
    (hr : r.map TokenRow.remainQuota = r'.map TokenRow.remainQuota)
    (hu : r.map TokenRow.usedQuota = r'.map TokenRow.usedQuota) : r = r' := by
  rcases r with _ | ⟨q, u⟩ <;> rcases r' with _ | ⟨q', u'⟩ <;> simp_all

theorem channel_eq_of_column {r r' : Option ChannelRow}
    (h : r.map ChannelRow.usedQuota = r'.map ChannelRow.usedQuota) : r = r' := by
  rcases r with _ | ⟨⟨u⟩⟩ <;> rcases r' with _ | ⟨⟨u'⟩⟩ <;> simp_all

/-- **A database is what it has in its cells.** -/
theorem Database.ext_value {db db' : Database} (h : ∀ c, db.value c = db'.value c) :
    db = db' := by
  have huser : db.user = db'.user := funext fun id =>
    user_eq_of_columns (h (.quota id)) (h (.usedQuota id)) (h (.requestCount id))
  have htoken : db.token = db'.token := funext fun id =>
    token_eq_of_columns (h (.tokenRemain id)) (h (.tokenUsed id))
  have hchannel : db.channel = db'.channel := funext fun id =>
    channel_eq_of_column (h (.channelUsed id))
  rcases db with ⟨u, t, c⟩
  rcases db' with ⟨u', t', c'⟩
  obtain rfl : u = u' := huser
  obtain rfl : t = t' := htoken
  obtain rfl : c = c' := hchannel
  rfl

/-! ### The statements -/

/-- The statements the updates are made with, each one `UPDATE … WHERE id = ?` with
an expression for every column. -/
inductive Stmt where
  | increaseUserQuota (id quota : Int)
  | decreaseUserQuota (id quota : Int)
  | increaseTokenQuota (id quota : Int)
  | decreaseTokenQuota (id quota : Int)
  | updateUserUsedQuotaAndRequestCount (id quota count : Int)
  | updateUserUsedQuota (id quota : Int)
  | updateUserRequestCount (id count : Int)
  | updateChannelUsedQuota (id quota : Int)
deriving DecidableEq, Repr

/-- The rows of a table after an `UPDATE … WHERE id = ?`. -/
def updateRow {β : Type*} (rows : Int → Option β) (id : Int) (f : β → β) : Int → Option β :=
  Function.update rows id ((rows id).map f)

@[simp] theorem updateRow_self {β : Type*} (rows : Int → Option β) (id : Int) (f : β → β) :
    updateRow rows id f id = (rows id).map f := by
  simp [updateRow]

theorem updateRow_of_ne {β : Type*} (rows : Int → Option β) {id id' : Int} (f : β → β)
    (h : id' ≠ id) : updateRow rows id f id' = rows id' := by
  simp [updateRow, h]

/-- The effect of a statement on the database. -/
def Stmt.exec (db : Database) : Stmt → Database
  | .increaseUserQuota id quota =>
    { db with user := updateRow db.user id fun r => { r with quota := r.quota + quota } }
  | .decreaseUserQuota id quota =>
    { db with user := updateRow db.user id fun r => { r with quota := r.quota - quota } }
  | .increaseTokenQuota id quota =>
    { db with token := updateRow db.token id fun r =>
        { remainQuota := r.remainQuota + quota, usedQuota := r.usedQuota - quota } }
  | .decreaseTokenQuota id quota =>
    { db with token := updateRow db.token id fun r =>
        { remainQuota := r.remainQuota - quota, usedQuota := r.usedQuota + quota } }
  | .updateUserUsedQuotaAndRequestCount id quota count =>
    { db with user := updateRow db.user id fun r =>
        { r with usedQuota := r.usedQuota + quota, requestCount := r.requestCount + count } }
  | .updateUserUsedQuota id quota =>
    { db with user := updateRow db.user id fun r => { r with usedQuota := r.usedQuota + quota } }
  | .updateUserRequestCount id count =>
    { db with user := updateRow db.user id fun r =>
        { r with requestCount := r.requestCount + count } }
  | .updateChannelUsedQuota id quota =>
    { db with channel := updateRow db.channel id fun r => { usedQuota := r.usedQuota + quota } }

/-- The value of a cell with `d` added, if there is a row. -/
def plus (v : Option Int) (d : Int) : Option Int := v.map (· + d)

@[simp] theorem plus_zero (v : Option Int) : plus v 0 = v := by
  cases v <;> simp [plus]

@[simp] theorem plus_plus (v : Option Int) (d e : Int) : plus (plus v d) e = plus v (d + e) := by
  cases v <;> simp [plus, add_assoc]

/-- The amount `d` where the cell is `c'`, and nothing elsewhere. -/
def amountAt (c' : Cell) (d : Int) (c : Cell) : Int := if c = c' then d else 0

theorem amountAt_add (c' c : Cell) (d e : Int) :
    amountAt c' (d + e) c = amountAt c' d c + amountAt c' e c := by
  unfold amountAt
  split <;> simp

/-- What a statement adds to each cell. -/
def Stmt.effect : Stmt → Cell → Int
  | .increaseUserQuota id quota, c => amountAt (.quota id) quota c
  | .decreaseUserQuota id quota, c => amountAt (.quota id) (-quota) c
  | .increaseTokenQuota id quota, c =>
    amountAt (.tokenRemain id) quota c + amountAt (.tokenUsed id) (-quota) c
  | .decreaseTokenQuota id quota, c =>
    amountAt (.tokenRemain id) (-quota) c + amountAt (.tokenUsed id) quota c
  | .updateUserUsedQuotaAndRequestCount id quota count, c =>
    amountAt (.usedQuota id) quota c + amountAt (.requestCount id) count c
  | .updateUserUsedQuota id quota, c => amountAt (.usedQuota id) quota c
  | .updateUserRequestCount id count, c => amountAt (.requestCount id) count c
  | .updateChannelUsedQuota id quota, c => amountAt (.channelUsed id) quota c

/-- A column of the rows after an update, when the update adds `d` to it. -/
theorem map_updateRow {β : Type*} (rows : Int → Option β) (id id' : Int) (f : β → β)
    (column : β → Int) (d : Int) (hf : ∀ r, column (f r) = column r + d) :
    (updateRow rows id f id').map column =
      plus ((rows id').map column) (if id' = id then d else 0) := by
  by_cases h : id' = id
  · subst h
    rw [updateRow_self, if_pos rfl, plus, Option.map_map, Option.map_map]
    exact congrArg (fun g => (rows id').map g) (funext hf)
  · rw [updateRow_of_ne rows f h, if_neg h, plus_zero]

/-- **A statement adds its effect to every cell that has a row**, whatever is in it. -/
theorem value_exec (st : Stmt) (db : Database) (c : Cell) :
    (st.exec db).value c = plus (db.value c) (st.effect c) := by
  cases st <;> cases c <;>
    simp [Stmt.exec, Stmt.effect, Database.value, amountAt, sub_eq_add_neg, map_updateRow]

/-! ### The maps and the calls -/

/-- The kinds of update, in the order of the constants. -/
inductive UpdateType where
  | userQuota
  | tokenQuota
  | usedQuota
  | channelUsedQuota
  | requestCount
deriving DecidableEq, Repr

/-- `0 … BatchUpdateTypeCount - 1`. -/
def UpdateType.all : List UpdateType :=
  [.userQuota, .tokenQuota, .usedQuota, .channelUsedQuota, .requestCount]

theorem UpdateType.all_nodup : UpdateType.all.Nodup := by decide

theorem UpdateType.mem_all (t : UpdateType) : t ∈ UpdateType.all := by
  cases t <;> decide

/-- The `switch` of `batchUpdate`: the statement that writes an entry of the map of
kind `t`. -/
def UpdateType.write : UpdateType → Int → Int → Stmt
  | .userQuota, key, value => .increaseUserQuota key value
  | .tokenQuota, key, value => .increaseTokenQuota key value
  | .usedQuota, key, value => .updateUserUsedQuota key value
  | .requestCount, key, value => .updateUserRequestCount key value
  | .channelUsedQuota, key, value => .updateChannelUsedQuota key value

/-- Two entries with one key come to one entry with the sum. -/
theorem effect_write_add (t : UpdateType) (key v v' : Int) (c : Cell) :
    (t.write key (v + v')).effect c = (t.write key v).effect c + (t.write key v').effect c := by
  cases t <;> simp only [UpdateType.write, Stmt.effect, amountAt_add, neg_add]
  omega

/-- A map of `batchUpdateStores`: its entries, no two with one key. -/
structure Store where
  entries : List (Int × Int)
  nodup : (entries.map Prod.fst).Nodup

/-- `make(map[int]int)`. -/
def Store.empty : Store := ⟨[], List.nodup_nil⟩

/-- The entries after `value` was added under `id`. -/
def addEntry (id value : Int) : List (Int × Int) → List (Int × Int)
  | [] => [(id, value)]
  | (key, v) :: rest =>
    if key = id then (key, v + value) :: rest else (key, v) :: addEntry id value rest

theorem mem_keys_addEntry {id value key : Int} {l : List (Int × Int)}
    (h : key ∈ (addEntry id value l).map Prod.fst) : key = id ∨ key ∈ l.map Prod.fst := by
  induction l with
  | nil => simpa [addEntry] using h
  | cons e l ih =>
    obtain ⟨k, v⟩ := e
    unfold addEntry at h
    split at h
    · exact Or.inr h
    · rcases List.mem_cons.mp h with rfl | h
      · exact Or.inr List.mem_cons_self
      · exact (ih h).imp_right (List.mem_cons_of_mem _)

theorem addEntry_nodup (id value : Int) {l : List (Int × Int)} (hl : (l.map Prod.fst).Nodup) :
    ((addEntry id value l).map Prod.fst).Nodup := by
  induction l with
  | nil => simp [addEntry]
  | cons e l ih =>
    obtain ⟨k, v⟩ := e
    obtain ⟨hk, hl⟩ := List.nodup_cons.mp hl
    unfold addEntry
    split
    case isTrue => exact List.nodup_cons.mpr ⟨hk, hl⟩
    case isFalse hne =>
      refine List.nodup_cons.mpr ⟨fun hmem => ?_, ih hl⟩
      rcases mem_keys_addEntry hmem with rfl | hmem
      · exact hne rfl
      · exact hk hmem

/-- `addNewRecord` on the map of its kind. -/
def Store.addNewRecord (m : Store) (id value : Int) : Store :=
  ⟨addEntry id value m.entries, addEntry_nodup id value m.nodup⟩

/-- What writing the entries of a map of kind `t` would add to a cell. -/
def entriesEffect (t : UpdateType) (l : List (Int × Int)) (c : Cell) : Int :=
  tally l fun e => (t.write e.1 e.2).effect c

/-- **A record is added to what its map holds**, merged with an entry or not. -/
theorem entriesEffect_addEntry (t : UpdateType) (id value : Int) (l : List (Int × Int))
    (c : Cell) : entriesEffect t (addEntry id value l) c =
      entriesEffect t l c + (t.write id value).effect c := by
  induction l with
  | nil => simp [addEntry, entriesEffect]
  | cons e l ih =>
    obtain ⟨k, v⟩ := e
    unfold entriesEffect at ih ⊢
    unfold addEntry
    split
    case isTrue hk =>
      subst hk
      simp only [tally_cons, effect_write_add]
      omega
    case isFalse =>
      simp only [tally_cons, ih]
      omega

/-- An operation of a call: `addNewRecord`, or a statement. -/
inductive Op where
  | addNewRecord (t : UpdateType) (id value : Int)
  | exec (st : Stmt)
deriving DecidableEq, Repr

/-- What an operation adds to a cell, now or when its record is written. -/
def Op.effect : Op → Cell → Int
  | .addNewRecord t id value, c => (t.write id value).effect c
  | .exec st, c => st.effect c

/-- The calls. `db` is the argument that takes a call past the maps. -/
inductive Call where
  | increaseUserQuota (id quota : Int) (db : Bool)
  | decreaseUserQuota (id quota : Int) (db : Bool)
  | increaseTokenQuota (tokenId quota : Int)
  | decreaseTokenQuota (id quota : Int)
  | updateUserUsedQuotaAndRequestCount (id quota : Int)
  | updateChannelUsedQuota (id quota : Int)
deriving DecidableEq, Repr

/-- The guard of the four calls that move a quota. -/
def refuseNegative (quota : Int) (ops : List Op) : Except String (List Op) :=
  if quota < 0 then .error "quota 不能为负数！" else .ok ops

/-- The operations of a call, `batch` being `common.BatchUpdateEnabled`, or the error it
returns with. -/
def Call.program (batch : Bool) : Call → Except String (List Op)
  | .increaseUserQuota id quota db => refuseNegative quota
    [if !db && batch then .addNewRecord .userQuota id quota
      else .exec (.increaseUserQuota id quota)]
  | .decreaseUserQuota id quota db => refuseNegative quota
    [if !db && batch then .addNewRecord .userQuota id (-quota)
      else .exec (.decreaseUserQuota id quota)]
  | .increaseTokenQuota tokenId quota => refuseNegative quota
    [if batch then .addNewRecord .tokenQuota tokenId quota
      else .exec (.increaseTokenQuota tokenId quota)]
  | .decreaseTokenQuota id quota => refuseNegative quota
    [if batch then .addNewRecord .tokenQuota id (-quota)
      else .exec (.decreaseTokenQuota id quota)]
  | .updateUserUsedQuotaAndRequestCount id quota => .ok
    (if batch then [.addNewRecord .usedQuota id quota, .addNewRecord .requestCount id 1]
      else [.exec (.updateUserUsedQuotaAndRequestCount id quota 1)])
  | .updateChannelUsedQuota id quota => .ok
    [if batch then .addNewRecord .channelUsedQuota id quota
      else .exec (.updateChannelUsedQuota id quota)]

/-- What a list of operations adds to a cell. -/
def opsEffect (ops : List Op) (c : Cell) : Int := tally ops fun op => op.effect c

/-- What a call with these operations adds to a cell: nothing when it is refused. -/
def programEffect (p : Except String (List Op)) (c : Cell) : Int :=
  match p with
  | .error _ => 0
  | .ok ops => opsEffect ops c

/-- What a call adds to a cell, over all its operations: what it writes itself, and what its records
in the maps come to when they are written. -/
def Call.effect (batch : Bool) (k : Call) (c : Cell) : Int := programEffect (k.program batch) c

/-- What a call is asked to add to a cell, by its arguments: the amount for an increase, less the
amount for a decrease, and nothing for a negative amount that is refused. A token's quota is
moved between the two columns of its row, and a request is counted once. -/
def Call.amount : Call → Cell → Int
  | .increaseUserQuota id quota _, c => if quota < 0 then 0 else amountAt (.quota id) quota c
  | .decreaseUserQuota id quota _, c => if quota < 0 then 0 else amountAt (.quota id) (-quota) c
  | .increaseTokenQuota tokenId quota, c =>
    if quota < 0 then 0
    else amountAt (.tokenRemain tokenId) quota c + amountAt (.tokenUsed tokenId) (-quota) c
  | .decreaseTokenQuota id quota, c =>
    if quota < 0 then 0
    else amountAt (.tokenRemain id) (-quota) c + amountAt (.tokenUsed id) quota c
  | .updateUserUsedQuotaAndRequestCount id quota, c =>
    amountAt (.usedQuota id) quota c + amountAt (.requestCount id) 1 c
  | .updateChannelUsedQuota id quota, c => amountAt (.channelUsed id) quota c

theorem programEffect_refuseNegative (quota : Int) (op : Op) (c : Cell) :
    programEffect (refuseNegative quota [op]) c = if quota < 0 then 0 else op.effect c := by
  unfold refuseNegative
  split
  · rfl
  · simp [programEffect, opsEffect]

/-- **A call adds what its arguments say**, with batch update on and off. -/
theorem Call.effect_eq_amount (batch : Bool) (k : Call) (c : Cell) :
    k.effect batch c = k.amount c := by
  cases k with
  | increaseUserQuota id quota db =>
    rw [Call.effect, Call.program, programEffect_refuseNegative]
    cases db <;> cases batch <;> rfl
  | decreaseUserQuota id quota db =>
    rw [Call.effect, Call.program, programEffect_refuseNegative]
    cases db <;> cases batch <;> rfl
  | increaseTokenQuota tokenId quota =>
    rw [Call.effect, Call.program, programEffect_refuseNegative]
    cases batch <;> rfl
  | decreaseTokenQuota id quota =>
    -- the map keeps one signed amount, where the two direct statements differ in sign
    rw [Call.effect, Call.program, programEffect_refuseNegative]
    cases batch <;> simp [Call.amount, Op.effect, UpdateType.write, Stmt.effect]
  | updateUserUsedQuotaAndRequestCount id quota =>
    -- two records for the one statement
    cases batch <;> simp [Call.effect, Call.program, Call.amount, programEffect, opsEffect,
      Op.effect, UpdateType.write, Stmt.effect]
  | updateChannelUsedQuota id quota =>
    cases batch <;> simp [Call.effect, Call.program, Call.amount, programEffect, opsEffect,
      Op.effect, UpdateType.write, Stmt.effect]

/-- **A call adds the same with batch update on and off**, and is refused in the same
cases. -/
theorem Call.effect_batch (k : Call) (c : Cell) : k.effect true c = k.effect false c := by
  rw [Call.effect_eq_amount, Call.effect_eq_amount]

/-! ### The system -/

/-- Where a running `batchUpdate` stands: in the loop that looks for data, or in the
loop that takes the maps, with the kinds still to come; in the second one it may have a
map of kind `t` in its hands, of which `todo` is not written. -/
inductive Updater where
  | checking (rest : List UpdateType)
  | swapping (rest : List UpdateType)
  | writing (t : UpdateType) (todo : List (Int × Int)) (rest : List UpdateType)
  | finished
deriving DecidableEq, Repr

/-- The entries a running `batchUpdate` has taken and not written. -/
def Updater.todo : Updater → List (Int × Int)
  | .writing _ todo _ => todo
  | _ => []

/-- What they will add to a cell. -/
def Updater.taken (c : Cell) : Updater → Int
  | .writing t todo _ => entriesEffect t todo c
  | _ => 0

/-- The database, the maps, the calls in progress by what they have still to do, and
the runs of `batchUpdate`. -/
structure State where
  db : Database
  stores : UpdateType → Store
  calls : List (List Op)
  updaters : List Updater

/-- The state the process starts in. -/
def State.init (db : Database) : State := ⟨db, fun _ => Store.empty, [], []⟩

/-- An operation of a call. -/
def State.perform (s : State) : Op → State
  | .addNewRecord t id value =>
    { s with stores := Function.update s.stores t ((s.stores t).addNewRecord id value) }
  | .exec st => { s with db := st.exec s.db }

/-- What happens: a call begins, or does its next operation; a `batchUpdate` begins, or
does its next step. A Go map is ranged over in any order, so that `pick` says which of
the entries in hand is written next. -/
inductive Event where
  | call (k : Call)
  | caller (i : Nat)
  | batchUpdate
  | updater (i pick : Nat)
deriving DecidableEq, Repr

/-- The `i`-th `batchUpdate` gets to `u`. -/
def State.setUpdater (s : State) (i : Nat) (u : Updater) : State :=
  { s with updaters := s.updaters.set i u }

/-- One step of the `i`-th `batchUpdate`, which stands at `u`. -/
def State.advance (s : State) (i pick : Nat) : Updater → State
  | .checking [] => s.setUpdater i .finished
  | .checking (t :: rest) =>
    if (s.stores t).entries = [] then s.setUpdater i (.checking rest)
    else s.setUpdater i (.swapping UpdateType.all)
  | .swapping [] => s.setUpdater i .finished
  | .swapping (t :: rest) =>
    { s with
      stores := Function.update s.stores t Store.empty
      updaters := s.updaters.set i (.writing t (s.stores t).entries rest) }
  | .writing t todo rest =>
    if todo = [] then s.setUpdater i (.swapping rest)
    else match todo[pick]? with
      | none => s
      | some e =>
        { s with
          db := (t.write e.1 e.2).exec s.db
          updaters := s.updaters.set i (.writing t (todo.eraseIdx pick) rest) }
  | .finished => s

/-- One event, with batch update on or off. -/
def step (batch : Bool) (s : State) : Event → State
  | .call k =>
    match k.program batch with
    | .error _ => s
    | .ok ops => { s with calls := s.calls ++ [ops] }
  | .caller i =>
    match s.calls[i]? with
    | some (op :: ops) => { s.perform op with calls := s.calls.set i ops }
    | _ => s
  | .batchUpdate => { s with updaters := s.updaters ++ [.checking UpdateType.all] }
  | .updater i pick =>
    match s.updaters[i]? with
    | some u => s.advance i pick u
    | none => s

/-! ### Nothing is lost and nothing counted twice -/

/-- The amount in the maps for a cell. -/
def State.inStores (s : State) (c : Cell) : Int :=
  tally UpdateType.all fun t => entriesEffect t (s.stores t).entries c

/-- The amount the running `batchUpdate` calls have taken and not written. -/
def State.taken (s : State) (c : Cell) : Int := tally s.updaters (Updater.taken c)

/-- What the cell comes to with all that is still to be written. -/
def State.level (s : State) (c : Cell) : Option Int :=
  plus (s.db.value c) (s.inStores c + s.taken c)

/-- The delta an event hands over. -/
def delta (s : State) (e : Event) (c : Cell) : Int :=
  match e with
  | .caller i =>
    match s.calls[i]? with
    | some (op :: _) => op.effect c
    | _ => 0
  | _ => 0

/-- The sum of the deltas along a run. -/
def deltas (batch : Bool) (s : State) (c : Cell) : List Event → Int
  | [] => 0
  | e :: es => delta s e c + deltas batch (step batch s e) c es

/-- The amount in the maps after one of them was replaced. -/
theorem inStores_update (s : State) (t : UpdateType) (m : Store) (c : Cell) :
    (tally UpdateType.all fun t' =>
      entriesEffect t' (Function.update s.stores t m t').entries c) =
      s.inStores c + (entriesEffect t m.entries c - entriesEffect t (s.stores t).entries c) := by
  have h := tally_change
    (f := fun t' => entriesEffect t' (s.stores t').entries c)
    (g := fun t' => entriesEffect t' (Function.update s.stores t m t').entries c)
    UpdateType.all_nodup (UpdateType.mem_all t) fun t' _ hne => by
      simp only [Function.update_of_ne hne]
  simpa [State.inStores] using h

theorem level_perform (s : State) (op : Op) (c : Cell) :
    (s.perform op).level c = plus (s.level c) (op.effect c) := by
  cases op with
  | addNewRecord t id value =>
    have h : (s.perform (.addNewRecord t id value)).inStores c =
        s.inStores c + (t.write id value).effect c := by
      have h := inStores_update s t ((s.stores t).addNewRecord id value) c
      rw [Store.addNewRecord, entriesEffect_addEntry] at h
      refine Eq.trans h ?_
      omega
    simp only [State.level, h, Op.effect, plus_plus]
    congr 1
    simp only [State.taken, State.perform]
    omega
  | exec st =>
    simp only [State.level, State.perform, value_exec, Op.effect, plus_plus]
    congr 1
    simp only [State.inStores, State.taken]
    omega

variable {s : State} {u : Updater}

theorem level_setUpdater {i : Nat} {u' : Updater} {c : Cell}
    (hu : s.updaters[i]? = some u) (h : u'.taken c = u.taken c) :
    (s.setUpdater i u').level c = s.level c := by
  simp only [State.level, State.setUpdater, State.taken, State.inStores, tally_set hu, h,
    sub_self, add_zero]

/-- **A step of a `batchUpdate` changes no level**: what it takes out of a map it has in
hand, and what it writes it has no longer. -/
theorem level_advance {i : Nat} (hu : s.updaters[i]? = some u)
    (pick : Nat) (c : Cell) : (s.advance i pick u).level c = s.level c := by
  cases u with
  | checking rest =>
    cases rest with
    | nil => exact level_setUpdater hu rfl
    | cons t rest =>
      simp only [State.advance]
      split
      · exact level_setUpdater hu rfl
      · exact level_setUpdater hu rfl
  | swapping rest =>
    cases rest with
    | nil => exact level_setUpdater hu rfl
    | cons t rest =>
      -- the map is empty afterwards, and all of it is in hand
      have hstores := inStores_update s t Store.empty c
      have hempty : entriesEffect t Store.empty.entries c = 0 := rfl
      simp only [State.level, State.advance, State.taken, tally_set hu, Updater.taken]
      rw [State.inStores, hstores, hempty]
      congr 1
      omega
  | writing t todo rest =>
    simp only [State.advance]
    split
    case isTrue h =>
      subst h
      exact level_setUpdater hu rfl
    case isFalse =>
      split
      · rfl
      · rename_i e he
        simp only [State.level, State.taken, State.inStores, value_exec, tally_set hu,
          Updater.taken, entriesEffect, tally_eraseIdx he, plus_plus]
        congr 1
        omega
  | finished => rfl

/-- **A step changes a level by the delta it hands over.** -/
theorem level_step (batch : Bool) (s : State) (e : Event) (c : Cell) :
    (step batch s e).level c = plus (s.level c) (delta s e c) := by
  cases e with
  | call k =>
    rcases h : k.program batch with _ | ops <;> simp only [step, delta, h, plus_zero]
    rfl
  | caller i =>
    rcases h : s.calls[i]? with _ | _ | ⟨op, ops⟩ <;> simp only [step, delta, h, plus_zero]
    exact level_perform s op c
  | batchUpdate =>
    simp [step, delta, State.level, State.inStores, State.taken, Updater.taken]
  | updater i pick =>
    rcases h : s.updaters[i]? with _ | u <;> simp only [step, delta, h, plus_zero]
    exact level_advance h pick c

/-- **What the database has, the maps hold and the running updates have taken is what it
had with what was added since**, at every moment of a run. -/
theorem conserved_run (batch : Bool) (s : State) (es : List Event) (c : Cell) :
    (run (step batch) s es).level c = plus (s.level c) (deltas batch s c es) := by
  induction es generalizing s with
  | nil => simp [deltas]
  | cons e es ih => rw [run_cons, ih, level_step, plus_plus, deltas]

/-! ### The same calls without batching -/

/-- The calls that begin in a run, in the order in which they do. The direct run makes the same
calls. -/
def callsOf (es : List Event) : List Call :=
  es.filterMap fun
    | .call k => some k
    | _ => none

/-- **No call is in progress**: whatever the calls had to insert or to write is handed over. -/
def State.Complete (s : State) : Prop := ∀ ops ∈ s.calls, ops = []

/-- **Nothing is in the maps**, nor in the hands of a `batchUpdate`. -/
def State.Unbatched (s : State) : Prop :=
  (∀ t, (s.stores t).entries = []) ∧ ∀ u ∈ s.updaters, u.todo = []

/-- **Nothing is left to write**: no call is in progress, no map has an entry, and no running
`batchUpdate` has entries in hand. -/
def State.Drained (s : State) : Prop := s.Complete ∧ s.Unbatched

/-- What the calls in progress have still to hand over. -/
def State.owed (s : State) (c : Cell) : Int := tally s.calls fun ops => opsEffect ops c

/-- What the calls of a list add to a cell. -/
def callsEffect (batch : Bool) (ks : List Call) (c : Cell) : Int :=
  tally ks fun k => k.effect batch c

theorem callsEffect_batch (ks : List Call) (c : Cell) :
    callsEffect true ks c = callsEffect false ks c :=
  tally_congr fun k _ => k.effect_batch c

theorem advance_calls (s : State) (i pick : Nat) (u : Updater) :
    (s.advance i pick u).calls = s.calls := by
  unfold State.advance
  split <;> (try split) <;> (try split) <;> rfl

/-- What a call owes when it begins is what it adds, and it owes a delta no longer when
it has handed it over. -/
theorem owed_step (batch : Bool) (s : State) (e : Event) (c : Cell) :
    (step batch s e).owed c + delta s e c = s.owed c + callsEffect batch (callsOf [e]) c := by
  cases e with
  | call k =>
    have hk : callsEffect batch (callsOf [.call k]) c = programEffect (k.program batch) c :=
      add_zero _
    rw [hk]
    rcases h : k.program batch with _ | ops <;>
      simp [step, delta, h, State.owed, programEffect]
  | caller i =>
    have hnil : callsEffect batch (callsOf [.caller i]) c = 0 := rfl
    rw [hnil]
    rcases h : s.calls[i]? with _ | _ | ⟨op, ops⟩ <;> simp only [step, delta, h]
    simp only [State.owed, tally_set h, opsEffect, tally_cons]
    omega
  | batchUpdate => rfl
  | updater i pick =>
    have hnil : callsEffect batch (callsOf [.updater i pick]) c = 0 := rfl
    rw [hnil]
    rcases h : s.updaters[i]? with _ | u <;>
      simp only [step, delta, h, State.owed, advance_calls]

theorem callsOf_cons (e : Event) (es : List Event) :
    callsOf (e :: es) = callsOf [e] ++ callsOf es := by
  cases e <;> rfl

theorem owed_run (batch : Bool) (s : State) (es : List Event) (c : Cell) :
    (run (step batch) s es).owed c + deltas batch s c es =
      s.owed c + callsEffect batch (callsOf es) c := by
  induction es generalizing s with
  | nil => simp [deltas, callsOf, callsEffect]
  | cons e es ih =>
    have hstep := owed_step batch s e c
    have hrest := ih (step batch s e)
    simp only [callsEffect] at hstep hrest ⊢
    rw [run_cons, callsOf_cons, tally_append, deltas]
    omega

theorem owed_of_complete (h : s.Complete) (c : Cell) : s.owed c = 0 :=
  tally_eq_zero fun ops hops => by rw [h ops hops]; rfl

theorem taken_of_todo (h : u.todo = []) (c : Cell) : u.taken c = 0 := by
  cases u with
  | writing t todo rest =>
    obtain rfl : todo = [] := h
    rfl
  | checking rest => rfl
  | swapping rest => rfl
  | finished => rfl

theorem level_of_unbatched (h : s.Unbatched) (c : Cell) :
    s.level c = s.db.value c := by
  have hstores : s.inStores c = 0 := tally_eq_zero fun t _ => by rw [h.1 t]; rfl
  have htaken : s.taken c = 0 := tally_eq_zero fun u hu => taken_of_todo (h.2 u hu) c
  rw [State.level, hstores, htaken, add_zero, plus_zero]

/-- **The database at the end of a run**, when every call has done what it had to and
nothing is left in the maps or in hand. -/
theorem value_of_unbatched {batch : Bool} {db : Database} {es : List Event}
    (hc : (run (step batch) (State.init db) es).Complete)
    (hu : (run (step batch) (State.init db) es).Unbatched) (c : Cell) :
    (run (step batch) (State.init db) es).db.value c =
      plus (db.value c) (callsEffect batch (callsOf es) c) := by
  have hlevel := conserved_run batch (State.init db) es c
  have howed := owed_run batch (State.init db) es c
  have hinit : (State.init db).Unbatched := ⟨fun _ => rfl, nofun⟩
  have hinit' : (State.init db).owed c = 0 := rfl
  rw [owed_of_complete hc, hinit', zero_add, zero_add] at howed
  rw [level_of_unbatched hu, level_of_unbatched hinit, howed] at hlevel
  exact hlevel

/-- Without batching a call does nothing but its statements. -/
theorem Call.program_false {k : Call} {ops : List Op} (h : k.program false = .ok ops) :
    ∀ op ∈ ops, ∃ st, op = .exec st := by
  have hguard : ∀ {quota : Int} {st : Stmt}, refuseNegative quota [.exec st] = .ok ops →
      ∀ op ∈ ops, ∃ st, op = .exec st := by
    intro quota st h
    unfold refuseNegative at h
    split at h
    · cases h
    · obtain rfl := Except.ok.inj h
      exact fun op hop => ⟨st, List.mem_singleton.mp hop⟩
  cases k with
  | increaseUserQuota id quota db => cases db <;> exact hguard h
  | decreaseUserQuota id quota db => cases db <;> exact hguard h
  | increaseTokenQuota tokenId quota => exact hguard h
  | decreaseTokenQuota id quota => exact hguard h
  | updateUserUsedQuotaAndRequestCount id quota =>
    obtain rfl := Except.ok.inj h
    exact fun op hop => ⟨_, List.mem_singleton.mp hop⟩
  | updateChannelUsedQuota id quota =>
    obtain rfl := Except.ok.inj h
    exact fun op hop => ⟨_, List.mem_singleton.mp hop⟩

/-- With batch update off: nothing in the maps or in hand, and no call about to change
that. -/
def State.Direct (s : State) : Prop :=
  s.Unbatched ∧ ∀ ops ∈ s.calls, ∀ op ∈ ops, ∃ st, op = Op.exec st

theorem unbatched_setUpdater (h : s.Unbatched) (i : Nat)
    (hu : u.todo = []) : (s.setUpdater i u).Unbatched := by
  refine ⟨h.1, fun v hv => ?_⟩
  rcases List.mem_or_eq_of_mem_set hv with hv | rfl
  · exact h.2 v hv
  · exact hu

theorem unbatched_advance (h : s.Unbatched) {i : Nat}
    (hu : s.updaters[i]? = some u) (pick : Nat) : (s.advance i pick u).Unbatched := by
  have htodo := h.2 u (List.mem_of_getElem? hu)
  cases u with
  | checking rest =>
    cases rest with
    | nil => exact unbatched_setUpdater h i rfl
    | cons t rest =>
      simp only [State.advance]
      split
      · exact unbatched_setUpdater h i rfl
      · exact unbatched_setUpdater h i rfl
  | swapping rest =>
    cases rest with
    | nil => exact unbatched_setUpdater h i rfl
    | cons t rest =>
      -- an empty map is taken, and an empty one put in its place
      have hset := unbatched_setUpdater (u := .writing t (s.stores t).entries rest) h i (h.1 t)
      refine ⟨fun t' => ?_, hset.2⟩
      by_cases ht : t' = t
      · subst ht
        simp [State.advance, Store.empty]
      · simpa [State.advance, ht] using h.1 t'
  | writing t todo rest =>
    obtain rfl : todo = [] := htodo
    exact unbatched_setUpdater h i rfl
  | finished => exact h

theorem direct_step (h : s.Direct) (e : Event) : (step false s e).Direct := by
  obtain ⟨hu, hops⟩ := h
  cases e with
  | call k =>
    rcases hk : k.program false with _ | ops <;> simp only [step, hk]
    · exact ⟨hu, hops⟩
    · refine ⟨hu, fun ops' hmem => ?_⟩
      rcases List.mem_append.mp hmem with hmem | hmem
      · exact hops ops' hmem
      · obtain rfl : ops' = ops := List.mem_singleton.mp hmem
        exact Call.program_false hk
  | caller i =>
    rcases hi : s.calls[i]? with _ | _ | ⟨op, ops⟩ <;> simp only [step, hi]
    · exact ⟨hu, hops⟩
    · exact ⟨hu, hops⟩
    · have hcall := hops _ (List.mem_of_getElem? hi)
      obtain ⟨st, rfl⟩ := hcall op List.mem_cons_self
      refine ⟨hu, fun ops' hmem => ?_⟩
      rcases List.mem_or_eq_of_mem_set hmem with hmem | rfl
      · exact hops ops' hmem
      · exact fun op hop => hcall op (List.mem_cons_of_mem _ hop)
  | batchUpdate =>
    refine ⟨⟨hu.1, fun u hmem => ?_⟩, hops⟩
    rcases List.mem_append.mp hmem with hmem | hmem
    · exact hu.2 u hmem
    · obtain rfl := List.mem_singleton.mp hmem
      rfl
  | updater i pick =>
    rcases hi : s.updaters[i]? with _ | u <;> simp only [step, hi]
    · exact ⟨hu, hops⟩
    · refine ⟨unbatched_advance hu hi pick, ?_⟩
      rw [advance_calls]
      exact hops

theorem direct_run (db : Database) (es : List Event) :
    (run (step false) (State.init db) es).Direct := by
  have hinit : (State.init db).Direct := ⟨⟨fun _ => rfl, nofun⟩, nofun⟩
  exact inv_run_always (I := State.Direct) (fun s e h => direct_step h e) hinit es

/-- **Batched updates refine direct updates.** At every moment of every interleaving, each
cell that has a row has in the database, in the maps and in the hands of the running
`batchUpdate` calls what it had at the start and what was added since; and once nothing is
left to write, the database is the one which the same calls, made in any order and
interleaved in any way, leave without batching. -/
theorem batch_refines_direct (db : Database) (es : List Event) :
    (∀ c, plus ((run (step true) (State.init db) es).db.value c)
        ((run (step true) (State.init db) es).inStores c +
          (run (step true) (State.init db) es).taken c) =
      plus (db.value c) (deltas true (State.init db) c es)) ∧
    ((run (step true) (State.init db) es).Drained →
      ∀ es' : List Event, (callsOf es').Perm (callsOf es) →
        (run (step false) (State.init db) es').Complete →
        (run (step true) (State.init db) es).db = (run (step false) (State.init db) es').db) := by
  constructor
  · intro c
    have h := conserved_run true (State.init db) es c
    have hinit : (State.init db).Unbatched := ⟨fun _ => rfl, nofun⟩
    rwa [level_of_unbatched hinit] at h
  · intro hdrained es' hperm hcomplete
    refine Database.ext_value fun c => ?_
    rw [value_of_unbatched hdrained.1 hdrained.2, callsEffect_batch,
      value_of_unbatched hcomplete (direct_run db es').1]
    exact congrArg (plus (db.value c)) (tally_perm hperm.symm _)

/-- A user with one token. -/
def oneToken : Database :=
  { user := fun id => if id = 1 then some ⟨100, 0, 0⟩ else none
    token := fun id => if id = 1 then some ⟨50, 0⟩ else none
    channel := fun _ => none }

/-- Two decreases of a token's quota around the start of a `batchUpdate`, which takes the
first and finds the second, with the two records of another call, on its next run. -/
def swapBetween : List Event :=
  [.call (.decreaseTokenQuota 1 5), .caller 0, .batchUpdate,
    -- the first map is empty, the second is not; then the first two are taken
    .updater 0 0, .updater 0 0, .updater 0 0, .updater 0 0, .updater 0 0,
    .call (.decreaseTokenQuota 1 7), .caller 1, .updater 0 0,
    .call (.updateUserUsedQuotaAndRequestCount 1 12), .caller 2, .caller 2, .batchUpdate,
    .updater 1 0, .updater 1 0, .updater 1 0, .updater 1 0, .updater 1 0, .updater 1 0,
    .updater 1 0, .updater 1 0, .updater 1 0, .updater 1 0, .updater 1 0, .updater 1 0,
    .updater 1 0, .updater 1 0, .updater 1 0, .updater 1 0]

/-- The same calls the other way round, without batching. -/
def otherOrder : List Event :=
  [.call (.updateUserUsedQuotaAndRequestCount 1 12), .call (.decreaseTokenQuota 1 7),
    .call (.decreaseTokenQuota 1 5), .caller 2, .caller 0, .caller 1]

theorem batch_refines_direct_swapBetween :
    (run (step true) (State.init oneToken) swapBetween).Drained ∧
      (run (step true) (State.init oneToken) swapBetween).db =
        (run (step false) (State.init oneToken) otherOrder).db := by
  have hd : (run (step true) (State.init oneToken) swapBetween).Drained :=
    ⟨by unfold State.Complete; decide, fun t => by cases t <;> rfl, by decide⟩
  exact ⟨hd, (batch_refines_direct oneToken swapBetween).2 hd otherOrder (by decide)
    (by unfold State.Complete; decide)⟩

end NewApiPool.Batch
