import Mathlib.Algebra.BigOperators.Group.List.Basic
import Mathlib.Algebra.Group.Prod
import Mathlib.Tactic.Abel
import NewApiPool.Lib.GoText
import NewApiPool.Lib.Keyed
import NewApiPool.Lib.Runs

/-!
# The usage of each hour

For the charts of the dashboard, the requests are counted by user, model and hour. `LogQuotaData`
adds a request to a row of a map in memory, and from time to time `SaveQuotaDataCache` writes the
rows of the map to the database, to the row that is there or as a new one, and empties the map. It
looks at no error: a row whose statement fails is lost.

What is counted of a user in an hour is neither lost nor counted twice, as long as the database can
be read (`NewApiPool.UsageData.recorded_run`). The key of the map runs name and model together,
however, and so what is counted of a name and a model is only right where no request meets the row
of another pair under its key (`NewApiPool.UsageData.exact_iff`).
-/

namespace NewApiPool.UsageData

open EventSystem

/-! ### The rows -/

/-- What a row counts: the requests of one user, under one name, for one model, in one hour. -/
structure Subject where
  userId : ℕ
  username : String
  modelName : String
  createdAt : ℕ
deriving DecidableEq, Repr

/-- A row of `quota_data`, and of the map. -/
structure QuotaData extends Subject where
  tokenUsed : ℤ
  count : ℤ
  quota : ℤ
deriving DecidableEq, Repr

/-- The key of the map, with dashes between the four parts, whatever dashes are in them. -/
def Subject.key (s : Subject) : String :=
  toString s.userId ++ "-" ++ s.username ++ "-" ++ s.modelName ++ "-" ++ toString s.createdAt

def QuotaData.amounts (r : QuotaData) : ℤ × ℤ × ℤ := (r.count, r.quota, r.tokenUsed)

/-- Counts a request, or the requests of another row. -/
def QuotaData.add (r : QuotaData) (count quota tokenUsed : ℤ) : QuotaData :=
  { r with count := r.count + count, quota := r.quota + quota,
           tokenUsed := r.tokenUsed + tokenUsed }

/-- What some rows have counted. -/
def total (p : Subject → Bool) (rows : List QuotaData) : ℤ × ℤ × ℤ :=
  ((rows.filter fun r => p r.toSubject).map QuotaData.amounts).sum

/-- The entries of the map. -/
abbrev Cache : Type := List (String × QuotaData)

def logQuotaDataCache (cache : Cache) (subject : Subject) (quota tokenUsed : ℤ) : Cache :=
  Keyed.alter subject.key ⟨subject, 0, 0, 0⟩ (QuotaData.add · 1 quota tokenUsed) cache

/-- A call of `LogQuotaData`. -/
structure Logged where
  userId : ℕ
  username : String
  modelName : String
  quota : ℤ
  createdAt : ℕ
  tokenUsed : ℤ
deriving DecidableEq, Repr

/-- What it counts, by the hour. -/
def Logged.subject (l : Logged) : Subject where
  userId := l.userId
  username := l.username
  modelName := l.modelName
  createdAt := l.createdAt - l.createdAt % 3600

/-- The row that has nothing but this request. -/
def Logged.row (l : Logged) : QuotaData := ⟨l.subject, l.tokenUsed, 1, l.quota⟩

def logQuotaData (cache : Cache) (l : Logged) : Cache :=
  logQuotaDataCache cache l.subject l.quota l.tokenUsed

/-- Whose row counts the request: the one of the row under its key, if there is one. -/
def slot (cache : Cache) (l : Logged) : Subject :=
  (cache.find? fun e => decide (e.1 = l.subject.key)).elim l.subject fun e => e.2.toSubject

/-- A row that is written, and which of its two statements fail. -/
structure Write where
  data : QuotaData
  lookupFails : Bool
  writeFails : Bool
deriving DecidableEq, Repr

/-- The statement updates every row that it fits. -/
def increaseQuotaData (rows : List QuotaData) (d : QuotaData) : List QuotaData :=
  rows.map fun r =>
    if r.toSubject = d.toSubject then r.add d.count d.quota d.tokenUsed else r

/-- A round of the loop of `SaveQuotaDataCache`. A row that cannot be looked up is taken for one
that is not there. -/
def saveRow (rows : List QuotaData) (w : Write) : List QuotaData :=
  if w.writeFails then rows
  else if w.lookupFails = false ∧ w.data.toSubject ∈ rows.map QuotaData.toSubject then
    increaseQuotaData rows w.data
  else rows ++ [w.data]

/-- The map, the table, and what has been logged and lost. -/
structure State where
  cache : Cache
  rows : List QuotaData
  logged : List QuotaData
  lost : List QuotaData
deriving DecidableEq, Repr

def State.init : State := ⟨[], [], [], []⟩

inductive Event where
  | log (l : Logged)
  | save (writes : List Write)
deriving DecidableEq, Repr

/-- What was not written. -/
def lostOf (writes : List Write) : List QuotaData :=
  (writes.filter Write.writeFails).map Write.data

def step (s : State) : Event → State
  | .log l => { s with cache := logQuotaData s.cache l, logged := l.row :: s.logged }
  | .save writes => ⟨[], writes.foldl saveRow s.rows, s.logged, lostOf writes ++ s.lost⟩

/-- The loop goes over the map in some order, and the table can be read. -/
def Allowed (s : State) : Event → Prop
  | .log _ => True
  | .save writes => (writes.map Write.data).Perm (s.cache.map Prod.snd) ∧
      ∀ w ∈ writes, w.lookupFails = false

instance decidableAllowed (s : State) : ∀ e : Event, Decidable (Allowed s e)
  | .log _ => inferInstanceAs (Decidable True)
  | .save _ => instDecidableAnd

/-- A request is counted in a row of its own user, name, model and hour. -/
def NoCollision (s : State) : Event → Prop
  | .log l => slot s.cache l = l.subject
  | .save _ => True

instance decidableNoCollision (s : State) : ∀ e : Event, Decidable (NoCollision s e)
  | .log _ => inferInstanceAs (Decidable (_ = _))
  | .save _ => inferInstanceAs (Decidable True)

/-- **What was logged is in the map, in the table or lost**, of the rows that `p` is about. -/
def Conserved (p : Subject → Bool) (s : State) : Prop :=
  total p (s.cache.map Prod.snd) + total p s.rows + total p s.lost = total p s.logged

/-- Every row is right: for each user, name, model and hour, what was logged is what the map, the
table and the rows that could not be written have. -/
def Exact (s : State) : Prop := ∀ subject, Conserved (fun t => decide (t = subject)) s

/-! ### The key -/

variable {s : State} {e : Event} {p : Subject → Bool} {rows : List QuotaData} {cache : Cache}
  {d : QuotaData} {l : Logged} {subject subject' : Subject}

theorem dash_not_mem_repr (n : ℕ) : '-' ∉ n.repr.toList := fun h =>
  absurd (GoText.isDigit_of_mem_repr h) (by decide)

theorem repr_injective {n m : ℕ} (h : n.repr = m.repr) : n = m := by
  have hdigits : Nat.toDigits 10 n = Nat.toDigits 10 m := by
    rw [← Nat.toList_repr, ← Nat.toList_repr, h]
  rw [← Nat.ofDigitChars_ten_toDigits (n := n), hdigits, Nat.ofDigitChars_ten_toDigits]

theorem append_dash_inj {a a' b b' : List Char} (ha : '-' ∉ a) (ha' : '-' ∉ a')
    (h : a ++ '-' :: b = a' ++ '-' :: b') : a = a' ∧ b = b' := by
  induction a generalizing a' with
  | nil =>
    cases a' with
    | nil => exact ⟨rfl, (List.cons_eq_cons.mp h).2⟩
    | cons c a' => exact absurd ((List.cons_eq_cons.mp h).1 ▸ List.mem_cons_self) ha'
  | cons c a ih =>
    cases a' with
    | nil => exact absurd ((List.cons_eq_cons.mp h).1 ▸ List.mem_cons_self) ha
    | cons c' a' =>
      obtain ⟨rfl, hrest⟩ := List.cons_eq_cons.mp h
      obtain ⟨rfl, hb⟩ := ih (fun hmem => ha (List.mem_cons_of_mem _ hmem))
        (fun hmem => ha' (List.mem_cons_of_mem _ hmem)) hrest
      exact ⟨rfl, hb⟩

/-- **The key has the user and the hour**, but runs name and model together. -/
theorem key_inj (h : subject.key = subject'.key) :
    subject.userId = subject'.userId ∧ subject.createdAt = subject'.createdAt ∧
      subject.username.toList ++ '-' :: subject.modelName.toList =
        subject'.username.toList ++ '-' :: subject'.modelName.toList := by
  have hlist (t : Subject) : t.key.toList = t.userId.repr.toList ++ '-' ::
      ((t.username.toList ++ '-' :: t.modelName.toList) ++ '-' :: t.createdAt.repr.toList) := by
    rw [Subject.key]
    simp [String.toList_append]
  have hback (t : Subject) :
      ((t.username.toList ++ '-' :: t.modelName.toList) ++ '-' :: t.createdAt.repr.toList).reverse =
        t.createdAt.repr.toList.reverse ++
          '-' :: (t.username.toList ++ '-' :: t.modelName.toList).reverse := by
    rw [List.reverse_append, List.reverse_cons, List.append_assoc, List.singleton_append]
  have htext := congrArg String.toList h
  rw [hlist, hlist] at htext
  obtain ⟨huser, hrest⟩ := append_dash_inj (dash_not_mem_repr _) (dash_not_mem_repr _) htext
  replace hrest := congrArg List.reverse hrest
  rw [hback, hback] at hrest
  obtain ⟨hcreated, hnames⟩ := append_dash_inj
    (fun hmem => dash_not_mem_repr _ (List.mem_reverse.mp hmem))
    (fun hmem => dash_not_mem_repr _ (List.mem_reverse.mp hmem)) hrest
  exact ⟨repr_injective (String.toList_inj.mp huser),
    repr_injective (String.toList_inj.mp (List.reverse_inj.mp hcreated)),
    List.reverse_inj.mp hnames⟩

/-! ### A request is logged -/

theorem total_nil (p : Subject → Bool) : total p [] = 0 := rfl

theorem total_cons (p : Subject → Bool) (d : QuotaData) (rows : List QuotaData) :
    total p (d :: rows) = (if p d.toSubject then d.amounts else 0) + total p rows := by
  rw [total, List.filter_cons]
  split
  · rw [List.map_cons, List.sum_cons]
    rfl
  · exact (zero_add _).symm

theorem total_cons_add (p : Subject → Bool) (r : QuotaData) (rows : List QuotaData)
    (count quota tokenUsed : ℤ) : total p (r.add count quota tokenUsed :: rows) =
      total p (r :: rows) + if p r.toSubject then (count, quota, tokenUsed) else 0 := by
  rw [total_cons, total_cons, add_right_comm]
  refine congrArg (· + total p rows) ?_
  by_cases hp : p r.toSubject = true
  · have hadd : p (r.add count quota tokenUsed).toSubject = true := hp
    rw [if_pos hp, if_pos hp, if_pos hadd]
    rfl
  · have hadd : ¬p (r.add count quota tokenUsed).toSubject = true := hp
    rw [if_neg hp, if_neg hp, if_neg hadd, add_zero]

theorem total_append (p : Subject → Bool) (rows rows' : List QuotaData) :
    total p (rows ++ rows') = total p rows + total p rows' := by
  rw [total, List.filter_append, List.map_append, List.sum_append]
  rfl

theorem total_perm {rows' : List QuotaData} (h : rows.Perm rows') (p : Subject → Bool) :
    total p rows = total p rows' :=
  ((h.filter _).map _).sum_eq

theorem add_eq_row (l : Logged) :
    (⟨l.subject, 0, 0, 0⟩ : QuotaData).add 1 l.quota l.tokenUsed = l.row := by
  rw [QuotaData.add, Logged.row, zero_add, zero_add, zero_add]

theorem total_row (p : Subject → Bool) (l : Logged) :
    total p [l.row] = if p l.subject then (1, l.quota, l.tokenUsed) else 0 := by
  rw [total_cons, total_nil, add_zero]
  rfl

/-- **A request is counted once**, in the row it meets under its key or in a new one. -/
theorem total_logQuotaData (p : Subject → Bool) (cache : Cache) (l : Logged) :
    total p ((logQuotaData cache l).map Prod.snd) = total p (cache.map Prod.snd) +
      if p (slot cache l) then (1, l.quota, l.tokenUsed) else 0 := by
  rw [logQuotaData, logQuotaDataCache, slot]
  induction cache with
  | nil =>
    rw [Keyed.alter, add_eq_row, List.map_nil, total_nil, zero_add]
    exact total_row p l
  | cons e cache ih =>
    by_cases he : e.1 = l.subject.key
    · have hfind : (e :: cache).find? (fun e => decide (e.1 = l.subject.key)) = some e :=
        List.find?_cons_of_pos (decide_eq_true he)
      rw [Keyed.alter, if_pos he, hfind, List.map_cons, List.map_cons, total_cons_add]
      rfl
    · have hfind : (e :: cache).find? (fun e => decide (e.1 = l.subject.key)) =
          cache.find? fun e => decide (e.1 = l.subject.key) :=
        List.find?_cons_of_neg (by rwa [decide_eq_true_eq])
      rw [Keyed.alter, if_neg he, hfind, List.map_cons, List.map_cons, total_cons,
        total_cons p e.2, ih, add_assoc]

/-- The map has one row for a key, under its own key. -/
structure Keys (cache : Cache) : Prop where
  nodup : (cache.map Prod.fst).Nodup
  key : ∀ e ∈ cache, e.1 = e.2.toSubject.key

theorem Keys.logQuotaData (h : Keys cache) (l : Logged) : Keys (logQuotaData cache l) where
  nodup := Keyed.nodup_alter h.nodup
  key e he := by
    rcases Keyed.mem_alter h.nodup he with ⟨he, -⟩ | ⟨r, hr, rfl⟩ | ⟨-, rfl⟩
    · exact h.key e he
    · have hkey := h.key _ hr
      exact hkey
    · rfl

/-! ### The map is saved -/

theorem subjects_increaseQuotaData (rows : List QuotaData) (d : QuotaData) :
    (increaseQuotaData rows d).map QuotaData.toSubject = rows.map QuotaData.toSubject := by
  rw [increaseQuotaData, List.map_map]
  refine List.map_congr_left fun r _ => ?_
  rw [Function.comp_apply]
  split <;> rfl

theorem increaseQuotaData_of_not_mem (h : d.toSubject ∉ rows.map QuotaData.toSubject) :
    increaseQuotaData rows d = rows := by
  have hkeep : rows.map (fun r => if r.toSubject = d.toSubject then
      r.add d.count d.quota d.tokenUsed else r) = rows.map id :=
    List.map_congr_left fun r hr => if_neg fun heq : r.toSubject = d.toSubject =>
      h (heq ▸ List.mem_map_of_mem hr)
  exact hkeep.trans (List.map_id rows)

theorem total_increaseQuotaData (hnodup : (rows.map QuotaData.toSubject).Nodup)
    (hmem : d.toSubject ∈ rows.map QuotaData.toSubject) :
    total p (increaseQuotaData rows d) = total p rows + total p [d] := by
  induction rows with
  | nil => cases hmem
  | cons r rows ih =>
    rw [List.map_cons, List.nodup_cons] at hnodup
    rw [increaseQuotaData, List.map_cons]
    by_cases hsame : r.toSubject = d.toSubject
    · have hkeep := increaseQuotaData_of_not_mem (hsame ▸ hnodup.1)
      rw [if_pos hsame, ← increaseQuotaData, hkeep, total_cons_add, total_cons p d, total_nil,
        add_zero, hsame]
      rfl
    · have hrest := (List.mem_cons.mp hmem).resolve_left (Ne.symm hsame)
      rw [if_neg hsame, ← increaseQuotaData, total_cons, total_cons p r, ih hnodup.2 hrest,
        add_assoc]

/-- **A row is written once**, or it is lost. -/
theorem total_saveRow {w : Write} (hnodup : (rows.map QuotaData.toSubject).Nodup) :
    total p (saveRow rows w) + total p (lostOf [w]) = total p rows + total p [w.data] := by
  unfold saveRow
  by_cases hfail : w.writeFails = true
  · rw [if_pos hfail, lostOf, List.filter_cons_of_pos hfail]
    rfl
  · rw [if_neg hfail, lostOf, List.filter_cons_of_neg hfail, List.filter_nil, List.map_nil,
      total_nil, add_zero]
    split
    · next hmem => exact total_increaseQuotaData hnodup hmem.2
    · exact total_append p rows [w.data]

theorem nodup_saveRow {w : Write} (hnodup : (rows.map QuotaData.toSubject).Nodup)
    (hread : w.lookupFails = false) :
    ((saveRow rows w).map QuotaData.toSubject).Nodup := by
  unfold saveRow
  split
  · exact hnodup
  split
  · rwa [subjects_increaseQuotaData]
  · next hnew =>
    rw [List.map_append, List.nodup_append]
    refine ⟨hnodup, List.nodup_singleton _, fun a ha b hb heq => hnew ⟨hread, ?_⟩⟩
    rwa [← List.mem_singleton.mp hb, ← heq]

theorem total_save {writes : List Write} (hnodup : (rows.map QuotaData.toSubject).Nodup)
    (hread : ∀ w ∈ writes, w.lookupFails = false) :
    ((writes.foldl saveRow rows).map QuotaData.toSubject).Nodup ∧
      total p (writes.foldl saveRow rows) + total p (lostOf writes) =
        total p rows + total p (writes.map Write.data) := by
  induction writes generalizing rows with
  | nil => exact ⟨hnodup, rfl⟩
  | cons w writes ih =>
    obtain ⟨hw, hwrites⟩ := List.forall_mem_cons.mp hread
    obtain ⟨hrows, hrest⟩ := ih (nodup_saveRow hnodup hw) hwrites
    have hone := total_saveRow (p := p) (w := w) hnodup
    have hdata : total p ((w :: writes).map Write.data) =
        total p [w.data] + total p (writes.map Write.data) :=
      total_append p [w.data] (writes.map Write.data)
    have hlost : lostOf (w :: writes) = lostOf [w] ++ lostOf writes := by
      rw [lostOf, ← List.singleton_append, List.filter_append, List.map_append]
      rfl
    refine ⟨hrows, ?_⟩
    rw [List.foldl_cons, hlost, total_append, hdata, ← add_assoc (total p rows), ← hone,
      add_left_comm, hrest]
    abel

/-! ### All runs -/

/-- What is kept: the table has one row for a subject, and the map one for a key. -/
structure Kept (s : State) : Prop where
  keys : Keys s.cache
  nodup : (s.rows.map QuotaData.toSubject).Nodup

theorem kept_init : Kept .init := ⟨⟨List.Pairwise.nil, fun _ h => absurd h List.not_mem_nil⟩,
  List.Pairwise.nil⟩

theorem Kept.step (h : Kept s) (hallowed : Allowed s e) : Kept (step s e) := by
  cases e with
  | log l => exact ⟨h.keys.logQuotaData l, h.nodup⟩
  | save writes => exact ⟨kept_init.keys, (total_save (p := fun _ => true) h.nodup hallowed.2).1⟩

/-- **To log a request keeps what is conserved** exactly if the row that counts it is in the same
part of the table as its own row. -/
theorem conserved_log_iff (hs : Conserved p s) (l : Logged) :
    Conserved p (step s (.log l)) ↔ p (slot s.cache l) = p l.subject := by
  have hlogged : total p (l.row :: s.logged) = total p [l.row] + total p s.logged :=
    total_append p [l.row] s.logged
  have hmoved : Conserved p (step s (.log l)) ↔
      (if p (slot s.cache l) then ((1, l.quota, l.tokenUsed) : ℤ × ℤ × ℤ) else 0) =
        if p l.subject then (1, l.quota, l.tokenUsed) else 0 := by
    rw [Conserved] at hs
    rw [Conserved, step]
    dsimp only
    rw [total_logQuotaData p s.cache l, hlogged, ← hs, total_row,
      add_right_comm _ _ (total p s.rows), add_right_comm _ _ (total p s.lost),
      add_comm _ (_ + total p s.lost), add_right_inj]
  have hcount : ((1, l.quota, l.tokenUsed) : ℤ × ℤ × ℤ) ≠ 0 := fun hzero =>
    one_ne_zero (congrArg Prod.fst hzero)
  rw [hmoved]
  cases p (slot s.cache l) <;> cases p l.subject <;> simp [hcount, hcount.symm]

theorem Conserved.save {writes : List Write} (hs : Conserved p s) (h : Kept s)
    (hallowed : Allowed s (.save writes)) : Conserved p (step s (.save writes)) := by
  have hsave := (total_save (p := p) h.nodup hallowed.2).2
  rw [total_perm hallowed.1] at hsave
  rw [Conserved] at hs
  rw [Conserved, step]
  dsimp only
  rw [List.map_nil, total_nil, zero_add, total_append, ← add_assoc, hsave, ← hs,
    add_comm (total p s.rows)]

theorem slot_key (h : Keys s.cache) (l : Logged) : (slot s.cache l).key = l.subject.key := by
  rw [slot]
  cases hfind : s.cache.find? fun e => decide (e.1 = l.subject.key) with
  | none => rfl
  | some e =>
    have hkey : decide (e.1 = l.subject.key) = true :=
      List.find?_some (p := fun e : String × QuotaData => decide (e.1 = l.subject.key)) hfind
    exact (h.key e (List.mem_of_find?_eq_some hfind)).symm.trans (of_decide_eq_true hkey)

/-- **Nothing of a user's hour is lost or counted twice**, whatever the names and the order in which
the map is saved, and with statements that fail to write: it is in the map, in the table or in the
rows that could not be written, and the table has one row for a user, name, model and hour. -/
theorem recorded_run {es : List Event} (hes : Along step Allowed .init es) :
    (∀ userId hour, Conserved (fun t => decide (t.userId = userId ∧ t.createdAt = hour))
      (run step .init es)) ∧
    ((run step .init es).rows.map QuotaData.toSubject).Nodup := by
  have hrun := inv_run (I := fun s => Kept s ∧ ∀ userId hour,
      Conserved (fun t => decide (t.userId = userId ∧ t.createdAt = hour)) s)
    (C := Allowed) (fun s e hs hallowed => ⟨hs.1.step hallowed, fun userId hour => ?_⟩)
    ⟨kept_init, fun _ _ => rfl⟩ hes
  · exact ⟨hrun.2, hrun.1.nodup⟩
  · cases e with
    | save writes => exact (hs.2 userId hour).save hs.1 hallowed
    | log l =>
      obtain ⟨huser, hhour, -⟩ := key_inj (slot_key hs.1.keys l)
      rw [conserved_log_iff (hs.2 userId hour), huser, hhour]

/-- A request that is counted in its own row leaves the rows right, and no other does. -/
theorem exact_step_iff (hs : Exact s) (h : Kept s) (hallowed : Allowed s e) :
    Exact (step s e) ↔ NoCollision s e := by
  cases e with
  | save writes => exact iff_of_true (fun subject => (hs subject).save h hallowed) trivial
  | log l =>
    constructor
    · intro hexact
      have hown := (conserved_log_iff (hs l.subject) l).mp (hexact l.subject)
      rw [decide_eq_decide, iff_true_right rfl] at hown
      exact hown
    · intro hslot subject
      rw [conserved_log_iff (hs subject), show slot s.cache l = l.subject from hslot]

theorem exact_init : Exact .init := fun _ => rfl

variable {es : List Event}

theorem exact_take_iff (hs : Exact s) (h : Kept s) (hes : Along step Allowed s es) :
    (∀ n, Exact (run step s (es.take n))) ↔ Along step NoCollision s es := by
  induction es generalizing s with
  | nil => exact iff_of_true (fun n => by simpa using hs) trivial
  | cons e es ih =>
    have hone := exact_step_iff hs h hes.1
    constructor
    · intro hall
      have hnext : Exact (step s e) := by simpa using hall 1
      exact ⟨hone.mp hnext, (ih hnext (h.step hes.1) hes.2).mp fun n => by
        simpa using hall (n + 1)⟩
    · rintro ⟨hfirst, hrest⟩ n
      have hnext := hone.mpr hfirst
      cases n with
      | zero => exact hs
      | succ n => exact (ih hnext (h.step hes.1) hes.2).mpr hrest n

/-- **The rows are right at every time** exactly if no request meets the row of another name and
model under its key. -/
theorem exact_iff {es : List Event} (hes : Along step Allowed .init es) :
    (∀ n, Exact (run step .init (es.take n))) ↔ Along step NoCollision .init es :=
  exact_take_iff exact_init kept_init hes

section Sample

/-- A user with a request for `b`, saved, and two requests in the next map: the second one comes
after the user was renamed. -/
def renamed : List Event :=
  [.log ⟨1, "a", "b", 5, 7300, 10⟩,
    .save [⟨⟨⟨1, "a", "b", 7200⟩, 10, 1, 5⟩, false, false⟩],
    .log ⟨1, "a", "b-c", 7, 7400, 20⟩, .log ⟨1, "a-b", "c", 9, 7500, 30⟩]

theorem along_renamed : Along step Allowed .init renamed :=
  ⟨trivial, ⟨by decide +kernel, by decide⟩, trivial, trivial, trivial⟩

theorem conserved_renamed :
    (∀ userId hour, Conserved (fun t => decide (t.userId = userId ∧ t.createdAt = hour))
      (run step .init renamed)) ∧
    ((run step .init renamed).rows.map QuotaData.toSubject).Nodup :=
  recorded_run along_renamed

/-- The last request is counted for the old name and another model. -/
theorem exact_renamed :
    ((∀ n, Exact (run step .init (renamed.take n))) ↔ Along step NoCollision .init renamed) ∧
      ¬Along step NoCollision .init renamed :=
  ⟨exact_iff along_renamed, by decide +kernel⟩

end Sample

end NewApiPool.UsageData
