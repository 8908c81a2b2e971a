import Mathlib.Data.List.Lemmas
import NewApiPool.Lib.RefCount
import NewApiPool.Lib.Runs

/-!
# The order lock

`LockOrder` and `UnlockOrder` keep one mutex for each trade number that is being handled, in a map
from which the last user removes it. The map and the counts are changed under `createLock` alone,
but an entry is looked up without it when an order is unlocked, and its mutex is locked and
unlocked without it.

A goroutine is at a statement of one of the two functions (`Pc`), or outside of them; what it has
locked is known from its calls. One event is one statement of one goroutine, so a list of events is
an interleaving. The invariant `Inv` is that the count of an entry is the number of those who have
it (`RefCount.Counted`), and that what they have is still the entry of the map. An order that
nobody has locked is locked by whoever asks for it next (`exists_holds`).
-/

namespace NewApiPool.OrderLock

open RefCount

structure RefCountedMutex where
  /-- `mu` is locked. -/
  mu : Bool := false
  refCount : ℤ := 0

/-- The statement that is next. An entry is known by the address of its mutex. -/
inductive Pc
  | idle
  /-- `createLock.Lock()` in `LockOrder` -/
  | lockCreate (tradeNo : String)
  /-- `orderLocks.Load(key)` -/
  | load (tradeNo : String)
  /-- `orderLocks.Store(key, rcm)` -/
  | store (tradeNo : String)
  /-- `rcm.refCount++` -/
  | increment (tradeNo : String) (rcm : ℕ)
  /-- `createLock.Unlock()` -/
  | unlockCreate (tradeNo : String) (rcm : ℕ)
  /-- `rcm.mu.Lock()` -/
  | acquire (tradeNo : String) (rcm : ℕ)
  /-- `orderLocks.Load(key)` in `UnlockOrder` -/
  | find (tradeNo : String)
  /-- `rcm.mu.Unlock()` -/
  | release (tradeNo : String) (rcm : ℕ)
  /-- `createLock.Lock()` -/
  | relock (tradeNo : String) (rcm : ℕ)
  /-- `rcm.refCount--` -/
  | decrement (tradeNo : String) (rcm : ℕ)
  /-- `if rcm.refCount == 0` and `orderLocks.Delete(key)` -/
  | remove (tradeNo : String) (rcm : ℕ)
  /-- `createLock.Unlock()` -/
  | leave
deriving DecidableEq

structure State (G : Type) where
  /-- `createLock` is locked. -/
  createLock : Bool
  orderLocks : String → Option ℕ
  mutexes : ℕ → RefCountedMutex
  /-- The next address: a new mutex is one that no goroutine has in hand. -/
  next : ℕ
  pc : G → Pc
  /-- What a goroutine has locked and not unlocked, with the entry that it locked. -/
  held : G → List (String × ℕ)
  /-- A mutex was unlocked that was not locked. -/
  fatal : Bool

inductive Event (G : Type)
  /-- A goroutine calls `LockOrder`. -/
  | lockOrder (g : G) (tradeNo : String)
  /-- A goroutine calls `UnlockOrder`. -/
  | unlockOrder (g : G) (tradeNo : String)
  /-- A goroutine is at a statement, and does it unless it has to wait. -/
  | go (g : G)

def redisKeyPrefix : String := "new-api-pool"

def key (tradeNo : String) : String := redisKeyPrefix ++ ":" ++ tradeNo

section Step

variable {G : Type} [DecidableEq G]

def State.goto (s : State G) (g : G) (pc : Pc) : State G :=
  { s with pc := Function.update s.pc g pc }

def State.setMutex (s : State G) (a : ℕ) (m : RefCountedMutex) : State G :=
  { s with mutexes := Function.update s.mutexes a m }

def State.setHeld (s : State G) (g : G) (held : List (String × ℕ)) : State G :=
  { s with held := Function.update s.held g held }

/-- `orderLocks.Store(key, rcm)`, with a new mutex. -/
def State.storeEntry (s : State G) (g : G) (tradeNo : String) : State G :=
  { s with
    mutexes := Function.update s.mutexes s.next {}
    next := s.next + 1
    orderLocks := Function.update s.orderLocks (key tradeNo) (some s.next) }.goto g
      (.increment tradeNo s.next)

/-- `rcm.refCount += d` -/
def State.addRef (s : State G) (rcm : ℕ) (d : ℤ) : State G :=
  s.setMutex rcm { s.mutexes rcm with refCount := (s.mutexes rcm).refCount + d }

/-- `rcm.mu.Lock()`, where it is free. -/
def State.lockMutex (s : State G) (g : G) (tradeNo : String) (rcm : ℕ) : State G :=
  ((s.setMutex rcm { s.mutexes rcm with mu := true }).setHeld g
    ((tradeNo, rcm) :: s.held g)).goto g .idle

/-- `rcm.mu.Unlock()`, where it is locked. -/
def State.unlockMutex (s : State G) (g : G) (tradeNo : String) (rcm : ℕ) : State G :=
  ((s.setMutex rcm { s.mutexes rcm with mu := false }).setHeld g
    ((s.held g).filter (·.1 ≠ tradeNo))).goto g (.relock tradeNo rcm)

/-- `orderLocks.Delete(key)` -/
def State.deleteEntry (s : State G) (g : G) (tradeNo : String) : State G :=
  { s with orderLocks := Function.update s.orderLocks (key tradeNo) none }.goto g .leave

/-- One statement of a goroutine. -/
def go (s : State G) (g : G) : State G :=
  match s.pc g with
  | .idle => s
  | .lockCreate tradeNo =>
    if s.createLock then s else { s with createLock := true }.goto g (.load tradeNo)
  | .load tradeNo =>
    match s.orderLocks (key tradeNo) with
    | some rcm => s.goto g (.increment tradeNo rcm)
    | none => s.goto g (.store tradeNo)
  | .store tradeNo => s.storeEntry g tradeNo
  | .increment tradeNo rcm => (s.addRef rcm 1).goto g (.unlockCreate tradeNo rcm)
  | .unlockCreate tradeNo rcm =>
    if s.createLock then { s with createLock := false }.goto g (.acquire tradeNo rcm)
    else { s with fatal := true }
  | .acquire tradeNo rcm => if (s.mutexes rcm).mu then s else s.lockMutex g tradeNo rcm
  | .find tradeNo =>
    match s.orderLocks (key tradeNo) with
    | some rcm => s.goto g (.release tradeNo rcm)
    | none => s.goto g .idle
  | .release tradeNo rcm =>
    if (s.mutexes rcm).mu then s.unlockMutex g tradeNo rcm else { s with fatal := true }
  | .relock tradeNo rcm =>
    if s.createLock then s else { s with createLock := true }.goto g (.decrement tradeNo rcm)
  | .decrement tradeNo rcm => (s.addRef rcm (-1)).goto g (.remove tradeNo rcm)
  | .remove tradeNo rcm =>
    if (s.mutexes rcm).refCount = 0 then s.deleteEntry g tradeNo else s.goto g .leave
  | .leave =>
    if s.createLock then { s with createLock := false }.goto g .idle
    else { s with fatal := true }

/-- One event. A goroutine unlocks only what it has locked. -/
def step (s : State G) : Event G → State G
  | .lockOrder g tradeNo => if s.pc g = .idle then s.goto g (.lockCreate tradeNo) else s
  | .unlockOrder g tradeNo =>
    if s.pc g = .idle ∧ tradeNo ∈ (s.held g).map Prod.fst then s.goto g (.find tradeNo) else s
  | .go g => go s g

end Step

variable {G : Type}

def initial : State G where
  createLock := false
  orderLocks := fun _ => none
  mutexes := fun _ => {}
  next := 0
  pc := fun _ => .idle
  held := fun _ => []
  fatal := false

/-! ### What is to hold -/

/-- A goroutine has locked a trade number: `LockOrder` is done, and `UnlockOrder` has not unlocked
its mutex. -/
def Holds (s : State G) (g : G) (tradeNo : String) : Prop := tradeNo ∈ (s.held g).map Prod.fst

/-- A goroutine has got an entry and does not have its mutex yet. -/
def Waits (s : State G) (g : G) (rcm : ℕ) : Prop :=
  ∃ tradeNo, s.pc g = .increment tradeNo rcm ∨ s.pc g = .unlockCreate tradeNo rcm ∨
    s.pc g = .acquire tradeNo rcm

/-! ### The invariant -/

/-- The statements that are done under `createLock`. -/
def Pc.critical : Pc → Bool
  | .load _ | .store _ | .increment _ _ | .unlockCreate _ _ | .decrement _ _ | .remove _ _
  | .leave => true
  | _ => false

/-- The entry whose count has one for the call that a goroutine is in. -/
def Pc.counted : Pc → Option ℕ
  | .unlockCreate _ rcm | .acquire _ rcm | .relock _ rcm | .decrement _ rcm => some rcm
  | _ => none

/-- The references of a goroutine to an entry: one for the call it is in, and one for each trade
number that it has locked. -/
def refs (s : State G) (rcm : ℕ) (g : G) : ℕ :=
  (if (s.pc g).counted = some rcm then 1 else 0) + (s.held g).countP (·.2 = rcm)

/-- What a goroutine relies on at a statement: an entry that it has in hand is in the map. -/
def Placed (s : State G) (g : G) : Pc → Prop
  | .store tradeNo => s.orderLocks (key tradeNo) = none
  | .find tradeNo => Holds s g tradeNo
  | .release tradeNo rcm => Holds s g tradeNo ∧ s.orderLocks (key tradeNo) = some rcm
  | .increment tradeNo rcm | .unlockCreate tradeNo rcm | .acquire tradeNo rcm
  | .relock tradeNo rcm | .decrement tradeNo rcm | .remove tradeNo rcm =>
    s.orderLocks (key tradeNo) = some rcm
  | .idle | .lockCreate _ | .load _ | .leave => True

/-- What a goroutine relies on is in the map and in what it has locked. -/
theorem Placed.congr {s s' : State G} {g : G} {pc : Pc} (h : Placed s g pc)
    (horderLocks : s'.orderLocks = s.orderLocks) (hheld : s'.held g = s.held g) :
    Placed s' g pc := by
  have hholds {tradeNo : String} (hh : Holds s g tradeNo) : Holds s' g tradeNo := by
    rwa [Holds, hheld]
  cases pc with
  | find _ => exact hholds h
  | release _ _ => exact ⟨hholds h.1, (congrFun horderLocks _).trans h.2⟩
  | store _ | increment _ _ | unlockCreate _ _ | acquire _ _ | relock _ _ | decrement _ _
  | remove _ _ => exact (congrFun horderLocks _).trans h
  | idle | lockCreate _ | load _ | leave => trivial

structure Inv [DecidableEq G] (s : State G) : Prop where
  fatal : s.fatal = false
  createLock : ∀ g, (s.pc g).critical = true → s.createLock = true
  alone : ∀ g g', (s.pc g).critical = true → (s.pc g').critical = true → g = g'
  lt_next : ∀ k rcm, s.orderLocks k = some rcm → rcm < s.next
  inj : ∀ k k' rcm, s.orderLocks k = some rcm → s.orderLocks k' = some rcm → k = k'
  placed : ∀ g, Placed s g (s.pc g)
  entry : ∀ g tradeNo rcm, (tradeNo, rcm) ∈ s.held g → s.orderLocks (key tradeNo) = some rcm
  counted : ∀ rcm, Counted (refs s rcm) (s.mutexes rcm).refCount
  locked : ∀ g tradeNo rcm, (tradeNo, rcm) ∈ s.held g → (s.mutexes rcm).mu = true
  single : ∀ g g' tradeNo, Holds s g tradeNo → Holds s g' tradeNo → g = g'
  nodup : ∀ g, ((s.held g).map Prod.fst).Nodup

theorem key_injective {tradeNo tradeNo' : String} (h : key tradeNo = key tradeNo') :
    tradeNo = tradeNo' := by
  have hlist := congrArg String.toList h
  simp only [key, String.toList_append] at hlist
  exact String.toList_inj.1 (List.append_cancel_left hlist)

theorem inv_initial [DecidableEq G] : Inv (initial : State G) where
  fatal := rfl
  createLock := fun _ h => by cases h
  alone := fun _ _ h => by cases h
  lt_next := fun _ _ h => by cases h
  inj := fun _ _ _ h => by cases h
  placed := fun _ => trivial
  entry := fun _ _ _ h => absurd h List.not_mem_nil
  counted := fun _ => counted_zero
  locked := fun _ _ _ h => absurd h List.not_mem_nil
  single := fun _ _ _ h => absurd h List.not_mem_nil
  nodup := fun _ => List.nodup_nil

section Update

variable [DecidableEq G] {α : Type} {f : G → α} {g : G} {x : α} {P : G → α → Prop}

/-- What holds of all goroutines after the value of one was changed. -/
theorem forall_update (hg : P g x) (hother : ∀ g', g' ≠ g → P g' (f g')) (g' : G) :
    P g' (Function.update f g x g') := by
  by_cases hg' : g' = g
  · rw [hg', Function.update_self]
    exact hg
  · rw [Function.update_of_ne hg']
    exact hother g' hg'

end Update

/-- **What is unlocked** is one entry of the list, where its trade numbers are distinct. -/
theorem countP_filter_ne {l : List (String × ℕ)} {tradeNo : String} {rcm : ℕ}
    (hnodup : (l.map Prod.fst).Nodup) (hmem : (tradeNo, rcm) ∈ l) (a : ℕ) :
    (if some rcm = some a then 1 else 0) + (l.filter (·.1 ≠ tradeNo)).countP (·.2 = a) =
      l.countP (·.2 = a) := by
  induction l with
  | nil => exact absurd hmem List.not_mem_nil
  | cons entry l ih =>
    obtain ⟨hnot, hnodup⟩ := List.nodup_cons.1 hnodup
    obtain rfl | hmem := List.mem_cons.1 hmem
    · have hrest : l.filter (·.1 ≠ tradeNo) = l := by
        refine List.filter_eq_self.2 fun other hother => decide_eq_true ?_
        rintro rfl
        exact hnot (List.mem_map.2 ⟨other, hother, rfl⟩)
      rw [List.filter_cons_of_neg (by simp), hrest, List.countP_cons, Nat.add_comm]
      simp
    · have hne : entry.1 ≠ tradeNo := by
        rintro rfl
        exact hnot (List.mem_map.2 ⟨(entry.1, rcm), hmem, rfl⟩)
      rw [List.filter_cons_of_pos (by simpa using hne), List.countP_cons, List.countP_cons,
        ← Nat.add_assoc, ih hnodup hmem]

namespace Inv

variable [DecidableEq G] {s : State G} {g g' : G} {tradeNo tradeNo' : String} {rcm rcm' : ℕ}
  {pc : Pc} {b : Bool}

theorem critical_update {p : Pc} (hp : p.critical = (s.pc g).critical) (g' : G) :
    (Function.update s.pc g p g').critical = (s.pc g').critical :=
  forall_update (P := fun g' (p : Pc) => p.critical = (s.pc g').critical) hp (fun _ _ => rfl) g'

/-- References for the call a goroutine is in do not change while their entry does not. -/
theorem refs_update {p : Pc} (hp : p.counted = (s.pc g).counted) (rcm : ℕ) (g' : G) :
    (if (Function.update s.pc g p g').counted = some rcm then 1 else 0) +
      (s.held g').countP (·.2 = rcm) = refs s rcm g' :=
  forall_update (P := fun g' (p : Pc) => (if p.counted = some rcm then 1 else 0) +
    (s.held g').countP (·.2 = rcm) = refs s rcm g') (by rw [hp]; rfl) (fun _ _ => rfl) g'

/-- **A goroutine goes on** to another statement, and takes or gives back `createLock`. -/
theorem move (h : Inv s) (hself : pc.critical = true → b = true)
    (hlock : ∀ g', g' ≠ g → (s.pc g').critical = true → b = true)
    (halone : pc.critical = true → ∀ g', g' ≠ g → (s.pc g').critical = false)
    (hplaced : Placed s g pc) (hcounted : pc.counted = (s.pc g).counted) :
    Inv ({ s with createLock := b }.goto g pc) where
  fatal := h.fatal
  createLock := forall_update (P := fun _ (p : Pc) => p.critical = true → b = true) hself hlock
  alone := by
    have hcases : ∀ g', (Function.update s.pc g pc g').critical = true →
        g' = g ∧ pc.critical = true ∨ g' ≠ g ∧ (s.pc g').critical = true :=
      forall_update (P := fun g' (p : Pc) => p.critical = true → g' = g ∧ pc.critical = true ∨
        g' ≠ g ∧ (s.pc g').critical = true) (fun hpc => Or.inl ⟨rfl, hpc⟩)
        fun g' hne hg' => Or.inr ⟨hne, hg'⟩
    have hnot (hpc : pc.critical = true) {g' : G} (hne : g' ≠ g)
        (hg' : (s.pc g').critical = true) : False :=
      Bool.false_ne_true ((halone hpc g' hne).symm.trans hg')
    intro g' g'' hg' hg''
    obtain ⟨rfl, hpc⟩ | ⟨hne', hwas'⟩ := hcases g' hg'
    · obtain ⟨heq, -⟩ | ⟨hne'', hwas''⟩ := hcases g'' hg''
      · exact heq.symm
      · exact (hnot hpc hne'' hwas'').elim
    · obtain ⟨-, hpc⟩ | ⟨-, hwas''⟩ := hcases g'' hg''
      · exact (hnot hpc hne' hwas').elim
      · exact h.alone g' g'' hwas' hwas''
  lt_next := h.lt_next
  inj := h.inj
  placed := forall_update (P := Placed s) hplaced fun g' _ => h.placed g'
  entry := h.entry
  counted := fun rcm => (h.counted rcm).congr (refs_update hcounted rcm)
  locked := h.locked
  single := h.single
  nodup := h.nodup

theorem exists_of_refs_pos (h : Inv s) (hpos : 0 < refs s rcm g) :
    ∃ tradeNo, s.orderLocks (key tradeNo) = some rcm := by
  rw [refs] at hpos
  by_cases hcall : (s.pc g).counted = some rcm
  · have hplaced := h.placed g
    cases hpc : s.pc g with
    | unlockCreate tradeNo rcm' | acquire tradeNo rcm' | relock tradeNo rcm'
    | decrement tradeNo rcm' =>
      rw [hpc] at hcall hplaced
      obtain rfl : rcm' = rcm := Option.some.inj hcall
      exact ⟨tradeNo, hplaced⟩
    | idle | lockCreate tradeNo | load tradeNo | store tradeNo | increment tradeNo rcm'
    | find tradeNo | release tradeNo rcm' | remove tradeNo rcm' | leave =>
      rw [hpc] at hcall
      cases hcall
  · rw [if_neg hcall, Nat.zero_add] at hpos
    obtain ⟨entry, hmem, hrcm⟩ := List.countP_pos_iff.1 hpos
    obtain rfl : entry.2 = rcm := of_decide_eq_true hrcm
    exact ⟨entry.1, h.entry g entry.1 entry.2 hmem⟩

theorem lt_next_of_mem (h : Inv s) (hmem : (tradeNo, rcm) ∈ s.held g) : rcm < s.next :=
  h.lt_next _ _ (h.entry g tradeNo rcm hmem)

theorem refs_next (h : Inv s) (g : G) : refs s s.next g = 0 := by
  by_contra hne
  obtain ⟨tradeNo, hentry⟩ := h.exists_of_refs_pos (Nat.pos_of_ne_zero hne)
  exact absurd (h.lt_next _ _ hentry) (lt_irrefl _)

/-- `orderLocks.Store(key, rcm)` -/
theorem storeEntry (h : Inv s) (hpc : s.pc g = .store tradeNo) :
    Inv (s.storeEntry g tradeNo) := by
  have hnone : s.orderLocks (key tradeNo) = none := by simpa [hpc, Placed] using h.placed g
  have hkeep {k : String} {a : ℕ} (hk : s.orderLocks k = some a) :
      Function.update s.orderLocks (key tradeNo) (some s.next) k = some a := by
    rw [Function.update_of_ne, hk]
    rintro rfl
    exact absurd (hnone.symm.trans hk) (Option.some_ne_none a).symm
  have hcritical := critical_update (s := s) (g := g) (p := .increment tradeNo s.next)
    (by rw [hpc]; rfl)
  have hrefs := refs_update (s := s) (g := g) (p := .increment tradeNo s.next) (by rw [hpc]; rfl)
  have hstored {k : String} {a : ℕ}
      (hk : Function.update s.orderLocks (key tradeNo) (some s.next) k = some a) :
      k = key tradeNo ∧ a = s.next ∨ s.orderLocks k = some a := by
    obtain hnew | hold := EventSystem.update_eq_some hk
    · exact Or.inl hnew
    · exact Or.inr hold.2
  have hmutex {a : ℕ} (ha : a < s.next) :
      Function.update s.mutexes s.next {} a = s.mutexes a := Function.update_of_ne ha.ne _ _
  exact {
    fatal := h.fatal
    createLock := fun g' hg' => h.createLock g' ((hcritical g').symm.trans hg')
    alone := fun g' g'' hg' hg'' =>
      h.alone g' g'' ((hcritical g').symm.trans hg') ((hcritical g'').symm.trans hg'')
    lt_next := fun k a hk => by
      obtain ⟨-, rfl⟩ | hold := hstored hk
      · exact Nat.lt_succ_self _
      · exact (h.lt_next k a hold).trans (Nat.lt_succ_self _)
    inj := fun k k' a hk hk' => by
      obtain ⟨rfl, rfl⟩ | hold := hstored hk
      · obtain ⟨rfl, -⟩ | hold' := hstored hk'
        · rfl
        · exact absurd (h.lt_next k' _ hold') (lt_irrefl _)
      · obtain ⟨-, rfl⟩ | hold' := hstored hk'
        · exact absurd (h.lt_next k _ hold) (lt_irrefl _)
        · exact h.inj k k' a hold hold'
    placed := forall_update (P := Placed _) (Function.update_self ..) fun g' hne => by
      have hplaced := h.placed g'
      cases hpc' : s.pc g' with
      | store tradeNo' =>
        exact absurd (h.alone g' g (by rw [hpc']; rfl) (by rw [hpc]; rfl)) hne
      | increment _ _ | unlockCreate _ _ | acquire _ _ | relock _ _ | decrement _ _
      | remove _ _ =>
        rw [hpc'] at hplaced
        exact hkeep hplaced
      | release _ _ =>
        rw [hpc'] at hplaced
        exact ⟨hplaced.1, hkeep hplaced.2⟩
      | find _ =>
        rw [hpc'] at hplaced
        exact hplaced
      | idle | lockCreate _ | load _ | leave => trivial
    entry := fun g' tradeNo' a hmem => hkeep (h.entry g' tradeNo' a hmem)
    counted := fun a => by
      by_cases ha : a = s.next
      · subst ha
        change Counted _ (Function.update s.mutexes s.next {} s.next).refCount
        rw [Function.update_self]
        exact counted_zero.congr fun g' => (hrefs _ g').trans (h.refs_next g')
      · change Counted _ (Function.update s.mutexes s.next {} a).refCount
        rw [Function.update_of_ne ha]
        exact (h.counted a).congr (hrefs a)
    locked := fun g' tradeNo' a hmem => by
      change (Function.update s.mutexes s.next {} a).mu = true
      rw [hmutex (h.lt_next_of_mem hmem)]
      exact h.locked g' tradeNo' a hmem
    single := h.single
    nodup := h.nodup }

theorem refs_goto_of_ne {p : Pc} (hne : g' ≠ g) (a : ℕ) :
    refs (s.goto g p) a g' = refs s a g' := by
  simp only [refs, State.goto, Function.update_of_ne hne]

theorem refs_goto_self {p : Pc} (a : ℕ) : refs (s.goto g p) a g =
    (if p.counted = some a then 1 else 0) + (s.held g).countP (·.2 = a) := by
  simp only [refs, State.goto, Function.update_self]

omit [DecidableEq G] in
theorem mu_addRef {d : ℤ} (a : ℕ) : ((s.addRef rcm d).mutexes a).mu = (s.mutexes a).mu := by
  change (Function.update s.mutexes rcm _ a).mu = _
  by_cases ha : a = rcm
  · rw [ha, Function.update_self]
  · rw [Function.update_of_ne ha]

/-- **A count is changed** under the lock, with the references that it counts. -/
theorem addRef (h : Inv s) {p : Pc} {d : ℤ} (hcritical : p.critical = (s.pc g).critical)
    (hplaced : Placed s g p)
    (hrcm : Counted (refs (s.goto g p) rcm) ((s.mutexes rcm).refCount + d))
    (hother : ∀ a, a ≠ rcm → refs (s.goto g p) a g = refs s a g) :
    Inv ((s.addRef rcm d).goto g p) := by
  have hcrit := critical_update hcritical
  exact {
    fatal := h.fatal
    createLock := fun g' hg' => h.createLock g' ((hcrit g').symm.trans hg')
    alone := fun g' g'' hg' hg'' =>
      h.alone g' g'' ((hcrit g').symm.trans hg') ((hcrit g'').symm.trans hg'')
    lt_next := h.lt_next
    inj := h.inj
    placed := forall_update (P := Placed s) hplaced fun g' _ => h.placed g'
    entry := h.entry
    counted := fun a => by
      by_cases ha : a = rcm
      · subst ha
        change Counted (refs (s.goto g p) a) (Function.update s.mutexes a _ a).refCount
        rw [Function.update_self]
        exact hrcm
      · change Counted (refs (s.goto g p) a) (Function.update s.mutexes rcm _ a).refCount
        rw [Function.update_of_ne ha]
        refine (h.counted a).congr fun g' => ?_
        by_cases hg' : g' = g
        · rw [hg', hother a ha]
        · exact refs_goto_of_ne hg' a
    locked := fun g' tradeNo' a hmem => (mu_addRef a).trans (h.locked g' tradeNo' a hmem)
    single := h.single
    nodup := h.nodup }

/-- `rcm.refCount++` -/
theorem increment (h : Inv s) (hpc : s.pc g = .increment tradeNo rcm) :
    Inv ((s.addRef rcm 1).goto g (.unlockCreate tradeNo rcm)) := by
  have hplaced : s.orderLocks (key tradeNo) = some rcm := by
    simpa [hpc, Placed] using h.placed g
  have hwas (a : ℕ) : refs s a g = (s.held g).countP (·.2 = a) := by
    rw [refs, hpc]
    simp [Pc.counted]
  have his (a : ℕ) : refs (s.goto g (.unlockCreate tradeNo rcm)) a g =
      (if some rcm = some a then 1 else 0) + (s.held g).countP (·.2 = a) := by
    rw [refs_goto_self]
    rfl
  refine h.addRef (by rw [hpc]; rfl) hplaced ?_ fun a ha => ?_
  · refine (h.counted rcm).add (g := g) ?_ fun g' hne => refs_goto_of_ne hne rcm
    rw [his, hwas, if_pos rfl, Nat.add_comm]
  · rw [his, hwas, if_neg, Nat.zero_add]
    exact fun heq => ha (Option.some.inj heq).symm

/-- `rcm.refCount--` -/
theorem decrement (h : Inv s) (hpc : s.pc g = .decrement tradeNo rcm) :
    Inv ((s.addRef rcm (-1)).goto g (.remove tradeNo rcm)) := by
  have hplaced : s.orderLocks (key tradeNo) = some rcm := by
    simpa [hpc, Placed] using h.placed g
  have hwas (a : ℕ) : refs s a g =
      (if some rcm = some a then 1 else 0) + (s.held g).countP (·.2 = a) := by
    rw [refs, hpc]
    rfl
  have his (a : ℕ) : refs (s.goto g (.remove tradeNo rcm)) a g = (s.held g).countP (·.2 = a) := by
    rw [refs_goto_self]
    simp [Pc.counted]
  refine h.addRef (by rw [hpc]; rfl) hplaced ?_ fun a ha => ?_
  · refine (h.counted rcm).sub (g := g) ?_ fun g' hne => refs_goto_of_ne hne rcm
    rw [his, hwas, if_pos rfl, Nat.add_comm]
  · rw [his, hwas, if_neg, Nat.zero_add]
    exact fun heq => ha (Option.some.inj heq).symm

/-- What a goroutine has locked is the entry of the map. -/
theorem mem_held (h : Inv s) (hholds : Holds s g tradeNo)
    (hrcm : s.orderLocks (key tradeNo) = some rcm) : (tradeNo, rcm) ∈ s.held g := by
  obtain ⟨entry, hmem, rfl⟩ := List.mem_map.1 hholds
  have hentry := h.entry g entry.1 entry.2 hmem
  obtain rfl : entry.2 = rcm := Option.some.inj (hentry.symm.trans hrcm)
  exact hmem

theorem notMem_of_free (h : Inv s) (hfree : (s.mutexes rcm).mu = false) :
    (tradeNo, rcm) ∉ s.held g :=
  fun hmem => Bool.false_ne_true (hfree.symm.trans (h.locked g tradeNo rcm hmem))

/-- **A mutex is locked or unlocked**, and the goroutine has `l` from then on. -/
theorem setMu (h : Inv s) {p : Pc} {b : Bool} {l : List (String × ℕ)}
    (hcritical : p.critical = (s.pc g).critical) (hplaced : Placed (s.setHeld g l) g p)
    (hentry : ∀ tradeNo a, (tradeNo, a) ∈ l → s.orderLocks (key tradeNo) = some a)
    (hrefs : ∀ a, (if p.counted = some a then 1 else 0) + l.countP (·.2 = a) = refs s a g)
    (hmu : ∀ tradeNo a, (tradeNo, a) ∈ l → if a = rcm then b = true else (s.mutexes a).mu = true)
    (hothers : ∀ g', g' ≠ g → ∀ tradeNo, (tradeNo, rcm) ∈ s.held g' → b = true)
    (hsingle : ∀ g', g' ≠ g → ∀ tradeNo, tradeNo ∈ l.map Prod.fst → ¬Holds s g' tradeNo)
    (hnodup : (l.map Prod.fst).Nodup) :
    Inv (((s.setMutex rcm { s.mutexes rcm with mu := b }).setHeld g l).goto g p) := by
  have hcrit := critical_update hcritical
  have hmutex (a : ℕ) : (Function.update s.mutexes rcm { s.mutexes rcm with mu := b } a).refCount =
      (s.mutexes a).refCount := by
    by_cases ha : a = rcm
    · rw [ha, Function.update_self]
    · rw [Function.update_of_ne ha]
  exact {
    fatal := h.fatal
    createLock := fun g' hg' => h.createLock g' ((hcrit g').symm.trans hg')
    alone := fun g' g'' hg' hg'' =>
      h.alone g' g'' ((hcrit g').symm.trans hg') ((hcrit g'').symm.trans hg'')
    lt_next := h.lt_next
    inj := h.inj
    placed := forall_update (P := Placed _) hplaced fun g' hne =>
      (h.placed g').congr rfl (Function.update_of_ne hne ..)
    entry := forall_update (P := fun _ (held : List (String × ℕ)) => ∀ tradeNo a,
      (tradeNo, a) ∈ held → s.orderLocks (key tradeNo) = some a) hentry fun g' _ => h.entry g'
    counted := fun a => by
      change Counted _ (Function.update s.mutexes rcm _ a).refCount
      rw [hmutex]
      refine (h.counted a).congr fun g' => ?_
      by_cases hg' : g' = g
      · subst hg'
        rw [← hrefs a]
        simp only [refs, State.goto, State.setHeld, Function.update_self]
      · simp only [refs, State.goto, State.setHeld, State.setMutex, Function.update_of_ne hg']
    locked := forall_update (P := fun _ (held : List (String × ℕ)) => ∀ tradeNo a,
        (tradeNo, a) ∈ held →
          (Function.update s.mutexes rcm { s.mutexes rcm with mu := b } a).mu = true)
      (fun tradeNo a hmem => by
        have hb := hmu tradeNo a hmem
        by_cases ha : a = rcm
        · rw [if_pos ha] at hb
          rw [ha, Function.update_self]
          exact hb
        · rw [if_neg ha] at hb
          rw [Function.update_of_ne ha]
          exact hb)
      fun g' hne tradeNo a hmem => by
        by_cases ha : a = rcm
        · subst ha
          rw [Function.update_self]
          exact hothers g' hne tradeNo hmem
        · rw [Function.update_of_ne ha]
          exact h.locked g' tradeNo a hmem
    single := by
      have hcases (g' : G) (tradeNo : String)
          (hholds : tradeNo ∈ (Function.update s.held g l g').map Prod.fst) :
          g' = g ∧ tradeNo ∈ l.map Prod.fst ∨ g' ≠ g ∧ Holds s g' tradeNo := by
        by_cases hg' : g' = g
        · rw [hg', Function.update_self] at hholds
          exact Or.inl ⟨hg', hholds⟩
        · rw [Function.update_of_ne hg'] at hholds
          exact Or.inr ⟨hg', hholds⟩
      intro g' g'' tradeNo hg' hg''
      obtain ⟨rfl, hl⟩ | ⟨hne', hwas'⟩ := hcases g' tradeNo hg'
      · obtain ⟨heq, -⟩ | ⟨hne'', hwas''⟩ := hcases g'' tradeNo hg''
        · exact heq.symm
        · exact absurd hwas'' (hsingle g'' hne'' tradeNo hl)
      · obtain ⟨-, hl⟩ | ⟨-, hwas''⟩ := hcases g'' tradeNo hg''
        · exact absurd hwas' (hsingle g' hne' tradeNo hl)
        · exact h.single g' g'' tradeNo hwas' hwas''
    nodup := forall_update (P := fun _ (held : List (String × ℕ)) => (held.map Prod.fst).Nodup)
      hnodup fun g' _ => h.nodup g' }

/-- `rcm.mu.Lock()` -/
theorem lockMutex (h : Inv s) (hpc : s.pc g = .acquire tradeNo rcm)
    (hfree : (s.mutexes rcm).mu = false) : Inv (s.lockMutex g tradeNo rcm) := by
  have hplaced : s.orderLocks (key tradeNo) = some rcm := by
    simpa [hpc, Placed] using h.placed g
  -- who has locked the trade number has locked this mutex
  have hnot (g' : G) : ¬Holds s g' tradeNo := fun hholds =>
    h.notMem_of_free hfree (h.mem_held hholds hplaced)
  refine h.setMu (by rw [hpc]; rfl) trivial ?_ (fun a => ?_) ?_ ?_ ?_ ?_
  · intro tradeNo' a hmem
    obtain heq | hmem := List.mem_cons.1 hmem
    · obtain ⟨rfl, rfl⟩ := Prod.mk.inj heq
      exact hplaced
    · exact h.entry g tradeNo' a hmem
  · rw [refs, hpc, List.countP_cons]
    simp [Pc.counted, Nat.add_comm]
  · intro tradeNo' a hmem
    split_ifs with ha
    · rfl
    · obtain heq | hmem := List.mem_cons.1 hmem
      · exact absurd (Prod.mk.inj heq).2 ha
      · exact h.locked g tradeNo' a hmem
  · exact fun _ _ _ _ => rfl
  · intro g' hne tradeNo' hmem hholds
    obtain heq | hmem := List.mem_cons.1 (List.map_cons .. ▸ hmem)
    · obtain rfl : tradeNo' = tradeNo := heq
      exact hnot g' hholds
    · exact hne (h.single g' g tradeNo' hholds hmem)
  · rw [List.map_cons]
    exact List.nodup_cons.2 ⟨hnot g, h.nodup g⟩

/-- The entry of a trade number is that of no other one. -/
theorem tradeNo_unique (h : Inv s) (hrcm : s.orderLocks (key tradeNo) = some rcm)
    (hmem : (tradeNo', rcm) ∈ s.held g) : tradeNo' = tradeNo :=
  key_injective (h.inj _ _ rcm (h.entry g tradeNo' rcm hmem) hrcm)

/-- `rcm.mu.Unlock()` -/
theorem unlockMutex (h : Inv s) (hpc : s.pc g = .release tradeNo rcm) :
    Inv (s.unlockMutex g tradeNo rcm) := by
  have hplaced : Holds s g tradeNo ∧ s.orderLocks (key tradeNo) = some rcm := by
    simpa [hpc, Placed] using h.placed g
  obtain ⟨hholds, hrcm⟩ := hplaced
  have hheld := h.mem_held hholds hrcm
  have hkept {tradeNo' : String} {a : ℕ}
      (hmem : (tradeNo', a) ∈ (s.held g).filter (·.1 ≠ tradeNo)) :
      (tradeNo', a) ∈ s.held g ∧ tradeNo' ≠ tradeNo := by
    obtain ⟨hmem, hne⟩ := List.mem_filter.1 hmem
    exact ⟨hmem, of_decide_eq_true hne⟩
  refine h.setMu (by rw [hpc]; rfl) hrcm (fun tradeNo' a hmem => ?_) (fun a => ?_) ?_ ?_ ?_ ?_
  · exact h.entry g tradeNo' a (hkept hmem).1
  · refine (countP_filter_ne (h.nodup g) hheld a).trans ?_
    rw [refs, hpc]
    simp [Pc.counted]
  · intro tradeNo' a hmem
    obtain ⟨hmem, hne⟩ := hkept hmem
    split_ifs with ha
    · exact absurd (h.tradeNo_unique hrcm (ha ▸ hmem)) hne
    · exact h.locked g tradeNo' a hmem
  · intro g' hne tradeNo' hmem
    obtain rfl := h.tradeNo_unique hrcm hmem
    exact absurd (h.single g' g tradeNo' (List.mem_map_of_mem hmem) hholds) hne
  · intro g' hne tradeNo' hmem hholds'
    obtain ⟨entry, hentry, rfl⟩ := List.mem_map.1 hmem
    have hholds'' : Holds s g entry.1 := List.mem_map_of_mem (hkept hentry).1
    exact hne (h.single g' g entry.1 hholds' hholds'')
  · exact (h.nodup g).sublist (List.filter_sublist.map _)

/-- **An entry whose count is zero** is nobody's. -/
theorem unused_of_zero (h : Inv s) (hzero : (s.mutexes rcm).refCount = 0) (g : G) :
    (s.pc g).counted ≠ some rcm ∧ ∀ tradeNo, (tradeNo, rcm) ∉ s.held g := by
  have hcounted := h.counted rcm
  rw [hzero] at hcounted
  have hrefs : refs s rcm g = 0 := hcounted.eq_zero g
  rw [refs] at hrefs
  constructor
  · intro hcall
    rw [if_pos hcall] at hrefs
    omega
  · intro tradeNo hmem
    have hpos : 0 < (s.held g).countP (·.2 = rcm) :=
      List.countP_pos_iff.2 ⟨(tradeNo, rcm), hmem, decide_eq_true rfl⟩
    omega

/-- `orderLocks.Delete(key)` -/
theorem deleteEntry (h : Inv s) (hpc : s.pc g = .remove tradeNo rcm)
    (hzero : (s.mutexes rcm).refCount = 0) : Inv (s.deleteEntry g tradeNo) := by
  have hrcm : s.orderLocks (key tradeNo) = some rcm := by
    simpa [hpc, Placed] using h.placed g
  have hcritical := critical_update (s := s) (g := g) (p := .leave) (by rw [hpc]; rfl)
  have hrefs := refs_update (s := s) (g := g) (p := .leave) (by rw [hpc]; rfl)
  have hwas {k : String} {a : ℕ} (hk : Function.update s.orderLocks (key tradeNo) none k = some a) :
      s.orderLocks k = some a := by
    by_cases hkey : k = key tradeNo
    · rw [hkey, Function.update_self] at hk
      cases hk
    · rwa [Function.update_of_ne hkey] at hk
  have hkeep {tradeNo' : String} {a : ℕ} (hk : s.orderLocks (key tradeNo') = some a)
      (ha : a ≠ rcm) :
      Function.update s.orderLocks (key tradeNo) none (key tradeNo') = some a := by
    rw [Function.update_of_ne, hk]
    intro hkey
    rw [hkey, hrcm] at hk
    exact ha (Option.some.inj hk).symm
  exact {
    fatal := h.fatal
    createLock := fun g' hg' => h.createLock g' ((hcritical g').symm.trans hg')
    alone := fun g' g'' hg' hg'' =>
      h.alone g' g'' ((hcritical g').symm.trans hg') ((hcritical g'').symm.trans hg'')
    lt_next := fun k a hk => h.lt_next k a (hwas hk)
    inj := fun k k' a hk hk' => h.inj k k' a (hwas hk) (hwas hk')
    placed := forall_update (P := Placed _) trivial fun g' hne => by
      have hold := h.placed g'
      obtain ⟨hcalls, hheld⟩ := h.unused_of_zero hzero g'
      have hcrit : (s.pc g').critical = false := eq_false_of_ne_true fun hg' =>
        hne (h.alone g' g hg' (by rw [hpc]; rfl))
      change Placed _ g' (s.pc g')
      cases hpc' : s.pc g' with
      | store _ | increment _ _ | unlockCreate _ _ | decrement _ _ | remove _ _ =>
        rw [hpc'] at hcrit
        cases hcrit
      | acquire _ a | relock _ a =>
        rw [hpc'] at hold hcalls
        refine hkeep hold fun ha => hcalls ?_
        rw [ha]
        rfl
      | release _ a =>
        rw [hpc'] at hold
        exact ⟨hold.1, hkeep hold.2 fun ha => hheld _ (ha ▸ h.mem_held hold.1 hold.2)⟩
      | find _ =>
        rw [hpc'] at hold
        exact hold
      | idle | lockCreate _ | load _ | leave => trivial
    entry := fun g' tradeNo' a hmem => hkeep (h.entry g' tradeNo' a hmem) fun ha =>
      (h.unused_of_zero hzero g').2 tradeNo' (ha ▸ hmem)
    counted := fun a => (h.counted a).congr (hrefs a)
    locked := h.locked
    single := h.single
    nodup := h.nodup }

theorem not_critical (h : Inv s) (hfree : s.createLock = false) (g : G) :
    (s.pc g).critical = false :=
  eq_false_of_ne_true fun hg => Bool.false_ne_true (hfree.symm.trans (h.createLock g hg))

/-- **A statement** keeps the invariant. -/
theorem go (h : Inv s) (g : G) : Inv (OrderLock.go s g) := by
  have hplaced := h.placed g
  have hstay (hpc : (s.pc g).critical = true) : ∀ g', g' ≠ g → (s.pc g').critical = false :=
    fun g' hne => eq_false_of_ne_true fun hg' => hne (h.alone g' g hg' hpc)
  rw [OrderLock.go]
  cases hpc : s.pc g with
  | idle => exact h
  | lockCreate tradeNo =>
    simp only
    split_ifs with hlock
    · exact h
    · have hfree := eq_false_of_ne_true hlock
      exact h.move (fun _ => rfl) (fun _ _ _ => rfl) (fun _ g' _ => h.not_critical hfree g') trivial
        (by rw [hpc]; rfl)
  | load tradeNo =>
    have hcritical : (s.pc g).critical = true := by rw [hpc]; rfl
    simp only
    cases hentry : s.orderLocks (key tradeNo) with
    | some rcm =>
      exact h.move (fun _ => h.createLock g hcritical) (fun g' _ => h.createLock g')
        (fun _ => hstay hcritical) hentry (by rw [hpc]; rfl)
    | none =>
      exact h.move (fun _ => h.createLock g hcritical) (fun g' _ => h.createLock g')
        (fun _ => hstay hcritical) hentry (by rw [hpc]; rfl)
  | store tradeNo => exact h.storeEntry hpc
  | increment tradeNo rcm => exact h.increment hpc
  | unlockCreate tradeNo rcm =>
    have hcritical : (s.pc g).critical = true := by rw [hpc]; rfl
    rw [hpc] at hplaced
    simp only [h.createLock g hcritical, if_true]
    refine h.move (fun hp => by cases hp) (fun g' hne hg' => ?_) (fun hp => by cases hp) hplaced
      (by rw [hpc]; rfl)
    exact absurd ((hstay hcritical g' hne).symm.trans hg') Bool.false_ne_true
  | acquire tradeNo rcm =>
    simp only
    split_ifs with hmu
    · exact h
    · exact h.lockMutex hpc (eq_false_of_ne_true hmu)
  | find tradeNo =>
    rw [hpc] at hplaced
    simp only
    cases hentry : s.orderLocks (key tradeNo) with
    | some rcm =>
      exact h.move (fun hp => by cases hp) (fun g' _ => h.createLock g') (fun hp => by cases hp)
        ⟨hplaced, hentry⟩ (by rw [hpc]; rfl)
    | none =>
      exact h.move (fun hp => by cases hp) (fun g' _ => h.createLock g') (fun hp => by cases hp)
        trivial (by rw [hpc]; rfl)
  | release tradeNo rcm =>
    rw [hpc] at hplaced
    simp only [h.locked g _ _ (h.mem_held hplaced.1 hplaced.2), if_true]
    exact h.unlockMutex hpc
  | relock tradeNo rcm =>
    rw [hpc] at hplaced
    simp only
    split_ifs with hlock
    · exact h
    · have hfree := eq_false_of_ne_true hlock
      exact h.move (fun _ => rfl) (fun _ _ _ => rfl) (fun _ g' _ => h.not_critical hfree g') hplaced
        (by rw [hpc]; rfl)
  | decrement tradeNo rcm => exact h.decrement hpc
  | remove tradeNo rcm =>
    have hcritical : (s.pc g).critical = true := by rw [hpc]; rfl
    simp only
    split_ifs with hzero
    · exact h.deleteEntry hpc hzero
    · exact h.move (fun _ => h.createLock g hcritical) (fun g' _ => h.createLock g')
        (fun _ => hstay hcritical) trivial (by rw [hpc]; rfl)
  | leave =>
    have hcritical : (s.pc g).critical = true := by rw [hpc]; rfl
    simp only [h.createLock g hcritical, if_true]
    refine h.move (fun hp => by cases hp) (fun g' hne hg' => ?_) (fun hp => by cases hp) trivial
      (by rw [hpc]; rfl)
    exact absurd ((hstay hcritical g' hne).symm.trans hg') Bool.false_ne_true

theorem step (h : Inv s) (e : Event G) : Inv (OrderLock.step s e) := by
  cases e with
  | lockOrder g tradeNo =>
    rw [OrderLock.step]
    split_ifs with hidle
    · exact h.move (fun hp => by cases hp) (fun g' _ => h.createLock g') (fun hp => by cases hp)
        trivial (by rw [hidle]; rfl)
    · exact h
  | unlockOrder g tradeNo =>
    rw [OrderLock.step]
    split_ifs with hcall
    · exact h.move (fun hp => by cases hp) (fun g' _ => h.createLock g') (fun hp => by cases hp)
        hcall.2 (by rw [hcall.1]; rfl)
    · exact h
  | go g => exact h.go g

/-- **A statement that takes an entry away** is one that found its count at zero. -/
theorem removes (h : Inv s) {e : Event G} {k : String} (hrcm : s.orderLocks k = some rcm)
    (hgone : (OrderLock.step s e).orderLocks k ≠ some rcm) :
    ∃ g tradeNo, s.pc g = .remove tradeNo rcm ∧ (s.mutexes rcm).refCount = 0 := by
  have hsame (heq : (OrderLock.step s e).orderLocks = s.orderLocks) : False :=
    hgone ((congrFun heq k).trans hrcm)
  cases e with
  | lockOrder g tradeNo =>
    refine (hsame ?_).elim
    rw [OrderLock.step]
    split_ifs <;> rfl
  | unlockOrder g tradeNo =>
    refine (hsame ?_).elim
    rw [OrderLock.step]
    split_ifs <;> rfl
  | go g =>
    change (OrderLock.go s g).orderLocks k ≠ some rcm at hgone
    change (OrderLock.go s g).orderLocks = s.orderLocks → False at hsame
    rw [OrderLock.go] at hgone hsame
    cases hpc : s.pc g with
    | store tradeNo =>
      rw [hpc] at hgone
      have hnone : s.orderLocks (key tradeNo) = none := by simpa [hpc, Placed] using h.placed g
      refine absurd (?_ : Function.update s.orderLocks (key tradeNo) (some s.next) k = _) hgone
      rw [Function.update_of_ne, hrcm]
      rintro rfl
      exact absurd (hnone.symm.trans hrcm) (Option.some_ne_none rcm).symm
    | remove tradeNo rcm' =>
      rw [hpc] at hgone hsame
      have hrcm' : s.orderLocks (key tradeNo) = some rcm' := by
        simpa [hpc, Placed] using h.placed g
      simp only at hgone
      split_ifs at hgone with hzero
      · have hkey : k = key tradeNo := by
          by_contra hne
          exact hgone ((Function.update_of_ne hne ..).trans hrcm)
        obtain rfl : rcm' = rcm := Option.some.inj (hrcm'.symm.trans (hkey ▸ hrcm))
        exact ⟨g, tradeNo, hpc, hzero⟩
      · exact absurd hrcm hgone
    | idle | increment tradeNo rcm' | decrement tradeNo rcm' =>
      rw [hpc] at hsame
      exact (hsame rfl).elim
    | lockCreate tradeNo | unlockCreate tradeNo rcm' | acquire tradeNo rcm' | release tradeNo rcm'
    | relock tradeNo rcm' | leave =>
      rw [hpc] at hsame
      refine (hsame ?_).elim
      simp only
      split_ifs <;> rfl
    | load tradeNo | find tradeNo =>
      rw [hpc] at hsame
      refine (hsame ?_).elim
      simp only
      split <;> rfl

/-- Whoever waits for an entry is counted, or about to be, under the lock. -/
theorem not_waits (h : Inv s) (hpc : s.pc g = .remove tradeNo rcm)
    (hzero : (s.mutexes rcm).refCount = 0) (g' : G) : ¬Waits s g' rcm := by
  rintro ⟨tradeNo', hwait⟩
  have hcalls := (h.unused_of_zero hzero g').1
  obtain hpc' | hpc' | hpc' := hwait
  · obtain rfl := h.alone g' g (by rw [hpc']; rfl) (by rw [hpc]; rfl)
    rw [hpc] at hpc'
    cases hpc'
  · exact hcalls (by rw [hpc']; rfl)
  · exact hcalls (by rw [hpc']; rfl)

end Inv

section Runs

variable [DecidableEq G]

theorem inv_run (es : List (Event G)) : Inv (EventSystem.run step initial es) :=
  EventSystem.inv_run_always (fun _ e h => h.step e) inv_initial es

/-- **The order lock is a lock**, in every interleaving: one goroutine at most has locked a trade
number, whoever unlocks one finds the entry that it locked, and an entry is removed when nobody has
it or waits for it. -/
theorem orderLock_is_lock (es : List (Event G)) :
    let s := EventSystem.run step initial es
    (∀ g g' tradeNo, Holds s g tradeNo → Holds s g' tradeNo → g = g') ∧
      (∀ g tradeNo, s.pc g = .find tradeNo →
        ∃ rcm, (tradeNo, rcm) ∈ s.held g ∧ s.orderLocks (key tradeNo) = some rcm) ∧
      ∀ e k rcm, s.orderLocks k = some rcm → (step s e).orderLocks k ≠ some rcm →
        ∀ g, ¬Waits s g rcm ∧ ∀ tradeNo, (tradeNo, rcm) ∉ s.held g := by
  intro s
  have h : Inv s := inv_run es
  refine ⟨h.single, fun g tradeNo hpc => ?_, fun e k rcm hrcm hgone g => ?_⟩
  · have hholds : Holds s g tradeNo := by simpa [hpc, Placed] using h.placed g
    obtain ⟨entry, hmem, rfl⟩ := List.mem_map.1 hholds
    exact ⟨entry.2, hmem, h.entry g entry.1 entry.2 hmem⟩
  · obtain ⟨g', tradeNo, hpc, hzero⟩ := h.removes hrcm hgone
    exact ⟨h.not_waits hpc hzero g, (h.unused_of_zero hzero g).2⟩

/-! ### A free order -/

/-- A mutex that is locked is one that a goroutine has locked. -/
def Owned (s : State G) : Prop :=
  ∀ rcm, (s.mutexes rcm).mu = true → ∃ g tradeNo, (tradeNo, rcm) ∈ s.held g

namespace Owned

variable {s : State G} {g : G} {tradeNo : String} {rcm : ℕ}

omit [DecidableEq G] in
theorem addRef (h : Owned s) (d : ℤ) : Owned (s.addRef rcm d) := by
  intro a hmu
  refine h a ?_
  by_cases ha : a = rcm
  · subst ha
    simpa [State.addRef, State.setMutex] using hmu
  · simpa [State.addRef, State.setMutex, Function.update_of_ne ha] using hmu

theorem storeEntry (h : Owned s) : Owned (s.storeEntry g tradeNo) := by
  intro a hmu
  refine h a ?_
  by_cases ha : a = s.next
  · subst ha
    simp [State.storeEntry, State.goto] at hmu
  · simpa [State.storeEntry, State.goto, Function.update_of_ne ha] using hmu

theorem lockMutex (h : Owned s) : Owned (s.lockMutex g tradeNo rcm) := by
  intro a hmu
  by_cases ha : a = rcm
  · subst ha
    exact ⟨g, tradeNo, by simp [State.lockMutex, State.setHeld, State.goto]⟩
  · obtain ⟨g', tradeNo', hmem⟩ := h a
      (by simpa [State.lockMutex, State.setMutex, State.setHeld, State.goto,
        Function.update_of_ne ha] using hmu)
    refine ⟨g', tradeNo', ?_⟩
    by_cases hg : g' = g
    · subst hg
      simp [State.lockMutex, State.setHeld, State.setMutex, State.goto, hmem]
    · simpa [State.lockMutex, State.setHeld, State.setMutex, State.goto,
        Function.update_of_ne hg] using hmem

/-- The other entries that a goroutine has locked are those of other trade numbers. -/
theorem unlockMutex (h : Owned s) (hs : Inv s) (hrcm : s.orderLocks (key tradeNo) = some rcm) :
    Owned (s.unlockMutex g tradeNo rcm) := by
  intro a hmu
  have ha : a ≠ rcm := by
    rintro rfl
    simp [State.unlockMutex, State.setHeld, State.setMutex, State.goto] at hmu
  obtain ⟨g', tradeNo', hmem⟩ := h a
    (by simpa [State.unlockMutex, State.setMutex, State.setHeld, State.goto,
      Function.update_of_ne ha] using hmu)
  have hne : tradeNo' ≠ tradeNo := by
    rintro rfl
    exact ha (Option.some.inj ((hs.entry g' tradeNo' a hmem).symm.trans hrcm))
  refine ⟨g', tradeNo', ?_⟩
  by_cases hg : g' = g
  · subst hg
    simp [State.unlockMutex, State.setHeld, State.setMutex, State.goto, hmem, hne]
  · simpa [State.unlockMutex, State.setHeld, State.setMutex, State.goto,
      Function.update_of_ne hg] using hmem

theorem step (h : Owned s) (hs : Inv s) (e : Event G) : Owned (OrderLock.step s e) := by
  cases e with
  | lockOrder g tradeNo | unlockOrder g tradeNo =>
    rw [OrderLock.step]
    split_ifs <;> exact h
  | go g =>
    rw [OrderLock.step, go]
    have hplaced := hs.placed g
    cases hpc : s.pc g with
    | idle => exact h
    | store tradeNo => exact h.storeEntry
    | increment tradeNo rcm | decrement tradeNo rcm => exact h.addRef _
    | acquire tradeNo rcm =>
      dsimp only
      split_ifs
      · exact h
      · exact h.lockMutex
    | release tradeNo rcm =>
      rw [hpc] at hplaced
      dsimp only
      split_ifs
      · exact h.unlockMutex hs hplaced.2
      · exact h
    | lockCreate tradeNo | unlockCreate tradeNo rcm | relock tradeNo rcm | remove tradeNo rcm
    | leave =>
      dsimp only
      split_ifs <;> exact h
    | load tradeNo | find tradeNo =>
      dsimp only
      split <;> exact h

end Owned

theorem owned_run (es : List (Event G)) : Owned (EventSystem.run step initial es) := by
  have hrun : Inv (EventSystem.run step initial es) ∧ Owned (EventSystem.run step initial es) :=
    EventSystem.inv_run_always (I := fun s : State G => Inv s ∧ Owned s)
      (fun _ e h => ⟨h.1.step e, h.2.step h.1 e⟩) ⟨inv_initial, fun _ hmu => by cases hmu⟩ es
  exact hrun.2

theorem holds_of_increment {s : State G} {g : G} {tradeNo : String} {rcm : ℕ}
    (hpc : s.pc g = .increment tradeNo rcm) (hcreate : s.createLock = true)
    (hmu : (s.mutexes rcm).mu = false) :
    Holds (EventSystem.run step s (List.replicate 3 (.go g))) g tradeNo := by
  simp [List.replicate, step, go, hpc, hcreate, hmu, State.goto, State.addRef, State.setMutex,
    State.lockMutex, State.setHeld, Holds]

/-- **A free order is locked** by whoever calls `LockOrder` for it and finds `createLock` free,
with five statements, or with six where its entry is a new one. -/
theorem exists_holds (es : List (Event G)) {g : G} {tradeNo : String}
    (hidle : (EventSystem.run step initial es).pc g = .idle)
    (hcreate : (EventSystem.run step initial es).createLock = false)
    (hfree : ∀ g', ¬Holds (EventSystem.run step initial es) g' tradeNo) :
    ∃ n, Holds (EventSystem.run step initial
      (es ++ .lockOrder g tradeNo :: List.replicate n (.go g))) g tradeNo := by
  have hs := inv_run es
  have howned := owned_run es
  simp only [EventSystem.run_append, EventSystem.run_cons]
  generalize EventSystem.run step initial es = s at *
  have hload : EventSystem.run step (step s (.lockOrder g tradeNo)) (List.replicate 1 (.go g)) =
      { s with createLock := true }.goto g (.load tradeNo) := by
    simp [step, go, hidle, hcreate, State.goto]
  cases hrcm : s.orderLocks (key tradeNo) with
  | some rcm =>
    have hfound : EventSystem.run step ({ s with createLock := true }.goto g (.load tradeNo))
        (List.replicate 1 (.go g)) =
          { s with createLock := true }.goto g (.increment tradeNo rcm) := by
      simp [step, go, State.goto, hrcm]
    have hmu : (s.mutexes rcm).mu = false := by
      refine eq_false_of_ne_true fun hmu => ?_
      obtain ⟨g', tradeNo', hmem⟩ := howned rcm hmu
      obtain rfl := hs.tradeNo_unique hrcm hmem
      exact hfree g' (List.mem_map_of_mem hmem)
    -- `createLock`, the entry, and from there three statements to the mutex
    refine ⟨1 + (1 + 3), ?_⟩
    rw [List.replicate_add, List.replicate_add, EventSystem.run_append, EventSystem.run_append,
      hload, hfound]
    exact holds_of_increment (Function.update_self ..) rfl hmu
  | none =>
    have hstored : EventSystem.run step ({ s with createLock := true }.goto g (.load tradeNo))
        (List.replicate 2 (.go g)) =
          ({ s with createLock := true }.goto g (.store tradeNo)).storeEntry g tradeNo := by
      simp [List.replicate, step, go, State.goto, hrcm]
    -- one statement more, which stores a new entry
    refine ⟨1 + (2 + 3), ?_⟩
    rw [List.replicate_add, List.replicate_add, EventSystem.run_append, EventSystem.run_append,
      hload, hstored]
    exact holds_of_increment (Function.update_self ..) rfl (by simp [State.storeEntry, State.goto])

/-- One goroutine has locked an order, and another one waits for it. -/
def twoCalls : State Bool :=
  EventSystem.run step initial ([Event.lockOrder false "a", Event.lockOrder true "a"] ++
    (List.replicate 6 (Event.go false) ++ List.replicate 7 (Event.go true)))

example : twoCalls.held false = [("a", 0)] ∧ twoCalls.pc true = .acquire "a" 0 := by decide

end Runs

end NewApiPool.OrderLock
