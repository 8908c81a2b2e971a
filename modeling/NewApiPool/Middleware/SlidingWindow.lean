import NewApiPool.Middleware.RateLimit

/-!
# The limiter in memory is an exact sliding window

The limiter keeps the last times at which the calls of a key were let through, as many as are
allowed, and the cleaner takes a whole queue when its last time is old. What it lets through is
what a limiter would that knows all calls: a call is let through if and only if fewer than the
maximal number was in the last seconds (`NewApiPool.SlidingWindow.exact_window`).

Every key may have a limit of its own, as the limiter is shared by several of them.
-/

namespace NewApiPool.SlidingWindow

open EventSystem RateLimit

/-- With which arguments the calls of a key are made. -/
structure Limits where
  maxRequestNum : String → ℕ
  duration : String → ℤ

/-- A call of `Request`, or a round of `clearExpiredItems`, in seconds. -/
inductive Event where
  | request (key : String) (now : ℤ)
  | clean (expirationDuration now : ℤ)
deriving DecidableEq, Repr

def Event.time : Event → ℤ
  | .request _ now => now
  | .clean _ now => now

/-- The limiter, and all the calls that were let through, newest first. -/
structure State where
  store : Store
  accepted : List (String × ℤ)
  last : ℤ

namespace State

def init (start : ℤ) : State := ⟨fun _ => none, [], start⟩

/-- When the calls of a key were let through, newest first. -/
def times (s : State) (key : String) : List ℤ :=
  s.accepted.filterMap fun c => if c.1 = key then some c.2 else none

end State

section Steps

variable (cfg : Limits)

def step (s : State) : Event → State
  | .request key now =>
    let answer := request s.store key (cfg.maxRequestNum key) (cfg.duration key) now
    ⟨answer.2, if answer.1 then (key, now) :: s.accepted else s.accepted, now⟩
  | .clean expirationDuration now => ⟨sweep expirationDuration now s.store, s.accepted, now⟩

/-- The clock does not go back, and the cleaner keeps what the limits need. -/
def Allowed (s : State) : Event → Prop
  | .request _ now => s.last ≤ now
  | .clean expirationDuration now =>
    s.last ≤ now ∧ ∀ key, cfg.duration key ≤ expirationDuration

/-- How many calls of a key were let through in the last seconds. -/
def recent (s : State) (key : String) (now : ℤ) : ℕ :=
  (s.times key).countP fun t => decide (now - t < cfg.duration key)

/-- How many of them were in a window of that length. -/
def inWindow (s : State) (key : String) (w : ℤ) : ℕ :=
  (s.times key).countP fun t => decide (w ≤ t ∧ t < w + cfg.duration key)

/-- **What the store knows of all the calls**: of each key the newest ones, and what it has lost of
the others is old. -/
structure Knows (s : State) : Prop where
  queue (key : String) : ∃ kept old, s.times key = kept ++ old ∧
    s.store key = queueOf (cfg.maxRequestNum key) kept ∧
    ∀ t ∈ old, cfg.duration key ≤ s.last - t
  sorted (key : String) : (s.times key).Pairwise fun a b => b ≤ a
  le (key : String) : ∀ t ∈ s.times key, t ≤ s.last

end Steps

variable {cfg : Limits} {s : State} {key : String} {now : ℤ} {e : Event}

theorem knows_init (start : ℤ) : Knows cfg (.init start) where
  queue _ := ⟨[], [], rfl, rfl, fun _ h => absurd h List.not_mem_nil⟩
  sorted _ := List.Pairwise.nil
  le _ _ h := absurd h List.not_mem_nil

theorem State.times_cons_self (store : Store) (accepted : List (String × ℤ)) (last : ℤ) :
    State.times ⟨store, (key, now) :: accepted, last⟩ key =
      now :: State.times ⟨store, accepted, last⟩ key := by
  rw [State.times, List.filterMap_cons, if_pos rfl]
  rfl

theorem State.times_cons_of_ne {key' : String} (h : key' ≠ key) (store : Store)
    (accepted : List (String × ℤ)) (last : ℤ) :
    State.times ⟨store, (key, now) :: accepted, last⟩ key' =
      State.times ⟨store, accepted, last⟩ key' := by
  rw [State.times, List.filterMap_cons, if_neg (Ne.symm h)]
  rfl

/-- **What a call does**: it is let through, and put into its queue, if there is room in the last
seconds. -/
theorem Knows.request_eq (h : Knows cfg s) (hmax : 1 ≤ cfg.maxRequestNum key)
    (hnow : s.last ≤ now) :
    ∃ kept old, s.times key = kept ++ old ∧ (∀ t ∈ old, cfg.duration key ≤ s.last - t) ∧
      request s.store key (cfg.maxRequestNum key) (cfg.duration key) now =
        if recent cfg s key now < cfg.maxRequestNum key then
          (true, Function.update s.store key (queueOf (cfg.maxRequestNum key) (now :: kept)))
        else (false, s.store) := by
  obtain ⟨kept, old, htimes, hstore, hold⟩ := h.queue key
  have hsorted : kept.Pairwise fun a b => b ≤ a :=
    (List.pairwise_append.1 (htimes ▸ h.sorted key)).1
  have hnone : old.countP (fun t => decide (now - t < cfg.duration key)) = 0 := by
    rw [List.countP_eq_zero]
    intro t ht
    have hlast := hold t ht
    rw [decide_eq_true_eq]
    omega
  have hcount : recent cfg s key now =
      kept.countP fun t => decide (now - t < cfg.duration key) := by
    rw [recent, htimes, List.countP_append, hnone, Nat.add_zero]
  refine ⟨kept, old, htimes, hold, ?_⟩
  rw [RateLimit.request_eq hstore hsorted, hcount]
  by_cases hroom : kept.countP (fun t => decide (now - t < cfg.duration key)) <
      cfg.maxRequestNum key
  · rw [if_pos hroom, if_pos (Nat.le_sub_one_of_lt hroom)]
  · rw [if_neg hroom, if_neg (by omega)]

theorem Knows.accepted_iff (h : Knows cfg s) (hmax : 1 ≤ cfg.maxRequestNum key)
    (hnow : s.last ≤ now) :
    (request s.store key (cfg.maxRequestNum key) (cfg.duration key) now).1 = true ↔
      recent cfg s key now < cfg.maxRequestNum key := by
  obtain ⟨kept, old, -, -, heq⟩ := h.request_eq hmax hnow
  rw [heq]
  by_cases hroom : recent cfg s key now < cfg.maxRequestNum key
  · rw [if_pos hroom]
    exact iff_of_true rfl hroom
  · rw [if_neg hroom]
    exact iff_of_false Bool.false_ne_true hroom

theorem Knows.step_request (h : Knows cfg s) (hmax : 1 ≤ cfg.maxRequestNum key)
    (hnow : s.last ≤ now) :
    (recent cfg s key now < cfg.maxRequestNum key ∧ ∃ kept old, s.times key = kept ++ old ∧
      (∀ t ∈ old, cfg.duration key ≤ s.last - t) ∧
      step cfg s (.request key now) = ⟨Function.update s.store key
        (queueOf (cfg.maxRequestNum key) (now :: kept)), (key, now) :: s.accepted, now⟩) ∨
    step cfg s (.request key now) = { s with last := now } := by
  obtain ⟨kept, old, htimes, hold, heq⟩ := h.request_eq hmax hnow
  by_cases hroom : recent cfg s key now < cfg.maxRequestNum key
  · rw [if_pos hroom] at heq
    exact Or.inl ⟨hroom, kept, old, htimes, hold, by rw [step, heq]; rfl⟩
  · rw [if_neg hroom] at heq
    exact Or.inr (by rw [step, heq]; rfl)

/-! ### What is kept -/

theorem Knows.later (h : Knows cfg s) (hnow : s.last ≤ now) : Knows cfg { s with last := now } where
  queue key := by
    obtain ⟨kept, old, htimes, hstore, hold⟩ := h.queue key
    refine ⟨kept, old, htimes, hstore, fun t ht => ?_⟩
    have hlast := hold t ht
    dsimp only
    omega
  sorted := h.sorted
  le key t ht := (h.le key t ht).trans hnow

theorem Knows.accept {kept old : List ℤ} (h : Knows cfg s) (hnow : s.last ≤ now)
    (htimes : s.times key = kept ++ old) (hold : ∀ t ∈ old, cfg.duration key ≤ s.last - t) :
    Knows cfg ⟨Function.update s.store key (queueOf (cfg.maxRequestNum key) (now :: kept)),
      (key, now) :: s.accepted, now⟩ where
  queue key' := by
    by_cases hkey : key' = key
    · subst hkey
      refine ⟨now :: kept, old, ?_, Function.update_self _ _ _, fun t ht => ?_⟩
      · exact (State.times_cons_self _ _ _).trans (congrArg (now :: ·) htimes)
      · have hlast := hold t ht
        dsimp only
        omega
    · obtain ⟨kept', old', htimes', hstore', hold'⟩ := (h.later hnow).queue key'
      exact ⟨kept', old', (State.times_cons_of_ne hkey _ _ _).trans htimes',
        (Function.update_of_ne hkey _ _).trans hstore', hold'⟩
  sorted key' := by
    by_cases hkey : key' = key
    · subst hkey
      rw [State.times_cons_self]
      exact List.pairwise_cons.2 ⟨(h.later hnow).le key', h.sorted key'⟩
    · rw [State.times_cons_of_ne hkey]
      exact h.sorted key'
  le key' t ht := by
    by_cases hkey : key' = key
    · subst hkey
      rw [State.times_cons_self] at ht
      rcases List.mem_cons.1 ht with rfl | ht
      · exact le_rfl
      · exact (h.later hnow).le key' t ht
    · rw [State.times_cons_of_ne hkey] at ht
      exact (h.later hnow).le key' t ht

theorem Knows.sweep {expirationDuration : ℤ} (h : Knows cfg s) (hnow : s.last ≤ now)
    (hexp : ∀ key, cfg.duration key ≤ expirationDuration) :
    Knows cfg ⟨RateLimit.sweep expirationDuration now s.store, s.accepted, now⟩ where
  queue key := by
    obtain ⟨kept, old, htimes, hstore, hold⟩ := (h.later hnow).queue key
    have hsweep := sweep_eq now expirationDuration hstore
    by_cases hstay : kept.head?.all (fun t => decide (now - t ≤ expirationDuration)) = true
    · rw [if_pos hstay] at hsweep
      exact ⟨kept, old, htimes, hsweep, hold⟩
    · rw [if_neg hstay] at hsweep
      refine ⟨[], kept ++ old, htimes, hsweep, fun t ht => ?_⟩
      cases kept with
      | nil => exact hold t ht
      | cons t' kept =>
        rw [List.head?_cons, Option.all_some, decide_eq_true_eq] at hstay
        have hsorted : ∀ a ∈ kept ++ old, a ≤ t' :=
          (List.pairwise_cons.1 ((htimes.trans (List.cons_append)) ▸ h.sorted key)).1
        have hduration := hexp key
        have hle : t ≤ t' := by
          rcases List.mem_cons.1 ht with rfl | ht
          · exact le_rfl
          · exact hsorted t ht
        dsimp only
        omega
  sorted := h.sorted
  le := (h.later hnow).le

/-- What the windows hold. -/
def WithinLimits (cfg : Limits) (s : State) : Prop :=
  ∀ key w, inWindow cfg s key w ≤ cfg.maxRequestNum key

/-- **A call that is let through** leaves no more in any window than is allowed: what is in a window
with it came in the last seconds. -/
theorem WithinLimits.accept {store : Store} (h : WithinLimits cfg s)
    (hroom : recent cfg s key now < cfg.maxRequestNum key) :
    WithinLimits cfg ⟨store, (key, now) :: s.accepted, now⟩ := by
  intro key' w
  by_cases hkey : key' = key
  · subst hkey
    rw [inWindow, State.times_cons_self, List.countP_cons]
    by_cases hw : w ≤ now ∧ now < w + cfg.duration key'
    · have hle : (s.times key').countP (fun t => decide (w ≤ t ∧ t < w + cfg.duration key')) ≤
          recent cfg s key' now := by
        refine List.countP_mono_left fun t _ ht => ?_
        rw [decide_eq_true_eq] at ht ⊢
        omega
      rw [if_pos (decide_eq_true hw)]
      exact (Nat.add_le_add_right hle 1).trans hroom
    · rw [if_neg (by rwa [decide_eq_true_eq]), Nat.add_zero]
      exact h key' w
  · rw [inWindow, State.times_cons_of_ne hkey]
    exact h key' w

/-! ### All calls -/

theorem keeps_step (hmax : ∀ key, 1 ≤ cfg.maxRequestNum key)
    (h : Knows cfg s ∧ WithinLimits cfg s) (hallowed : Allowed cfg s e) :
    Knows cfg (step cfg s e) ∧ WithinLimits cfg (step cfg s e) := by
  cases e with
  | request key now =>
    rcases h.1.step_request (hmax key) hallowed with ⟨hroom, kept, old, htimes, hold, heq⟩ | heq
    · rw [heq]
      exact ⟨h.1.accept hallowed htimes hold, h.2.accept hroom⟩
    · rw [heq]
      exact ⟨h.1.later hallowed, h.2⟩
  | clean expirationDuration now => exact ⟨h.1.sweep hallowed.1 hallowed.2, h.2⟩

/-- **The limiter is an exact sliding window**: after any calls and rounds of the cleaner, a call is
let through if and only if fewer than the maximal number of the same key were let through in the
last seconds, and no window of that length holds more. -/
theorem exact_window (cfg : Limits) (hmax : ∀ key, 1 ≤ cfg.maxRequestNum key) (start : ℤ)
    (es : List Event) (hes : Along (step cfg) (Allowed cfg) (.init start) es) :
    (∀ key now, (run (step cfg) (.init start) es).last ≤ now →
      ((request (run (step cfg) (.init start) es).store key (cfg.maxRequestNum key)
          (cfg.duration key) now).1 = true ↔
        recent cfg (run (step cfg) (.init start) es) key now < cfg.maxRequestNum key)) ∧
    ∀ key w, inWindow cfg (run (step cfg) (.init start) es) key w ≤ cfg.maxRequestNum key := by
  have hinit : WithinLimits cfg (.init start) := fun _ _ => Nat.zero_le _
  have hrun := inv_run (I := fun s => Knows cfg s ∧ WithinLimits cfg s)
    (fun s e => keeps_step hmax) ⟨knows_init start, hinit⟩ hes
  exact ⟨fun key now hnow => hrun.1.accepted_iff (hmax key) hnow, hrun.2⟩

/-- Two calls in ten seconds. -/
def twoCalls : Limits := ⟨fun _ => 2, fun _ => 10⟩

/-- The third call is refused, and the fourth comes after the queue was taken. -/
def fourCalls : List Event :=
  [.request "a" 0, .request "a" 3, .request "a" 9, .clean 10 14, .request "a" 14]

theorem exact_window_fourCalls :
    (∀ key now, (run (step twoCalls) (.init 0) fourCalls).last ≤ now →
      ((request (run (step twoCalls) (.init 0) fourCalls).store key (twoCalls.maxRequestNum key)
          (twoCalls.duration key) now).1 = true ↔
        recent twoCalls (run (step twoCalls) (.init 0) fourCalls) key now <
          twoCalls.maxRequestNum key)) ∧
    ∀ key w, inWindow twoCalls (run (step twoCalls) (.init 0) fourCalls) key w ≤
      twoCalls.maxRequestNum key :=
  exact_window twoCalls (fun _ => Nat.le_succ 1) 0 fourCalls
    ⟨le_refl (0 : ℤ), show (0 : ℤ) ≤ 3 by decide, show (3 : ℤ) ≤ 9 by decide,
      ⟨show (9 : ℤ) ≤ 14 by decide, fun _ => le_refl (10 : ℤ)⟩, le_refl (14 : ℤ), trivial⟩

end NewApiPool.SlidingWindow
