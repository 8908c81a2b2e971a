import Mathlib.Algebra.Order.Ring.Int
import Mathlib.Data.Int.ConditionallyCompleteOrder
import Mathlib.Order.ConditionallyCompleteLattice.Indexed
import Mathlib.Tactic.Ring
import NewApiPool.Lib.TokenBucket
import NewApiPool.Middleware.RateLimit

/-!
# Both limits of a user, with requests at once

With Redis, a request has to pass two limits: there may be so many successes in the last minutes,
and a token bucket holds back all requests, failed ones included. The requests of a user may
overlap: each is checked when it comes, and a success is recorded when it ends, with others in
between. Whatever the order of these steps, a request is let through exactly if so many successes
have not been recorded in the last minutes and every window that ends with it has no more requests
than the bucket makes good in the window, besides a full bucket
(`NewApiPool.TotalLimit.redisCheck_iff`).

The bucket is full with the requests of one window, and so twice as many may come in a window as
the message about the limit says, but one (`NewApiPool.TotalLimit.admittedIn_lt`).
-/

namespace NewApiPool.TotalLimit

open EventSystem RateLimit

/-- A request comes, or one that was let through has ended with a success. -/
inductive Event where
  | arrive (now : ℤ)
  | succeed (now : ℤ)
deriving DecidableEq, Repr

def Event.time : Event → ℤ
  | .arrive now => now
  | .succeed now => now

/-- The two keys of the user, when successes were recorded, and in which seconds the requests came
that were let through; both newest first. -/
structure State where
  redis : RedisState
  successes : List ℤ
  admitted : List ℤ
  last : ℤ

def State.init (start : ℤ) : State := ⟨⟨⟨[], none⟩, none⟩, [], [], start⟩

section Steps

variable (cfg : LimitConfig)

def step (s : State) : Event → State
  | .arrive now =>
    let checked := redisCheck cfg s.redis now
    ⟨checked.2, s.successes, if checked.1 then now / 1000 :: s.admitted else s.admitted, now⟩
  | .succeed now =>
    let success := recordRedisRequest s.redis.success cfg.successMaxCount cfg.duration now
    ⟨{ s.redis with success := success }, now :: s.successes, s.admitted, now⟩

/-- The clock does not go back. -/
def Allowed (s : State) (e : Event) : Prop := s.last ≤ e.time

instance decidableAllowed (s : State) (e : Event) : Decidable (Allowed s e) :=
  inferInstanceAs (Decidable (_ ≤ _))

/-- How many requests were let through from some second to another. -/
def admittedIn (s : State) (w u : ℤ) : ℕ :=
  s.admitted.countP fun t => decide (w ≤ t ∧ t ≤ u)

/-- **The limit of the successes**: fewer than so many were recorded in the last seconds. -/
def SuccessRoom (s : State) (now : ℤ) : Prop :=
  cfg.successMaxCount = 0 ∨
    s.successes.countP (fun t => decide (now - t < cfg.duration * 1000)) < cfg.successMaxCount

/-- **The limit of all requests**: with one more of them, no window that ends now has more than a
full bucket and what the bucket gains in the window. A request takes as many tokens as the
duration has seconds, and the bucket gains as many in a second as there may be requests. -/
def TotalRoom (s : State) (now : ℤ) : Prop :=
  cfg.totalMaxCount = 0 ∨ ∀ w ≤ now / 1000,
    (admittedIn s w (now / 1000) + 1) * cfg.duration ≤
      cfg.totalMaxCount * (cfg.duration + (now / 1000 - w))

/-! ### The bucket -/

/-- The calls of the bucket, from those that got to it: when, and whether they were let through. -/
def calls (log : List (ℤ × Bool)) : List (ℤ × ℤ) :=
  log.map fun e => (e.1, if e.2 then cfg.duration else 0)

/-- What the bucket has gained by a second. -/
def supply (second : ℤ) : ℤ := cfg.totalMaxCount * second

/-- The tokens there are in a second. -/
def tokens (log : List (ℤ × Bool)) (second : ℤ) : ℤ :=
  TokenBucket.level (supply cfg) (cfg.totalMaxCount * cfg.duration) (calls cfg log) second

/-- The bucket after some calls. -/
def bucketOf : List (ℤ × Bool) → Option (ℤ × ℤ)
  | [] => none
  | e :: log => some (tokens cfg log e.1 - (if e.2 then cfg.duration else 0), e.1)

end Steps

variable {cfg : LimitConfig} {log : List (ℤ × Bool)} {s : State} {now second w u : ℤ} {e : Event}

/-- **A call of the bucket**, which is let through if there are enough tokens. -/
theorem tokenBucket_bucketOf (cfg : LimitConfig) (log : List (ℤ × Bool)) (second : ℤ) :
    tokenBucket (bucketOf cfg log) cfg.duration cfg.totalMaxCount
        (cfg.totalMaxCount * cfg.duration) second =
      (decide (cfg.duration ≤ tokens cfg log second),
        bucketOf cfg ((second, decide (cfg.duration ≤ tokens cfg log second)) :: log)) := by
  have hcall (tokens : ℤ) :
      (if cfg.duration ≤ tokens then (true, some (tokens - cfg.duration, second))
        else (false, some (tokens, second))) = (decide (cfg.duration ≤ tokens),
        some (tokens - (if decide (cfg.duration ≤ tokens) then cfg.duration else 0), second)) := by
    by_cases henough : cfg.duration ≤ tokens
    · rw [if_pos henough, decide_eq_true henough, if_pos rfl]
    · rw [if_neg henough, decide_eq_false henough, if_neg Bool.false_ne_true, sub_zero]
  cases log with
  | nil => exact hcall _
  | cons e log =>
    have htokens : tokens cfg (e :: log) second = min (cfg.totalMaxCount * cfg.duration)
        (tokens cfg log e.1 - (if e.2 then cfg.duration else 0) +
          (second - e.1) * cfg.totalMaxCount) := by
      rw [mul_comm (second - e.1), mul_sub]
      rfl
    rw [bucketOf, bucketOf, htokens]
    exact hcall _

theorem monotone_supply (cfg : LimitConfig) : Monotone (supply cfg) := by
  intro a b hab
  exact mul_le_mul_of_nonneg_left hab (Int.natCast_nonneg _)

theorem duration_nonneg (hduration : 0 ≤ cfg.durationMinutes) : 0 ≤ cfg.duration :=
  mul_nonneg hduration (by decide)

theorem calls_nonneg (hduration : 0 ≤ cfg.durationMinutes) (log : List (ℤ × Bool)) :
    ∀ e ∈ calls cfg log, 0 ≤ e.2 := by
  intro e he
  obtain ⟨c, -, rfl⟩ := List.mem_map.mp he
  dsimp only
  split
  · exact duration_nonneg hduration
  · exact le_rfl

/-- What was taken out in a window, by the requests that were let through in it. -/
theorem taken_calls (log : List (ℤ × Bool)) (w u : ℤ) :
    TokenBucket.taken w u (calls cfg log) =
      ((log.filter Prod.snd).map Prod.fst).countP (fun t => decide (w ≤ t ∧ t ≤ u)) *
        cfg.duration := by
  induction log with
  | nil => exact (zero_mul _).symm
  | cons e log ih =>
    obtain ⟨t, ok⟩ := e
    by_cases hin : w ≤ t ∧ t ≤ u
    · refine (TokenBucket.taken_cons hin).trans ?_
      rw [show List.map _ log = calls cfg log from rfl, ih]
      cases ok with
      | false => exact zero_add _
      | true =>
        rw [List.filter_cons_of_pos rfl, List.map_cons, List.countP_cons,
          if_pos (decide_eq_true hin), if_pos rfl]
        push_cast
        ring
    · refine (TokenBucket.taken_cons_of_not hin).trans ?_
      rw [show List.map _ log = calls cfg log from rfl, ih]
      cases ok with
      | false => rfl
      | true =>
        rw [List.filter_cons_of_pos rfl, List.map_cons, List.countP_cons,
          if_neg (by rwa [decide_eq_true_eq]), Nat.add_zero]

/-! ### What is kept -/

/-- **The keys know what has happened**: the list has the newest successes, the bucket is that of
the requests that got to it, and no window had more of them than it may. -/
structure Knows (cfg : LimitConfig) (s : State) : Prop where
  listed : cfg.successMaxCount ≠ 0 → Listed cfg s.last s.redis.success s.successes
  bucket : 0 < cfg.totalMaxCount → ∃ log : List (ℤ × Bool),
    (log.filter Prod.snd).map Prod.fst = s.admitted ∧ s.redis.total = bucketOf cfg log ∧
      TokenBucket.Until (s.last / 1000) (calls cfg log) ∧
      TokenBucket.Within (supply cfg) (cfg.totalMaxCount * cfg.duration) (calls cfg log)

theorem knows_init (hduration : 0 ≤ cfg.durationMinutes) (start : ℤ) :
    Knows cfg (.init start) where
  listed _ := ⟨⟨[], [], rfl, List.take_nil.symm, fun _ ht => absurd ht List.not_mem_nil,
    fun _ _ _ ht => absurd ht List.not_mem_nil⟩, List.Pairwise.nil,
    fun _ ht => absurd ht List.not_mem_nil⟩
  bucket _ := ⟨[], rfl, rfl, ⟨List.Pairwise.nil, fun _ he => absurd he List.not_mem_nil⟩,
    TokenBucket.within_nil (monotone_supply cfg)
      (mul_nonneg (Int.natCast_nonneg _) (duration_nonneg hduration))⟩

/-- The list knows whether there is room for a success. -/
theorem Knows.check (h : Knows cfg s) (hnow : s.last ≤ now) :
    ∃ room : Bool, (room = true ↔ SuccessRoom cfg s now) ∧
      (checkRedisRateLimit s.redis.success cfg.successMaxCount cfg.duration now).1 = .ok room := by
  refine ⟨(⟨s.successes, []⟩ : History).accepts cfg now, decide_eq_true_iff, ?_⟩
  by_cases hlimit : cfg.successMaxCount = 0
  · rw [checkRedisRateLimit, if_pos hlimit, History.accepts, decide_eq_true (.inl hlimit)]
  · exact (h.listed hlimit).check hnow hlimit

theorem Knows.checked (h : Knows cfg s) (hnow : s.last ≤ now) (hlimit : cfg.successMaxCount ≠ 0) :
    Listed cfg now (checkRedisRateLimit s.redis.success cfg.successMaxCount cfg.duration now).2
      s.successes :=
  (h.listed hlimit).checked hnow

/-- The bucket knows whether there is room for one more request. -/
theorem totalRoom_iff (hduration : 0 ≤ cfg.durationMinutes) (htotal : 0 < cfg.totalMaxCount)
    (hlog : (log.filter Prod.snd).map Prod.fst = s.admitted)
    (huntil : TokenBucket.Until (now / 1000) (calls cfg log)) :
    TotalRoom cfg s now ↔ cfg.duration ≤ tokens cfg log (now / 1000) := by
  rw [tokens, TokenBucket.le_level_iff (monotone_supply cfg) huntil (calls_nonneg hduration log),
    TotalRoom, or_iff_right htotal.ne']
  refine forall_congr' fun w => imp_congr_right fun _ => ?_
  rw [taken_calls, hlog, admittedIn, add_one_mul, mul_add (cfg.totalMaxCount : ℤ), mul_sub]
  rfl

/-- **A request comes**: what is checked, and what is known then. -/
theorem Knows.exists_check (h : Knows cfg s) (hduration : 0 ≤ cfg.durationMinutes)
    (hnow : s.last ≤ now) :
    ∃ ok redis, redisCheck cfg s.redis now = (ok, redis) ∧
      (ok = true ↔ SuccessRoom cfg s now ∧ TotalRoom cfg s now) ∧
      Knows cfg ⟨redis, s.successes, if ok then now / 1000 :: s.admitted else s.admitted, now⟩ := by
  obtain ⟨room, hroom, hcheck⟩ := h.check hnow
  have hsecond : s.last / 1000 ≤ now / 1000 := Int.ediv_le_ediv (by decide) hnow
  have hchecked := h.checked hnow
  unfold redisCheck
  rcases hpair : checkRedisRateLimit s.redis.success cfg.successMaxCount cfg.duration now with
    ⟨res, success⟩
  rw [hpair] at hcheck hchecked
  obtain rfl : res = .ok room := hcheck
  cases room with
  | false =>
    have hfull : ¬SuccessRoom cfg s now := fun hroom' => Bool.false_ne_true (hroom.mpr hroom')
    refine ⟨false, _, rfl, iff_of_false Bool.false_ne_true fun hboth => hfull hboth.1, hchecked,
      fun htotal => ?_⟩
    obtain ⟨log, hlog, hbucket, huntil, hwithin⟩ := h.bucket htotal
    exact ⟨log, hlog, hbucket, huntil.mono hsecond, hwithin⟩
  | true =>
    have hsuccess : SuccessRoom cfg s now := hroom.mp rfl
    dsimp only
    by_cases htotal : 0 < cfg.totalMaxCount
    · obtain ⟨log, hlog, hbucket, huntil, hwithin⟩ := h.bucket htotal
      have hlater := huntil.mono hsecond
      have hiff := totalRoom_iff hduration htotal hlog hlater
      rw [if_pos htotal, hbucket, tokenBucket_bucketOf]
      by_cases henough : cfg.duration ≤ tokens cfg log (now / 1000)
      · rw [decide_eq_true henough]
        refine ⟨true, _, rfl, iff_of_true rfl ⟨hsuccess, hiff.mpr henough⟩, hchecked, fun _ =>
          ⟨(now / 1000, true) :: log, ?_, rfl, hlater.cons, ?_⟩⟩
        · rw [List.filter_cons_of_pos rfl, List.map_cons, hlog, if_pos rfl]
        · exact hwithin.cons (monotone_supply cfg) hlater (calls_nonneg hduration log) henough
      · rw [decide_eq_false henough]
        refine ⟨false, _, rfl, iff_of_false Bool.false_ne_true fun hboth => henough
          (hiff.mp hboth.2), hchecked, fun _ =>
          ⟨(now / 1000, false) :: log, hlog, rfl, hlater.cons, fun w u hu => ?_⟩⟩
        have hold := hwithin w u hu
        rw [taken_calls] at hold ⊢
        exact hold
    · rw [if_neg htotal]
      have hnone : cfg.totalMaxCount = 0 := Nat.eq_zero_of_not_pos htotal
      exact ⟨true, _, rfl, iff_of_true rfl ⟨hsuccess, .inl hnone⟩, hchecked,
        fun hpos => absurd hpos htotal⟩

theorem Knows.arrive (h : Knows cfg s) (hduration : 0 ≤ cfg.durationMinutes)
    (hnow : s.last ≤ now) :
    ((redisCheck cfg s.redis now).1 = true ↔ SuccessRoom cfg s now ∧ TotalRoom cfg s now) ∧
      Knows cfg (step cfg s (.arrive now)) := by
  obtain ⟨ok, redis, heq, hok, hknows⟩ := h.exists_check hduration hnow
  rw [step, heq]
  exact ⟨hok, hknows⟩

/-- **A request has ended with a success.** -/
theorem Knows.succeed (h : Knows cfg s) (hnow : s.last ≤ now) :
    Knows cfg (step cfg s (.succeed now)) where
  listed hlimit := (h.listed hlimit).record hnow hlimit
  bucket htotal := by
    obtain ⟨log, hlog, hbucket, huntil, hwithin⟩ := h.bucket htotal
    exact ⟨log, hlog, hbucket, huntil.mono (Int.ediv_le_ediv (by decide) hnow), hwithin⟩

theorem keeps_step (hduration : 0 ≤ cfg.durationMinutes) (h : Knows cfg s)
    (hallowed : Allowed s e) : Knows cfg (step cfg s e) := by
  cases e with
  | arrive now => exact (h.arrive hduration hallowed).2
  | succeed now => exact h.succeed hallowed

theorem knows_run (hduration : 0 ≤ cfg.durationMinutes) {start : ℤ} {es : List Event}
    (hes : Along (step cfg) Allowed (.init start) es) :
    Knows cfg (run (step cfg) (.init start) es) :=
  inv_run (fun _ _ => keeps_step hduration) (knows_init hduration start) hes

/-! ### All runs -/

/-- **Both limits are kept exactly**, however the requests of the user overlap. -/
theorem redisCheck_iff (cfg : LimitConfig) (hduration : 0 ≤ cfg.durationMinutes) {start now : ℤ}
    {es : List Event} (hes : Along (step cfg) Allowed (.init start) es)
    (hnow : (run (step cfg) (.init start) es).last ≤ now) :
    (redisCheck cfg (run (step cfg) (.init start) es).redis now).1 = true ↔
      SuccessRoom cfg (run (step cfg) (.init start) es) now ∧
        TotalRoom cfg (run (step cfg) (.init start) es) now :=
  ((knows_run hduration hes).arrive hduration hnow).1

/-- **Fewer than twice the limit** are let through in any window of the duration. -/
theorem admittedIn_lt (cfg : LimitConfig) (hduration : 0 < cfg.durationMinutes)
    (htotal : 0 < cfg.totalMaxCount) {start : ℤ} {es : List Event}
    (hes : Along (step cfg) Allowed (.init start) es) (w : ℤ) :
    admittedIn (run (step cfg) (.init start) es) w (w + cfg.duration - 1) <
      2 * cfg.totalMaxCount := by
  obtain ⟨log, hlog, -, -, hwithin⟩ := (knows_run hduration.le hes).bucket htotal
  have hpos : 0 < cfg.duration := by
    rw [LimitConfig.duration]
    omega
  have hwindow := hwithin w (w + cfg.duration - 1) (by omega)
  rw [taken_calls, hlog, supply, supply] at hwindow
  have hcount : ((admittedIn (run (step cfg) (.init start) es) w (w + cfg.duration - 1) : ℕ) : ℤ) *
      cfg.duration < (2 * cfg.totalMaxCount : ℤ) * cfg.duration := by
    calc _ ≤ (cfg.totalMaxCount : ℤ) * cfg.duration +
          (cfg.totalMaxCount * (w + cfg.duration - 1) - cfg.totalMaxCount * w) := hwindow
      _ = 2 * cfg.totalMaxCount * cfg.duration - cfg.totalMaxCount := by ring
      _ < _ := by
        have : (0 : ℤ) < cfg.totalMaxCount := by exact_mod_cast htotal
        omega
  exact_mod_cast lt_of_mul_lt_mul_right hcount hpos.le

section Sample

/-- Two requests a minute, and five successes. -/
def twoRequests : LimitConfig where
  userId := 1
  durationMinutes := 1
  totalMaxCount := 2
  successMaxCount := 5
  expirationDuration := 1200

/-- Two requests use the bucket up while none of them has ended, and another one comes when it has
the tokens for it again. -/
def overlapping : List Event :=
  [.arrive 0, .arrive 1000, .succeed 2000, .arrive 3000, .arrive 31000, .succeed 40000]

theorem along_overlapping : Along (step twoRequests) Allowed (.init 0) overlapping := by
  decide +kernel

theorem redisCheck_overlapping :
    (redisCheck twoRequests (run (step twoRequests) (.init 0) overlapping).redis 50000).1 = true ↔
      SuccessRoom twoRequests (run (step twoRequests) (.init 0) overlapping) 50000 ∧
        TotalRoom twoRequests (run (step twoRequests) (.init 0) overlapping) 50000 :=
  redisCheck_iff twoRequests (by decide) along_overlapping (by decide +kernel)

/-- Three requests in one minute. -/
theorem admittedIn_overlapping :
    admittedIn (run (step twoRequests) (.init 0) overlapping) 0 (0 + twoRequests.duration - 1) = 3 ∧
    admittedIn (run (step twoRequests) (.init 0) overlapping) 0 (0 + twoRequests.duration - 1) <
      2 * twoRequests.totalMaxCount :=
  ⟨by decide +kernel, admittedIn_lt twoRequests (by decide) (by decide) along_overlapping 0⟩

end Sample

end NewApiPool.TotalLimit
