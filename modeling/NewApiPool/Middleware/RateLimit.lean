import Mathlib.Algebra.Order.Group.Unbundled.Int
import NewApiPool.Lib.Runs
import NewApiPool.Lib.Window

/-!
# The limit of successful requests

A user may have so many successful requests in so many minutes, where `0` is no limit. There are
two implementations. With Redis, a success is put in a list that is kept as long as the limit,
and a request is let through if the list is short or its last entry is old; this is exactly the
limit (`NewApiPool.RateLimit.redisDecisions_eq`). In memory, the check would record the request
that it lets through, and so it is made on a key of its own: there every request counts that was
let through, by the second in which it arrived, and the limit `0` is taken for `1`. The two agree
as long as this makes no difference (`NewApiPool.RateLimit.limiters_agree_iff`).

Times are in milliseconds, by a clock whose zone does not change its offset. Redis answers every
command.
-/

namespace NewApiPool.RateLimit

open EventSystem

/-! ### The settings -/

/-- The settings that the limit depends on: the group's counts, the minutes, and for how many
seconds the limiter in memory keeps a key, which is fixed by the first limit that uses it. -/
structure LimitConfig where
  userId : ℤ
  durationMinutes : ℤ
  totalMaxCount : ℕ
  successMaxCount : ℕ
  expirationDuration : ℤ

namespace LimitConfig

variable (cfg : LimitConfig)

/-- The duration in seconds. -/
def duration : ℤ := cfg.durationMinutes * 60

def totalKey : String := "new-api-pool:rateLimit:MRRL:" ++ toString cfg.userId

def successKey : String := "new-api-pool:rateLimit:MRRLS:" ++ toString cfg.userId

/-- The key of the check. -/
def checkKey : String := cfg.successKey ++ "_check"

theorem checkKey_ne_successKey : cfg.checkKey ≠ cfg.successKey := by
  intro h
  have hlen := congrArg String.length h
  rw [checkKey, String.length_append] at hlen
  have hcheck : "_check".length = 6 := by decide
  omega

end LimitConfig

/-- A request: when it arrives and ends, whether it is a success, and when the cleaner runs
meanwhile. -/
structure Request where
  arrive : ℤ
  finish : ℤ
  ok : Bool
  cleaned : List ℤ
deriving DecidableEq, Repr

/-- A request from its arrival to its end, or a round of the cleaner between two requests. -/
inductive Event where
  | request (r : Request)
  | clean (now : ℤ)
deriving DecidableEq, Repr

/-! ### The limiter in memory -/

/-- The store of `InMemoryRateLimiter`: for a key the seconds of its requests, oldest first. -/
abbrev Store : Type := String → Option (List ℤ)

def request (store : Store) (key : String) (maxRequestNum : ℕ) (duration now : ℤ) :
    Bool × Store :=
  match store key with
  | none => (true, Function.update store key (some [now]))
  | some queue =>
    if queue.length < maxRequestNum then
      (true, Function.update store key (some (queue ++ [now])))
    else match queue.head? with
      -- no queue is empty: the source would stop with an index out of range
      | none => (false, store)
      | some old =>
        if duration ≤ now - old then
          (true, Function.update store key (some (queue.tail ++ [now])))
        else (false, store)

/-- A round of `clearExpiredItems`, which is started for a positive duration only. -/
def clearExpiredItems (expirationDuration now : ℤ) (store : Store) : Store :=
  if expirationDuration ≤ 0 then store
  else fun key => (store key).filter fun queue =>
    match queue.getLast? with
    | none => false
    | some last => decide (now - last ≤ expirationDuration)

/-- The round itself, for the seconds that are left of the duration. -/
def sweep (expirationDuration now : ℤ) (store : Store) : Store :=
  fun key => (store key).filter fun queue =>
    match queue.getLast? with
    | none => false
    | some last => decide (now - last ≤ expirationDuration)

theorem clearExpiredItems_of_pos {expirationDuration now : ℤ} {store : Store}
    (h : 0 < expirationDuration) :
    clearExpiredItems expirationDuration now store = sweep expirationDuration now store :=
  if_neg (not_le.mpr h)

section Memory

variable (cfg : LimitConfig)

/-- What `memoryRateLimitHandler` does before the request is served: whether it is. -/
def memoryCheck (store : Store) (now : ℤ) : Bool × Store :=
  let total := if 0 < cfg.totalMaxCount
    then request store cfg.totalKey cfg.totalMaxCount cfg.duration (now / 1000) else (true, store)
  if total.1 then request total.2 cfg.checkKey cfg.successMaxCount cfg.duration (now / 1000)
  else total

/-- What it does after a request that was served. -/
def memoryRecord (store : Store) (now : ℤ) (ok : Bool) : Store :=
  if ok then (request store cfg.successKey cfg.successMaxCount cfg.duration (now / 1000)).2
  else store

/-- The rounds of the cleaner at some times. -/
def cleanStore (store : Store) (times : List ℤ) : Store :=
  times.foldl (fun store now => clearExpiredItems cfg.expirationDuration (now / 1000) store) store

def memoryRateLimitHandler (store : Store) (r : Request) : Bool × Store :=
  let checked := memoryCheck cfg store r.arrive
  let store' := cleanStore cfg checked.2 r.cleaned
  (checked.1, if checked.1 then memoryRecord cfg store' r.finish r.ok else store')

def memoryStep (store : Store) : Event → Option Bool × Store
  | .request r =>
    (some (memoryRateLimitHandler cfg store r).1, (memoryRateLimitHandler cfg store r).2)
  | .clean now => (none, cleanStore cfg store [now])

end Memory

/-! ### The limiter with Redis -/

/-- A list of Redis with the time at which it expires, if it does. -/
structure RedisList where
  items : List ℤ
  expiresAt : Option ℤ
deriving DecidableEq, Repr

namespace RedisList

variable (l : RedisList)

/-- What there is of the list: nothing, once it has expired. -/
def live (now : ℤ) : RedisList :=
  if l.expiresAt.any fun e => decide (e ≤ now) then ⟨[], none⟩ else l

def lLen (now : ℤ) : ℕ := (l.live now).items.length

/-- `LINDEX key -1`. -/
def lastIndex (now : ℤ) : Option ℤ := (l.live now).items.getLast?

def lPush (now value : ℤ) : RedisList :=
  { l.live now with items := value :: (l.live now).items }

/-- `LTRIM key 0 (count - 1)`, for a positive count. -/
def lTrim (now : ℤ) (count : ℕ) : RedisList :=
  { l.live now with items := (l.live now).items.take count }

/-- `EXPIRE`, which does nothing without the key. -/
def expire (now seconds : ℤ) : RedisList :=
  if (l.live now).items = [] then l.live now
  else { l.live now with expiresAt := some (now + seconds * 1000) }

end RedisList

/-- `checkRedisRateLimit`. A list without a last entry has no time that can be parsed. -/
def checkRedisRateLimit (l : RedisList) (maxCount : ℕ) (duration now : ℤ) :
    Except String Bool × RedisList :=
  if maxCount = 0 then (.ok true, l)
  else if l.lLen now < maxCount then (.ok true, l)
  else match l.lastIndex now with
    | none => (.error "rate_limit_check_failed", l)
    | some oldTime =>
      if (now - oldTime).tdiv 1000 < duration then (.ok false, l.expire now duration)
      else (.ok true, l)

def recordRedisRequest (l : RedisList) (maxCount : ℕ) (duration now : ℤ) : RedisList :=
  if maxCount = 0 then l
  else ((l.lPush now now).lTrim now maxCount).expire now duration

/-- The token bucket of `rate_limit.lua`: its tokens and its time in seconds, if there is one. -/
def tokenBucket (bucket : Option (ℤ × ℤ)) (requested rate capacity now : ℤ) :
    Bool × Option (ℤ × ℤ) :=
  let tokens := match bucket with
    | none => capacity
    | some (tokens, lastTime) => min capacity (tokens + (now - lastTime) * rate)
  if requested ≤ tokens then (true, some (tokens - requested, now)) else (false, some (tokens, now))

/-- The two keys of a user. -/
structure RedisState where
  success : RedisList
  total : Option (ℤ × ℤ)
deriving DecidableEq, Repr

section Redis

variable (cfg : LimitConfig)

/-- What `redisRateLimitHandler` does before the request is served: whether it is. -/
def redisCheck (s : RedisState) (now : ℤ) : Bool × RedisState :=
  match checkRedisRateLimit s.success cfg.successMaxCount cfg.duration now with
  | (.error _, success) => (false, { s with success := success })
  | (.ok false, success) => (false, { s with success := success })
  | (.ok true, success) =>
    if 0 < cfg.totalMaxCount then
      let bucket := tokenBucket s.total cfg.duration cfg.totalMaxCount
        (cfg.totalMaxCount * cfg.duration) (now / 1000)
      (bucket.1, ⟨success, bucket.2⟩)
    else (true, { s with success := success })

/-- `redisRateLimitHandler`. A request that was refused has a status of 429 or 500. -/
def redisRateLimitHandler (s : RedisState) (r : Request) : Bool × RedisState :=
  let checked := redisCheck cfg s r.arrive
  (checked.1, if checked.1 && r.ok then
    { checked.2 with
      success := recordRedisRequest checked.2.success cfg.successMaxCount cfg.duration r.finish }
    else checked.2)

def redisStep (s : RedisState) : Event → Option Bool × RedisState
  | .request r =>
    (some (redisRateLimitHandler cfg s r).1, (redisRateLimitHandler cfg s r).2)
  | .clean _ => (none, s)

end Redis

/-! ### The limit itself -/

/-- What has happened: when the successful requests ended, and in which seconds the requests came
that were let through, as far as the cleaner has left them; both newest first. -/
structure History where
  successes : List ℤ
  attempts : List ℤ
deriving DecidableEq, Repr

namespace History

variable (cfg : LimitConfig) (h : History)

/-- The successful requests of the last seconds. -/
def recentSuccesses (now : ℤ) : ℕ :=
  h.successes.countP fun t => decide (now - t < cfg.duration * 1000)

/-- The requests of the last seconds, failed ones included. -/
def recentAttempts (now : ℤ) : ℕ :=
  h.attempts.countP fun t => decide (now / 1000 - t < cfg.duration)

/-- **The limit**: fewer than so many successful requests in the last seconds. -/
def accepts (now : ℤ) : Bool :=
  decide (cfg.successMaxCount = 0 ∨ h.recentSuccesses cfg now < cfg.successMaxCount)

/-- A round of the cleaner: it takes all requests or none. -/
def clean (now : ℤ) : History :=
  if cfg.expirationDuration ≤ 0 then h
  else { h with attempts :=
    if h.attempts.head?.all fun t => decide (now / 1000 - t ≤ cfg.expirationDuration)
      then h.attempts else [] }

/-- The history after a request that is let through or not. -/
def serve (r : Request) (accepted : Bool) : History :=
  let arrived : History :=
    if accepted then { h with attempts := r.arrive / 1000 :: h.attempts } else h
  let cleaned := r.cleaned.foldl (clean cfg) arrived
  if accepted && r.ok then { cleaned with successes := r.finish :: cleaned.successes } else cleaned

def next : Event → Option Bool × History
  | .request r => (some (h.accepts cfg r.arrive), h.serve cfg r (h.accepts cfg r.arrive))
  | .clean now => (none, h.clean cfg now)

def step (e : Event) : History := (h.next cfg e).2

end History

/-! ### Sequences of requests -/

/-- The requests follow on one another from some time on. -/
def Timed : ℤ → List Event → Prop
  | _, [] => True
  | last, .request r :: es => last ≤ r.arrive ∧ r.arrive ≤ r.finish ∧ Timed r.finish es
  | last, .clean _ :: es => Timed last es

instance decidableTimed : ∀ (last : ℤ) (es : List Event), Decidable (Timed last es)
  | _, [] => inferInstanceAs (Decidable True)
  | _, .request r :: es =>
    @instDecidableAnd _ _ _ (@instDecidableAnd _ _ _ (decidableTimed r.finish es))
  | last, .clean _ :: es => decidableTimed last es

/-- Which of the requests are let through. -/
def decisions {σ : Type} (step : σ → Event → Option Bool × σ) : σ → List Event → List Bool
  | _, [] => []
  | s, e :: es => (step s e).1.toList ++ decisions step (step s e).2 es

/-- **What the limit lets through.** -/
def limitDecisions (cfg : LimitConfig) (es : List Event) : List Bool :=
  decisions (History.next cfg) ⟨[], []⟩ es

def memoryDecisions (cfg : LimitConfig) (es : List Event) : List Bool :=
  decisions (memoryStep cfg) (fun _ => none) es

def redisDecisions (cfg : LimitConfig) (es : List Event) : List Bool :=
  decisions (redisStep cfg) ⟨⟨[], none⟩, none⟩ es

/-! ### The queue of a key -/

section Queue

variable {store : Store} {key : String} {maxRequestNum : ℕ} {duration now : ℤ} {times : List ℤ}

/-- The queue of a key that was let through at some times, newest first. -/
def queueOf (maxRequestNum : ℕ) (times : List ℤ) : Option (List ℤ) :=
  if times = [] then none else some (times.take (maxRequestNum - 1 + 1)).reverse

theorem queueOf_cons (maxRequestNum : ℕ) (t : ℤ) (times : List ℤ) :
    queueOf maxRequestNum (t :: times) =
      some ((t :: times).take (maxRequestNum - 1 + 1)).reverse :=
  if_neg (List.cons_ne_nil t times)

theorem recent_of_sorted {p : ℤ → Bool} (hmono : ∀ a b : ℤ, b ≤ a → p b = true → p a = true)
    (hsorted : times.Pairwise fun a b => b ≤ a) : Window.Recent p times :=
  hsorted.imp fun hab => hmono _ _ hab

/-- **What a request does to its queue**: it is let through, and put there, if fewer than the
maximal number came in the last seconds, where a maximum of `0` counts as `1`. -/
theorem request_eq (hqueue : store key = queueOf maxRequestNum times)
    (hsorted : times.Pairwise fun a b => b ≤ a) :
    request store key maxRequestNum duration now =
      if times.countP (fun t => decide (now - t < duration)) ≤ maxRequestNum - 1 then
        (true, Function.update store key (queueOf maxRequestNum (now :: times)))
      else (false, store) := by
  have hrecent : Window.Recent (fun t => decide (now - t < duration)) times :=
    recent_of_sorted (fun a b hab hb => by
      rw [decide_eq_true_eq] at hb ⊢
      omega) hsorted
  by_cases hempty : times = []
  · subst hempty
    have hnone : queueOf maxRequestNum [] = none := rfl
    rw [request, hqueue, hnone, queueOf_cons, List.countP_nil, if_pos (Nat.zero_le _)]
    simp
  have hlen : (times.take (maxRequestNum - 1 + 1)).reverse.length =
      min (maxRequestNum - 1 + 1) times.length := by
    rw [List.length_reverse, List.length_take]
  have hpos : 0 < times.length := List.length_pos_of_ne_nil hempty
  rw [request, hqueue, queueOf, if_neg hempty, queueOf_cons]
  dsimp only
  by_cases hfull : times.length < maxRequestNum
  · have hroom : times.length < maxRequestNum - 1 + 1 := by omega
    have hcount := List.countP_le_length (p := fun t => decide (now - t < duration)) (l := times)
    rw [if_pos (by omega), if_pos (by omega), Window.reverse_take_cons_of_lt hroom]
  · have hle : maxRequestNum - 1 < times.length := by omega
    obtain ⟨old, hold⟩ : ∃ old, times[maxRequestNum - 1]? = some old :=
      ⟨_, List.getElem?_eq_getElem hle⟩
    rw [if_neg (by omega), Window.head?_reverse_take_succ _ hle, hold,
      Window.reverse_take_cons_of_le hle]
    dsimp only
    have hcount := Window.lt_countP_iff hrecent (n := maxRequestNum - 1)
    simp only [hold, Option.some.injEq, exists_eq_left', decide_eq_true_eq] at hcount
    by_cases hold' : duration ≤ now - old
    · rw [if_pos hold', if_pos (by omega)]
    · rw [if_neg hold', if_neg (by omega)]

theorem request_ne {key' : String} (hkey : key' ≠ key) :
    (request store key maxRequestNum duration now).2 key' = store key' := by
  unfold request
  split
  · exact Function.update_of_ne hkey _ _
  split
  · exact Function.update_of_ne hkey _ _
  split
  · rfl
  split
  · exact Function.update_of_ne hkey _ _
  · rfl

theorem sweep_eq (now expirationDuration : ℤ) (hqueue : store key = queueOf maxRequestNum times) :
    sweep expirationDuration now store key = queueOf maxRequestNum
      (if times.head?.all (fun t => decide (now - t ≤ expirationDuration)) then times else []) := by
  rw [sweep, hqueue]
  cases times with
  | nil => rfl
  | cons t times =>
    have hlast : (((t :: times).take (maxRequestNum - 1 + 1)).reverse).getLast? = some t := by
      rw [List.getLast?_reverse, List.take_succ_cons, List.head?_cons]
    rw [queueOf_cons, Option.filter_some, hlast, List.head?_cons, Option.all_some]
    by_cases hstay : now - t ≤ expirationDuration
    · simp [hstay, queueOf_cons]
    · simp [hstay, queueOf]

/-- **What the cleaner does to a queue**: it leaves it or takes it. -/
theorem clearExpiredItems_eq (now expirationDuration : ℤ)
    (hqueue : store key = queueOf maxRequestNum times) :
    clearExpiredItems expirationDuration now store key = queueOf maxRequestNum
      (if expirationDuration ≤ 0 then times
        else if times.head?.all (fun t => decide (now - t ≤ expirationDuration)) then times
        else []) := by
  by_cases hpos : expirationDuration ≤ 0
  · rw [if_pos hpos, clearExpiredItems, if_pos hpos, hqueue]
  · rw [if_neg hpos, clearExpiredItems_of_pos (not_le.mp hpos), sweep_eq now _ hqueue]

end Queue

/-! ### What the limiter in memory counts -/

section MemoryRuns

variable {cfg : LimitConfig} {store : Store} {h : History} {last now : ℤ} {r : Request}

/-- The key of the check has the requests that were let through, by the second. -/
structure Remembers (cfg : LimitConfig) (last : ℤ) (store : Store) (h : History) : Prop where
  queue : store cfg.checkKey = queueOf cfg.successMaxCount h.attempts
  sorted : h.attempts.Pairwise fun a b => b ≤ a
  le : ∀ t ∈ h.attempts, t ≤ last / 1000

theorem Remembers.clean (hstore : Remembers cfg last store h) (now : ℤ) :
    Remembers cfg last (clearExpiredItems cfg.expirationDuration (now / 1000) store)
      (h.clean cfg now) := by
  have hqueue := clearExpiredItems_eq (now / 1000) cfg.expirationDuration hstore.queue
  unfold History.clean
  split
  · rename_i hoff
    rw [if_pos hoff] at hqueue
    exact ⟨hqueue, hstore.sorted, hstore.le⟩
  rename_i hon
  rw [if_neg hon] at hqueue
  refine ⟨hqueue, ?_, ?_⟩
  · dsimp only
    split
    · exact hstore.sorted
    · exact List.Pairwise.nil
  · dsimp only
    split
    · exact hstore.le
    · exact fun t ht => absurd ht List.not_mem_nil

theorem Remembers.cleanStore (hstore : Remembers cfg last store h) (times : List ℤ) :
    Remembers cfg last (cleanStore cfg store times) (times.foldl (History.clean cfg) h) := by
  induction times generalizing store h with
  | nil => exact hstore
  | cons now times ih => exact ih (hstore.clean now)

/-- Without a limit of all requests, the check is the request for its own key. -/
theorem memoryCheck_eq (htotal : cfg.totalMaxCount = 0) (hstore : Remembers cfg last store h) :
    memoryCheck cfg store now =
      if h.recentAttempts cfg now ≤ cfg.successMaxCount - 1 then
        (true, Function.update store cfg.checkKey
          (queueOf cfg.successMaxCount (now / 1000 :: h.attempts)))
      else (false, store) := by
  rw [memoryCheck, htotal]
  exact request_eq hstore.queue hstore.sorted

theorem memory_accepts (htotal : cfg.totalMaxCount = 0) (hstore : Remembers cfg last store h) :
    (memoryRateLimitHandler cfg store r).1 =
      decide (h.recentAttempts cfg r.arrive ≤ cfg.successMaxCount - 1) := by
  rw [memoryRateLimitHandler, memoryCheck_eq htotal hstore]
  split
  · rw [decide_eq_true ‹_›]
  · rw [decide_eq_false ‹_›]

theorem Remembers.record (hstore : Remembers cfg last store h) (now : ℤ) (ok : Bool) :
    Remembers cfg last (memoryRecord cfg store now ok) h := by
  refine ⟨?_, hstore.sorted, hstore.le⟩
  rw [← hstore.queue]
  cases ok with
  | false => rfl
  | true => exact request_ne cfg.checkKey_ne_successKey

theorem Remembers.mono (hstore : Remembers cfg last store h) (hle : last ≤ now) :
    Remembers cfg now store h :=
  ⟨hstore.queue, hstore.sorted, fun t ht => (hstore.le t ht).trans (by omega)⟩

/-- The successes are not what the key of the check is about. -/
theorem Remembers.successes (hstore : Remembers cfg last store h) (successes : List ℤ) :
    Remembers cfg last store { h with successes := successes } :=
  ⟨hstore.queue, hstore.sorted, hstore.le⟩

/-- **A request keeps the key of the check in step** with the requests that were let through. -/
theorem Remembers.serve (htotal : cfg.totalMaxCount = 0) (hstore : Remembers cfg last store h)
    (harrive : last ≤ r.arrive) (hfinish : r.arrive ≤ r.finish) :
    Remembers cfg r.finish (memoryRateLimitHandler cfg store r).2
      (h.serve cfg r (memoryRateLimitHandler cfg store r).1) := by
  have harrived := hstore.mono harrive
  rw [memoryRateLimitHandler, memoryCheck_eq htotal hstore]
  split
  · have hpushed : Remembers cfg r.arrive
        (Function.update store cfg.checkKey
          (queueOf cfg.successMaxCount (r.arrive / 1000 :: h.attempts)))
        { h with attempts := r.arrive / 1000 :: h.attempts } := by
      refine ⟨Function.update_self _ _ _, ?_, ?_⟩
      · exact List.pairwise_cons.mpr ⟨harrived.le, harrived.sorted⟩
      · intro t ht
        rcases List.mem_cons.mp ht with rfl | ht
        · exact le_rfl
        · exact harrived.le t ht
    have hcleaned := ((hpushed.cleanStore r.cleaned).record r.finish r.ok).mono hfinish
    cases hok : r.ok with
    | false =>
      rw [hok] at hcleaned
      simpa [History.serve, hok] using hcleaned
    | true =>
      rw [hok] at hcleaned
      simpa [History.serve, hok] using hcleaned.successes _
  · simpa [History.serve] using (harrived.cleanStore r.cleaned).mono hfinish

/-- **When the key of the check does no harm**: as many requests were let through in the last
seconds as there may be successes – where `0` counts as `1` – exactly if there were as many
successes, and `0` is not the limit. -/
def Harmless (cfg : LimitConfig) (h : History) : Event → Prop
  | .request r => cfg.successMaxCount - 1 < h.recentAttempts cfg r.arrive ↔
      cfg.successMaxCount ≠ 0 ∧ cfg.successMaxCount ≤ h.recentSuccesses cfg r.arrive
  | .clean _ => True

instance decidableHarmless (cfg : LimitConfig) (h : History) : ∀ e, Decidable (Harmless cfg h e)
  | .request _ => inferInstanceAs (Decidable (_ ↔ _))
  | .clean _ => inferInstanceAs (Decidable True)

theorem memory_accepts_iff (htotal : cfg.totalMaxCount = 0) (hstore : Remembers cfg last store h) :
    (memoryRateLimitHandler cfg store r).1 = h.accepts cfg r.arrive ↔
      Harmless cfg h (.request r) := by
  rw [memory_accepts htotal hstore, History.accepts, decide_eq_decide, Harmless]
  omega

/-- **The limiter in memory is the limit** exactly if the key of the check never does harm. -/
theorem memoryDecisions_iff (htotal : cfg.totalMaxCount = 0) {es : List Event}
    (hstore : Remembers cfg last store h) (hes : Timed last es) :
    decisions (memoryStep cfg) store es = decisions (History.next cfg) h es ↔
      Along (History.step cfg) (Harmless cfg) h es := by
  induction es generalizing last store h with
  | nil => exact iff_of_true rfl trivial
  | cons e es ih =>
    cases e with
    | clean now =>
      rw [along_cons]
      refine (ih (hstore.clean now) hes).trans ?_
      exact ⟨fun hrest => ⟨trivial, hrest⟩, And.right⟩
    | request r =>
      obtain ⟨harrive, hfinish, hes⟩ := hes
      rw [along_cons, ← memory_accepts_iff htotal hstore]
      have hserved := hstore.serve htotal harrive hfinish
      constructor
      · intro heq
        obtain ⟨hhead, hrest⟩ := List.cons_eq_cons.mp heq
        refine ⟨hhead, (ih ?_ hes).mp hrest⟩
        have hhead' : (memoryRateLimitHandler cfg store r).1 = h.accepts cfg r.arrive := hhead
        rw [hhead'] at hserved
        exact hserved
      · rintro ⟨hhead, hrest⟩
        rw [hhead] at hserved
        exact List.cons_eq_cons.mpr ⟨hhead, (ih hserved hes).mpr hrest⟩

end MemoryRuns

/-! ### What the list of Redis holds -/

section RedisRuns

variable {cfg : LimitConfig} {l : RedisList} {s : RedisState} {h : History} {last now : ℤ}
  {r : Request}

/-- The list has the newest successes, up to the limit, and what it has lost is old: it does not
expire before its entries are. -/
structure Listed (cfg : LimitConfig) (last : ℤ) (l : RedisList) (successes : List ℤ) : Prop where
  items : ∃ newer older, successes = newer ++ older ∧ l.items = newer.take cfg.successMaxCount ∧
    (∀ t ∈ older, t + cfg.duration * 1000 ≤ last) ∧
    ∀ e, l.expiresAt = some e → ∀ t ∈ newer, t + cfg.duration * 1000 ≤ e
  sorted : successes.Pairwise fun a b => b ≤ a
  le : ∀ t ∈ successes, t ≤ last

theorem live_of_not_expired {items : List ℤ} :
    (⟨items, (l.live now).expiresAt⟩ : RedisList).live now =
      ⟨items, (l.live now).expiresAt⟩ := by
  by_cases hgone : (l.expiresAt.any fun e => decide (e ≤ now)) = true
  · have hlive : l.live now = ⟨[], none⟩ := if_pos hgone
    rw [hlive]
    rfl
  · have hlive : l.live now = l := if_neg hgone
    rw [hlive]
    exact if_neg hgone

/-- **Time passes**, and the list may be gone. -/
theorem Listed.live {successes : List ℤ} (hl : Listed cfg last l successes) (hle : last ≤ now) :
    Listed cfg now (l.live now) successes := by
  obtain ⟨newer, older, rfl, hitems, holder, hexpires⟩ := hl.items
  refine ⟨?_, hl.sorted, fun t ht => (hl.le t ht).trans hle⟩
  have holder' (t : ℤ) (ht : t ∈ older) : t + cfg.duration * 1000 ≤ now :=
    (holder t ht).trans hle
  unfold RedisList.live
  split
  · rename_i hgone
    obtain ⟨e, he⟩ : ∃ e, l.expiresAt = some e := by
      cases he : l.expiresAt with
      | none => rw [he] at hgone; cases hgone
      | some e => exact ⟨e, rfl⟩
    have hnow : e ≤ now := by
      rw [he] at hgone
      exact of_decide_eq_true hgone
    refine ⟨[], newer ++ older, rfl, List.take_nil.symm, fun t ht => ?_, fun _ _ t ht => ?_⟩
    · rcases List.mem_append.mp ht with ht | ht
      · exact (hexpires e he t ht).trans hnow
      · exact holder' t ht
    · cases ht
  · exact ⟨newer, older, rfl, hitems, holder', hexpires⟩

/-- **The check of the list is the limit.** -/
theorem Listed.check (hl : Listed cfg last l h.successes) (hle : last ≤ now)
    (hlimit : cfg.successMaxCount ≠ 0) :
    (checkRedisRateLimit l cfg.successMaxCount cfg.duration now).1 = .ok (h.accepts cfg now) := by
  have hlive := hl.live hle
  obtain ⟨newer, older, hsplit, hitems, holder, -⟩ := hlive.items
  have hrecent : Window.Recent (fun t => decide (now - t < cfg.duration * 1000)) h.successes :=
    recent_of_sorted (fun a b hab hb => by
      rw [decide_eq_true_eq] at hb ⊢
      omega) hlive.sorted
  have hold : older.countP (fun t => decide (now - t < cfg.duration * 1000)) = 0 := by
    rw [List.countP_eq_zero]
    intro t ht
    have := holder t ht
    rw [decide_eq_true_eq]
    omega
  have hcount : h.recentSuccesses cfg now =
      newer.countP fun t => decide (now - t < cfg.duration * 1000) := by
    rw [History.recentSuccesses, hsplit, List.countP_append, hold, Nat.add_zero]
  obtain ⟨n, hn⟩ := Nat.exists_eq_succ_of_ne_zero hlimit
  rw [checkRedisRateLimit, if_neg hlimit, RedisList.lLen, RedisList.lastIndex, hitems,
    List.length_take, History.accepts]
  have hlen := List.countP_le_length (p := fun t => decide (now - t < cfg.duration * 1000))
    (l := newer)
  by_cases hshort : newer.length < cfg.successMaxCount
  · rw [if_pos (by omega), decide_eq_true (.inr (by omega))]
  · have hlt : n < newer.length := by omega
    have hnewest : h.successes[n]? = some newer[n] := by
      rw [hsplit, List.getElem?_append_left hlt, List.getElem?_eq_getElem hlt]
    have hwindow := Window.lt_countP_iff hrecent (n := n)
    simp only [hnewest, Option.some.injEq, exists_eq_left', decide_eq_true_eq] at hwindow
    have hpast := hlive.le newer[n] (List.mem_of_getElem? hnewest)
    have hseconds : (now - newer[n]).tdiv 1000 < cfg.duration ↔
        now - newer[n] < cfg.duration * 1000 := by
      rw [Int.tdiv_eq_ediv_of_nonneg (by omega)]
      omega
    rw [if_neg (by omega), hn, Window.getLast?_take_succ n hlt, List.getElem?_eq_getElem hlt]
    dsimp only
    have hsucc : n.succ ≠ 0 := n.succ_ne_zero
    by_cases hin : (now - newer[n]).tdiv 1000 < cfg.duration
    · have hmany : n < h.recentSuccesses cfg now := hwindow.mpr (hseconds.mp hin)
      rw [if_pos hin, decide_eq_false]
      omega
    · have hfew : ¬n < h.recentSuccesses cfg now := fun hmany =>
        hin (hseconds.mpr (hwindow.mp hmany))
      rw [if_neg hin, decide_eq_true]
      omega

theorem Listed.expire {successes : List ℤ} (hl : Listed cfg last l successes) (hle : last ≤ now) :
    Listed cfg now (l.expire now cfg.duration) successes := by
  have hlive := hl.live hle
  unfold RedisList.expire
  split
  · exact hlive
  obtain ⟨newer, older, hsplit, hitems, holder, -⟩ := hlive.items
  refine ⟨⟨newer, older, hsplit, hitems, holder, fun e he t ht => ?_⟩, hlive.sorted, hlive.le⟩
  have := hlive.le t (hsplit ▸ List.mem_append_left _ ht)
  cases he
  omega

theorem Listed.checked {successes : List ℤ} (hl : Listed cfg last l successes)
    (hle : last ≤ now) :
    Listed cfg now (checkRedisRateLimit l cfg.successMaxCount cfg.duration now).2 successes := by
  have hkeep : Listed cfg now l successes := by
    obtain ⟨newer, older, hsplit, hitems, holder, hexpires⟩ := hl.items
    exact ⟨⟨newer, older, hsplit, hitems, fun t ht => (holder t ht).trans hle, hexpires⟩,
      hl.sorted, fun t ht => (hl.le t ht).trans hle⟩
  unfold checkRedisRateLimit
  split
  · exact hkeep
  split
  · exact hkeep
  split
  · exact hkeep
  split
  · exact hl.expire hle
  · exact hkeep

/-- **A success is put in front of the list.** -/
theorem Listed.record {successes : List ℤ} (hl : Listed cfg last l successes) (hle : last ≤ now)
    (hlimit : cfg.successMaxCount ≠ 0) :
    Listed cfg now (recordRedisRequest l cfg.successMaxCount cfg.duration now)
      (now :: successes) := by
  have hlive := hl.live hle
  obtain ⟨newer, older, hsplit, hitems, holder, -⟩ := hlive.items
  have htaken : (now :: (l.live now).items).take cfg.successMaxCount =
      (now :: newer).take cfg.successMaxCount := by
    rw [hitems, Window.take_cons_take]
  have hne : (now :: newer).take cfg.successMaxCount ≠ [] := by
    obtain ⟨n, hn⟩ := Nat.exists_eq_succ_of_ne_zero hlimit
    rw [hn, List.take_succ_cons]
    exact List.cons_ne_nil _ _
  have hle' (t : ℤ) (ht : t ∈ now :: successes) : t ≤ now := by
    rcases List.mem_cons.mp ht with rfl | ht
    · exact le_rfl
    · exact hlive.le t ht
  rw [recordRedisRequest, if_neg hlimit, RedisList.lPush, RedisList.lTrim, live_of_not_expired,
    RedisList.expire, live_of_not_expired, htaken, if_neg hne]
  refine ⟨⟨now :: newer, older, by rw [hsplit, List.cons_append], rfl, holder,
    fun e he t ht => ?_⟩, List.pairwise_cons.mpr ⟨hlive.le, hlive.sorted⟩, hle'⟩
  have := hle' t (by
    rw [hsplit, ← List.cons_append]
    exact List.mem_append_left _ ht)
  cases he
  omega

theorem History.clean_successes : (h.clean cfg now).successes = h.successes := by
  unfold History.clean
  split <;> rfl

theorem History.serve_successes (accepted : Bool) :
    (h.serve cfg r accepted).successes =
      if accepted && r.ok then r.finish :: h.successes else h.successes := by
  have hfold (times : List ℤ) (h : History) :
      (times.foldl (History.clean cfg) h).successes = h.successes := by
    induction times generalizing h with
    | nil => rfl
    | cons now times ih => rw [List.foldl_cons, ih, History.clean_successes]
  unfold History.serve
  cases accepted <;> cases r.ok <;> simp [hfold]

/-- The check of both keys is that of the list, without a limit of all requests. -/
theorem redisCheck_eq (htotal : cfg.totalMaxCount = 0) {b : Bool}
    (hcheck : (checkRedisRateLimit s.success cfg.successMaxCount cfg.duration now).1 = .ok b) :
    redisCheck cfg s now = (b, { s with
      success := (checkRedisRateLimit s.success cfg.successMaxCount cfg.duration now).2 }) := by
  unfold redisCheck
  rcases hpair : checkRedisRateLimit s.success cfg.successMaxCount cfg.duration now with ⟨res, l'⟩
  rw [hpair] at hcheck
  obtain rfl : res = .ok b := hcheck
  cases b with
  | false => rfl
  | true => exact if_neg (by omega)

/-- **A request is let through by the list as by the limit**, and leaves them in step. -/
theorem redis_serve (htotal : cfg.totalMaxCount = 0)
    (hs : cfg.successMaxCount ≠ 0 → Listed cfg last s.success h.successes)
    (harrive : last ≤ r.arrive) (hfinish : r.arrive ≤ r.finish) :
    (redisRateLimitHandler cfg s r).1 = h.accepts cfg r.arrive ∧
      (cfg.successMaxCount ≠ 0 → Listed cfg r.finish (redisRateLimitHandler cfg s r).2.success
        (h.serve cfg r (h.accepts cfg r.arrive)).successes) := by
  have hcheck : (checkRedisRateLimit s.success cfg.successMaxCount cfg.duration r.arrive).1 =
      .ok (h.accepts cfg r.arrive) := by
    by_cases hlimit : cfg.successMaxCount = 0
    · rw [checkRedisRateLimit, if_pos hlimit, History.accepts, decide_eq_true (.inl hlimit)]
    · exact (hs hlimit).check harrive hlimit
  rw [redisRateLimitHandler, redisCheck_eq htotal hcheck, History.serve_successes]
  refine ⟨rfl, fun hlimit => ?_⟩
  have hchecked := (hs hlimit).checked harrive
  dsimp only
  split
  · exact hchecked.record hfinish hlimit
  · obtain ⟨newer, older, hsplit, hitems, holder, hexpires⟩ := hchecked.items
    exact ⟨⟨newer, older, hsplit, hitems, fun t ht => (holder t ht).trans hfinish, hexpires⟩,
      hchecked.sorted, fun t ht => (hchecked.le t ht).trans hfinish⟩

theorem redisDecisions_of_listed (htotal : cfg.totalMaxCount = 0) {es : List Event}
    (hs : cfg.successMaxCount ≠ 0 → Listed cfg last s.success h.successes) (hes : Timed last es) :
    decisions (redisStep cfg) s es = decisions (History.next cfg) h es := by
  induction es generalizing last s h with
  | nil => rfl
  | cons e es ih =>
    cases e with
    | clean now =>
      refine ih (fun hlimit => ?_) hes
      rw [History.next, History.clean_successes]
      exact hs hlimit
    | request r =>
      obtain ⟨harrive, hfinish, hes⟩ := hes
      obtain ⟨hhead, hserved⟩ := redis_serve htotal hs harrive hfinish
      exact List.cons_eq_cons.mpr ⟨hhead, ih hserved hes⟩

end RedisRuns

/-! ### The two limiters -/

/-- **With Redis, the limit is kept** in every sequence of requests. -/
theorem redisDecisions_eq (cfg : LimitConfig) (htotal : cfg.totalMaxCount = 0) {start : ℤ}
    {es : List Event} (hes : Timed start es) : redisDecisions cfg es = limitDecisions cfg es :=
  redisDecisions_of_listed htotal (fun _ => ⟨⟨[], [], rfl, List.take_nil.symm,
    fun _ ht => absurd ht List.not_mem_nil, fun _ _ _ ht => absurd ht List.not_mem_nil⟩,
    List.Pairwise.nil, fun _ ht => absurd ht List.not_mem_nil⟩) hes

/-- **The two limiters let the same requests through, those of the limit**, exactly if the key of
the check never does harm. -/
theorem limiters_agree_iff (cfg : LimitConfig) (htotal : cfg.totalMaxCount = 0) {start : ℤ}
    {es : List Event} (hes : Timed start es) :
    memoryDecisions cfg es = limitDecisions cfg es ∧
        redisDecisions cfg es = limitDecisions cfg es ↔
      Along (History.step cfg) (Harmless cfg) ⟨[], []⟩ es := by
  have hstart : Remembers cfg start (fun _ => none) ⟨[], []⟩ :=
    ⟨rfl, List.Pairwise.nil, fun _ ht => absurd ht List.not_mem_nil⟩
  rw [and_iff_left (redisDecisions_eq cfg htotal hes)]
  exact memoryDecisions_iff htotal hstart hes

section Sample

/-- A limit for user 1, of so many successes in a minute. -/
def limitOf (successMaxCount : ℕ) : LimitConfig where
  userId := 1
  durationMinutes := 1
  totalMaxCount := 0
  successMaxCount := successMaxCount
  expirationDuration := 1200

/-- A request that arrives at some second and takes half of it. -/
def requestAt (second : ℤ) (ok : Bool) : Event :=
  .request ⟨second * 1000, second * 1000 + 500, ok, []⟩

/-- Two successes, one too many, and one after the minute. -/
def twoSuccesses : List Event :=
  [requestAt 0 true, requestAt 20 true, requestAt 40 true, requestAt 70 true]

theorem limiters_agree_twoSuccesses :
    memoryDecisions (limitOf 2) twoSuccesses = limitDecisions (limitOf 2) twoSuccesses ∧
      redisDecisions (limitOf 2) twoSuccesses = limitDecisions (limitOf 2) twoSuccesses := by
  have htimed : Timed 0 twoSuccesses := by decide
  exact (limiters_agree_iff (limitOf 2) rfl htimed).mpr (by decide +kernel)

/-- **A failed request counts in memory**: the next one is refused there. **No limit is a limit
of one**: so is the second request without a limit. -/
theorem limiters_disagree :
    Timed 0 [requestAt 0 false, requestAt 10 true] ∧
      memoryDecisions (limitOf 1) [requestAt 0 false, requestAt 10 true] = [true, false] ∧
      redisDecisions (limitOf 1) [requestAt 0 false, requestAt 10 true] = [true, true] ∧
    Timed 0 [requestAt 0 true, requestAt 10 true] ∧
      memoryDecisions (limitOf 0) [requestAt 0 true, requestAt 10 true] = [true, false] ∧
      redisDecisions (limitOf 0) [requestAt 0 true, requestAt 10 true] = [true, true] := by
  decide +kernel

end Sample

end NewApiPool.RateLimit
