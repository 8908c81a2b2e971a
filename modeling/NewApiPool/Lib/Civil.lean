import Mathlib.Data.Int.ConditionallyCompleteOrder
import Mathlib.Data.Int.Notation
import Mathlib.Order.Monotone.Basic
import Mathlib.Algebra.Order.Group.Int
import Mathlib.Order.SuccPred.Basic

/-!
# The civil calendar

Months are counted one after the other, as `12 * year + month` with months from 0, and days from 1
January 1970. Years start in March here, so that the day that may be missing is the last one of a
year.
-/

namespace Civil

/-- The first day of a month. -/
def monthStart (k : ℤ) : ℤ :=
  365 * ((k - 2) / 12) + (k - 2) / 12 / 4 - (k - 2) / 12 / 100 + (k - 2) / 12 / 400 +
    (153 * ((k - 2) % 12) + 2) / 5 - 719468

/-- The month of a day: 400 years have 146097 days, and the last one of every part of them may be
longer. -/
def monthOf (day : ℤ) : ℤ :=
  let r := (day + 719468) % 146097
  let century := min (r / 36524) 3
  let r := r - 36524 * century
  let four := r / 1461
  let r := r - 1461 * four
  let year := min (r / 365) 3
  let r := r - 365 * year
  12 * (400 * ((day + 719468) / 146097) + 100 * century + 4 * four + year) + (5 * r + 2) / 153 + 2

/-- The 29th of February and the 1st of March 2000. -/
example : monthOf 11016 = 12 * 2000 + 1 ∧ monthOf 11017 = 12 * 2000 + 2 := by decide

end Civil
