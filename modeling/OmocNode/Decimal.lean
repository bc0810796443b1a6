import Mathlib.Data.Int.Log
import Mathlib.Data.Rat.Floor

/-! Arithmetic rounded to a fixed number of significant digits, halves to even.
Every operation is the exact rational one followed by a single rounding. -/

namespace OmocNode.Decimal

/-- The nearest integer; halfway between two, the even one. -/
def nearestEven (q : ℚ) : ℤ :=
  let excess := q - ⌊q⌋
  if excess < 1 / 2 ∨ excess = 1 / 2 ∧ ⌊q⌋ % 2 = 0 then ⌊q⌋ else ⌊q⌋ + 1

/-- The nearest multiple of a unit. -/
def roundTo (unit q : ℚ) : ℚ := nearestEven (q / unit) * unit

/-- One unit in the last of the significant digits of `q`. -/
def quantum (base digits : ℕ) (q : ℚ) : ℚ := (base : ℚ) ^ (Int.log base |q| + 1 - digits)

def rounded (base digits : ℕ) (q : ℚ) : ℚ := roundTo (quantum base digits q) q

end OmocNode.Decimal
