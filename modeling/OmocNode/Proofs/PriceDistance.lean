import OmocNode.Helpers
import OmocNode.Proofs.DecimalRounding
import OmocNode.Proofs.Outcomes

/-! When two prices can be compared. Their distance is divided by the smaller
one in doubles, which fails for a zero and for a quotient beyond the doubles. -/

namespace OmocNode.Proofs.PriceDistance
open Decimal DecimalRounding Outcomes

section Nearest
variable {q : ℚ}

private theorem unit_pos (q : ℚ) : 0 < max (quantum 2 53 q) (2 ^ (-1074 : ℤ)) :=
  lt_max_of_lt_left (quantum_pos (by decide) 53 q)

theorem nearest_zero : PyFloat.nearest 0 = 0 := roundTo_zero _

theorem nearest_nonneg (nonneg : 0 ≤ q) : 0 ≤ PyFloat.nearest q := by
  have zero := @multiple_le_roundTo _ q 0 (unit_pos q) (by rwa [Int.cast_zero, zero_mul])
  rwa [Int.cast_zero, zero_mul] at zero

/-- From `2 ^ exponent` on, up to twice as much, doubles are `2 ^ (exponent - 52)` apart. -/
private theorem unit_of_log {exponent : ℤ} (normal : -1022 ≤ exponent) (nonneg : 0 ≤ q) (log : Int.log 2 q = exponent) :
    max (quantum 2 53 q) (2 ^ (-1074 : ℤ)) = 2 ^ (exponent - 52) := by
  have shift : exponent + 1 - (53 : ℕ) = exponent - 52 := by push_cast; ring
  rw [quantum, abs_of_nonneg nonneg, log, shift]
  exact max_eq_left (zpow_le_zpow_right₀ (by norm_num) (by omega))

/-- What rounds to a double is less than half a unit beyond the largest one. -/
theorem nearest_lt_iff (nonneg : 0 ≤ q) : PyFloat.nearest q < 2 ^ 1024 ↔ q < 2 ^ 1024 - 2 ^ 970 := by
  have positive : (0 : ℚ) < 2 ^ (971 : ℤ) := by positivity
  have top : (2 : ℚ) ^ 1024 = 2 ^ 53 * 2 ^ (971 : ℤ) := by
    rw [← zpow_natCast, ← zpow_natCast, ← zpow_add₀ (by norm_num)]
    rfl
  have half : (2 : ℚ) ^ 970 = 1 / 2 * 2 ^ (971 : ℤ) := by
    have next : (2 : ℚ) ^ (971 : ℤ) = 2 ^ 970 * 2 := by
      rw [← zpow_natCast, ← zpow_add_one₀ (by norm_num)]
      rfl
    rw [next, mul_comm, mul_assoc, mul_one_div_cancel (by norm_num), mul_one]
  rw [top, half]
  clear top half
  rcases lt_trichotomy (Int.log 2 q) 1023 with lower | same | upper
  · -- A value below the last binade rounds to its start at most.
    have small : max (quantum 2 53 q) (2 ^ (-1074 : ℤ)) ≤ (2 : ℚ) ^ (971 : ℤ) := by
      rw [quantum, abs_of_nonneg nonneg]
      exact max_le (zpow_le_zpow_right₀ (by norm_num) (by omega)) (zpow_le_zpow_right₀ (by norm_num) (by norm_num))
    have below : q < 2 ^ 52 * 2 ^ (971 : ℤ) := by
      apply (Int.lt_zpow_succ_log_self (by decide : 1 < 2) q).trans_le
      rw [← zpow_natCast, ← zpow_add₀ (by norm_num)]
      exact zpow_le_zpow_right₀ (by norm_num) (by omega)
    have rounded := roundTo_le_add (unit_pos q) (q := q)
    rw [← PyFloat.nearest] at rounded
    generalize (2 : ℚ) ^ (971 : ℤ) = unit at *
    constructor <;> intro <;> linarith
  · have grid := unit_of_log (by norm_num) nonneg same
    have last := @roundTo_lt_next_iff _ q (2 ^ 53 - 1) positive (by decide)
    have whole : ((2 ^ 53 - 1 : ℤ) : ℚ) = 2 ^ 53 - 1 := by norm_num
    rw [whole, sub_add_cancel, show (2 : ℚ) ^ 53 - 1 + 1 / 2 = 2 ^ 53 - 1 / 2 by ring] at last
    rw [PyFloat.nearest, grid, ← sub_mul]
    exact last
  · -- A value beyond the last binade is at least `2 ^ 52` of its units, and so is what it rounds to.
    have grid := unit_of_log (by omega) nonneg rfl
    have start : (2 : ℚ) ^ 52 * 2 ^ (Int.log 2 q - 52) = 2 ^ Int.log 2 q := by
      rw [← zpow_natCast 2 52, ← zpow_add₀ two_ne_zero, Nat.cast_ofNat, add_sub_cancel]
    have large : (2 : ℚ) ^ 53 * 2 ^ (971 : ℤ) ≤ 2 ^ Int.log 2 q := by
      rw [← zpow_natCast 2 53, ← zpow_add₀ two_ne_zero]
      exact zpow_le_zpow_right₀ one_le_two (by omega)
    have below : (2 : ℚ) ^ Int.log 2 q ≤ q := by
      apply Int.zpow_log_le_self (by decide)
      by_contra none
      rw [Int.log_of_right_le_zero 2 (not_lt.mp none)] at upper
      omega
    have rounds : 2 ^ Int.log 2 q ≤ PyFloat.nearest q := by
      rw [PyFloat.nearest, grid, ← start]
      have whole : ((2 ^ 52 : ℤ) : ℚ) = 2 ^ 52 := by norm_num
      rw [← whole]
      apply multiple_le_roundTo (by positivity)
      rw [whole, start]
      exact below
    have half : (0 : ℚ) ≤ 1 / 2 * 2 ^ (971 : ℤ) := by positivity
    exact iff_of_false (not_lt.mpr (large.trans rounds)) (not_lt.mpr ((sub_le_self _ half).trans (large.trans below)))

end Nearest

/-- The distance between the prices, over the smaller one, rounds to a double. -/
def Comparable (price1 price2 : Int) : Prop := |price1 - price2| < |min price1 price2| * (2 ^ 1024 - 2 ^ 970)

instance (price1 price2 : Int) : Decidable (Comparable price1 price2) := inferInstanceAs (Decidable (_ < _))

variable {price1 price2 : Int} {delta : PyFloat}

theorem nonzero_of_comparable (comparable : Comparable price1 price2) : min price1 price2 ≠ 0 := by
  intro zero
  rw [Comparable, zero, abs_zero, zero_mul] at comparable
  exact absurd comparable (not_lt.mpr (abs_nonneg _))

private theorem quotient_nonneg : (0 : ℚ) ≤ ((|price1 - price2| : Int) : ℚ) / ((|min price1 price2| : Int) : ℚ) := by positivity

private theorem comparable_iff (nonzero : min price1 price2 ≠ 0) : Comparable price1 price2 ↔
    |PyFloat.nearest ((|price1 - price2| : Int) / (|min price1 price2| : Int))| < 2 ^ 1024 := by
  have positive : (0 : ℚ) < (|min price1 price2| : Int) := by exact_mod_cast abs_pos.mpr nonzero
  rw [abs_of_nonneg (nearest_nonneg quotient_nonneg), nearest_lt_iff quotient_nonneg, div_lt_iff₀ positive, Comparable, mul_comm]
  exact_mod_cast Iff.rfl

/-- How far apart two prices are that can be compared. -/
theorem priceDelta_eq (comparable : Comparable price1 price2) : Helpers.priceDelta price1 price2 =
    .ok ((PyFloat.finite (PyFloat.nearest ((|price1 - price2| : Int) / (|min price1 price2| : Int)))).times 100) := by
  have nonzero := nonzero_of_comparable comparable
  rw [Helpers.priceDelta, PyFloat.divide, if_neg (abs_ne_zero.mpr nonzero), if_pos ((comparable_iff nonzero).mp comparable)]
  rfl

theorem priceDelta_raises (incomparable : ¬Comparable price1 price2) : Helpers.priceDelta price1 price2 =
    .error (if min price1 price2 = 0 then .zeroDivisionError else .overflowError) := by
  rw [Helpers.priceDelta, PyFloat.divide]
  by_cases zero : min price1 price2 = 0
  · rw [if_pos (abs_eq_zero.mpr zero), if_pos zero]
    rfl
  · rw [if_neg (abs_ne_zero.mpr zero), if_neg (mt (comparable_iff zero).mpr incomparable), if_neg zero]
    rfl

/-- Two prices are measured exactly when they can be compared. -/
theorem priceDelta_ok_iff : (∃ delta, Helpers.priceDelta price1 price2 = .ok delta) ↔ Comparable price1 price2 := by
  constructor
  · intro measured
    by_contra incomparable
    obtain ⟨delta, measured⟩ := measured
    rw [priceDelta_raises incomparable] at measured
    cases measured
  · exact fun comparable => ⟨_, priceDelta_eq comparable⟩

/-- A distance is a number that is not negative, or infinite if it is too large as a percentage. -/
theorem priceDelta_cases (measured : Helpers.priceDelta price1 price2 = .ok delta) :
    (∃ number, 0 ≤ number ∧ delta = .finite number) ∨ delta = .infinity := by
  rw [priceDelta_eq (priceDelta_ok_iff.mp ⟨delta, measured⟩)] at measured
  obtain rfl := Except.ok.inj measured
  have nonneg : 0 ≤ rounded 2 53 (PyFloat.nearest ((|price1 - price2| : Int) / (|min price1 price2| : Int)) * (100 : ℕ)) :=
    rounded_nonneg (by decide) 53 (mul_nonneg (nearest_nonneg quotient_nonneg) (Nat.cast_nonneg _)) (by decide)
  simp only [PyFloat.times, PyFloat.ofRat]
  split
  · exact Or.inl ⟨_, nonneg, rfl⟩
  next large =>
    rw [if_pos]
    · exact Or.inr rfl
    · by_contra none
      rw [le_antisymm (not_lt.mp none) nonneg] at large
      exact large (by norm_num)

/-- No distance is below zero, whatever it is rounded to. -/
theorem not_less_of_priceDelta (measured : Helpers.priceDelta price1 price2 = .ok delta) {threshold : ℚ} (all : threshold ≤ 0) :
    delta.lt (.finite threshold) = false := by
  rcases priceDelta_cases measured with ⟨number, nonneg, rfl⟩ | rfl
  · exact decide_eq_false (not_lt.mpr (all.trans nonneg))
  · rfl

theorem close_iff (measured : Helpers.priceDelta price1 price2 = .ok delta) {most : ℚ} :
    PyFloat.lt (.finite most) delta = false ↔ ∃ number, delta = .finite number ∧ number ≤ most := by
  rcases priceDelta_cases measured with ⟨number, _, rfl⟩ | rfl
  · simp [PyFloat.lt]
  · simp [PyFloat.lt]

theorem priceDelta_self {price : Int} (nonzero : price ≠ 0) : Helpers.priceDelta price price = .ok (.finite 0) := by
  have comparable : Comparable price price := by
    rw [Comparable, sub_self, abs_zero, min_self]
    exact mul_pos (abs_pos.mpr nonzero) (by decide +kernel)
  rw [priceDelta_eq comparable, sub_self, abs_zero, Int.cast_zero, zero_div, nearest_zero, PyFloat.times, zero_mul, PyFloat.ofRat,
    rounded_zero, abs_zero, if_pos (by positivity)]

end OmocNode.Proofs.PriceDistance
