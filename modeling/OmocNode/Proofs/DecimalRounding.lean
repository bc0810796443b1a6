import OmocNode.Decimal
import Mathlib.Algebra.Order.Field.Power
import Mathlib.Tactic.Linarith
import Mathlib.Tactic.Ring

/-! Rounding to significant digits keeps order. -/

namespace OmocNode.Proofs.DecimalRounding
open Decimal

theorem floor_le_nearestEven (q : ℚ) : ⌊q⌋ ≤ nearestEven q := by
  simp only [nearestEven]
  split <;> omega

theorem nearestEven_le_floor_add_one (q : ℚ) : nearestEven q ≤ ⌊q⌋ + 1 := by
  simp only [nearestEven]
  split <;> omega

theorem nearestEven_close (q : ℚ) : |(nearestEven q : ℚ) - q| ≤ 1 / 2 := by
  have below := Int.floor_le q
  have above := Int.lt_floor_add_one q
  simp only [nearestEven]
  rw [abs_le]
  split
  next down =>
    have half : q - ⌊q⌋ ≤ 1 / 2 := down.elim le_of_lt fun tie => tie.1.le
    constructor <;> linarith
  next up =>
    have half : 1 / 2 ≤ q - ⌊q⌋ := not_lt.mp fun less => up (Or.inl less)
    push_cast
    constructor <;> linarith

theorem nearestEven_mono {p q : ℚ} (le : p ≤ q) : nearestEven p ≤ nearestEven q := by
  rcases (Int.floor_mono le).lt_or_eq with less | same
  · calc nearestEven p ≤ ⌊p⌋ + 1 := nearestEven_le_floor_add_one p
      _ ≤ ⌊q⌋ := less
      _ ≤ nearestEven q := floor_le_nearestEven q
  · simp only [nearestEven, same]
    split
    · split <;> omega
    next upper =>
      -- Nothing above the middle of the same unit interval rounds down.
      rw [if_neg]
      intro upperHalf
      rcases upperHalf with less | ⟨half, even⟩
      · exact upper (Or.inl (by linarith))
      · rcases lt_or_eq_of_le (show p - ⌊q⌋ ≤ 1 / 2 by linarith) with less | equal
        · exact upper (Or.inl less)
        · exact upper (Or.inr ⟨equal, even⟩)

theorem nearestEven_intCast (n : ℤ) : nearestEven (n : ℚ) = n := by simp [nearestEven]

/-- Halves go to the even neighbour on either side of zero. -/
theorem nearestEven_neg (q : ℚ) : nearestEven (-q) = -nearestEven q := by
  by_cases whole : (⌊q⌋ : ℚ) = q
  · rw [← whole, ← Int.cast_neg, nearestEven_intCast, nearestEven_intCast]
  · have below : ((⌊q⌋ : ℤ) : ℚ) < q := lt_of_le_of_ne (Int.floor_le q) whole
    have above : q < ⌊q⌋ + 1 := Int.lt_floor_add_one q
    have other : ⌊-q⌋ = -⌊q⌋ - 1 := by
      rw [Int.floor_eq_iff]
      push_cast
      constructor <;> linarith
    simp only [nearestEven, other]
    push_cast
    have mirrored : -q - (-(⌊q⌋ : ℚ) - 1) = 1 - (q - ⌊q⌋) := by ring
    rw [mirrored]
    have opposite : (1 - (q - (⌊q⌋ : ℚ)) < 1 / 2 ∨ 1 - (q - (⌊q⌋ : ℚ)) = 1 / 2 ∧ (-⌊q⌋ - 1) % 2 = 0) ↔
        ¬(q - (⌊q⌋ : ℚ) < 1 / 2 ∨ q - (⌊q⌋ : ℚ) = 1 / 2 ∧ ⌊q⌋ % 2 = 0) := by
      rcases lt_trichotomy (q - (⌊q⌋ : ℚ)) (1 / 2) with low | half | high
      · exact iff_of_false (by rintro (less | ⟨equal, _⟩) <;> linarith) (not_not.mpr (Or.inl low))
      · have middle : 1 - (q - (⌊q⌋ : ℚ)) = 1 / 2 := by linarith
        rw [middle, half]
        simp only [lt_irrefl, false_or, true_and]
        omega
      · exact iff_of_true (Or.inl (by linarith)) (by rintro (less | ⟨equal, _⟩) <;> linarith)
    by_cases down : q - (⌊q⌋ : ℚ) < 1 / 2 ∨ q - (⌊q⌋ : ℚ) = 1 / 2 ∧ ⌊q⌋ % 2 = 0
    · rw [if_pos down, if_neg (fun up => opposite.mp up down)]
      ring
    · rw [if_neg down, if_pos (opposite.mpr down)]
      ring

theorem roundTo_neg (unit q : ℚ) : roundTo unit (-q) = -roundTo unit q := by
  rw [roundTo, roundTo, neg_div, nearestEven_neg]
  push_cast
  ring

theorem roundTo_zero (unit : ℚ) : roundTo unit 0 = 0 := by
  have zero : nearestEven 0 = 0 := by exact_mod_cast nearestEven_intCast 0
  simp [roundTo, zero]

section Unit
variable {unit q : ℚ} {k : ℤ}

/-- A multiple of the unit bounds the rounded value as it bounds the value. -/
theorem roundTo_le_multiple (positive : 0 < unit) (le : q ≤ k * unit) : roundTo unit q ≤ k * unit := by
  have below := nearestEven_mono ((div_le_iff₀ positive).mpr le)
  rw [nearestEven_intCast] at below
  exact mul_le_mul_of_nonneg_right (by exact_mod_cast below) positive.le

theorem multiple_le_roundTo (positive : 0 < unit) (le : k * unit ≤ q) : k * unit ≤ roundTo unit q := by
  have above := nearestEven_mono ((le_div_iff₀ positive).mpr le)
  rw [nearestEven_intCast] at above
  exact mul_le_mul_of_nonneg_right (by exact_mod_cast above) positive.le

/-- What lies closer to a multiple than to the next one rounds to it at most. -/
theorem roundTo_le_of_lt_half (positive : 0 < unit) (less : q < (k + 1 / 2) * unit) : roundTo unit q ≤ k * unit := by
  have scaled : q / unit < k + 1 / 2 := (div_lt_iff₀ positive).mpr less
  have bound : nearestEven (q / unit) ≤ k := by
    have floor : ⌊q / unit⌋ ≤ k := by
      apply Int.lt_add_one_iff.mp
      rw [Int.floor_lt]
      push_cast
      linarith
    rcases floor.lt_or_eq with lower | same
    · exact (nearestEven_le_floor_add_one _).trans lower
    · simp only [nearestEven, same]
      rw [if_pos (Or.inl (by linarith))]
  exact mul_le_mul_of_nonneg_right (by exact_mod_cast bound) positive.le

/-- Halfway above an odd multiple and beyond, it is the next one at least. -/
theorem next_le_roundTo (positive : 0 < unit) (odd : k % 2 = 1) (half : (k + 1 / 2) * unit ≤ q) : (k + 1) * unit ≤ roundTo unit q := by
  have scaled : k + 1 / 2 ≤ q / unit := (le_div_iff₀ positive).mpr half
  have bound : k + 1 ≤ nearestEven (q / unit) := by
    have floor : k ≤ ⌊q / unit⌋ := Int.le_floor.mpr (by linarith)
    rcases floor.lt_or_eq with upper | same
    · exact (Int.add_one_le_iff.mpr upper).trans (floor_le_nearestEven _)
    · simp only [nearestEven, ← same]
      rw [if_neg]
      rintro (less | ⟨_, even⟩)
      · linarith
      · omega
  exact mul_le_mul_of_nonneg_right (by exact_mod_cast bound) positive.le

theorem roundTo_lt_next_iff (positive : 0 < unit) (odd : k % 2 = 1) : roundTo unit q < (k + 1) * unit ↔ q < (k + 1 / 2) * unit := by
  constructor
  · intro rounds
    by_contra beyond
    exact absurd rounds (not_lt.mpr (next_le_roundTo positive odd (not_lt.mp beyond)))
  · intro within
    exact (roundTo_le_of_lt_half positive within).trans_lt (by linarith)

theorem roundTo_le_add (positive : 0 < unit) : roundTo unit q ≤ q + unit := by
  have floor : (nearestEven (q / unit) : ℚ) ≤ q / unit + 1 := by
    have rounded : (nearestEven (q / unit) : ℚ) ≤ ⌊q / unit⌋ + 1 := by exact_mod_cast nearestEven_le_floor_add_one _
    exact rounded.trans (by linarith [Int.floor_le (q / unit)])
  calc roundTo unit q ≤ (q / unit + 1) * unit := mul_le_mul_of_nonneg_right floor positive.le
    _ = q + unit := by rw [add_mul, div_mul_cancel₀ q positive.ne', one_mul]

theorem roundTo_close (positive : 0 < unit) (q : ℚ) : |roundTo unit q - q| ≤ unit / 2 := by
  have same : roundTo unit q - q = (nearestEven (q / unit) - q / unit) * unit := by
    rw [sub_mul, div_mul_cancel₀ q positive.ne', roundTo]
  rw [same, abs_mul, abs_of_pos positive]
  calc |(nearestEven (q / unit) : ℚ) - q / unit| * unit ≤ 1 / 2 * unit := mul_le_mul_of_nonneg_right (nearestEven_close _) positive.le
    _ = unit / 2 := by ring

end Unit

theorem rounded_neg (base digits : ℕ) (q : ℚ) : rounded base digits (-q) = -rounded base digits q := by
  have unit : quantum base digits (-q) = quantum base digits q := by rw [quantum, quantum, abs_neg]
  rw [rounded, rounded, unit, roundTo_neg]

theorem rounded_zero (base digits : ℕ) : rounded base digits 0 = 0 := roundTo_zero _

section Significant
variable {base : ℕ} (proper : 1 < base) (digits : ℕ)
include proper

theorem quantum_pos (q : ℚ) : 0 < quantum base digits q :=
  zpow_pos (by exact_mod_cast (by omega : 0 < base)) _

private theorem rounded_le_next_power {q : ℚ} :
    rounded base digits q ≤ (base : ℚ) ^ (Int.log base |q| + 1) := by
  have positive : (0 : ℚ) < base := by exact_mod_cast (by omega : 0 < base)
  have whole : (base : ℚ) ^ (Int.log base |q| + 1) = ((base ^ digits : ℕ) : ℤ) * quantum base digits q := by
    rw [quantum]
    push_cast
    rw [← zpow_natCast, ← zpow_add₀ positive.ne']
    congr 1
    ring
  rw [whole]
  apply roundTo_le_multiple (quantum_pos proper digits q)
  rw [← whole]
  exact (le_abs_self q).trans (Int.lt_zpow_succ_log_self proper _).le

private theorem power_le_rounded {q : ℚ} (positive : 0 < q) (some : 0 < digits) :
    (base : ℚ) ^ Int.log base q ≤ rounded base digits q := by
  have large : (0 : ℚ) < base := by exact_mod_cast (by omega : 0 < base)
  have whole : (base : ℚ) ^ Int.log base q = ((base ^ (digits - 1) : ℕ) : ℤ) * quantum base digits q := by
    rw [quantum, abs_of_pos positive]
    push_cast
    rw [← zpow_natCast, ← zpow_add₀ large.ne']
    congr 1
    omega
  rw [whole]
  apply multiple_le_roundTo (quantum_pos proper digits q)
  rw [← whole]
  exact Int.zpow_log_le_self proper positive

/-- Relative to the value, the error is half a unit of the last digit at most. -/
theorem rounded_close {q : ℚ} (nonneg : 0 ≤ q) (some : 0 < digits) :
    |rounded base digits q - q| ≤ q / (2 * base ^ (digits - 1)) := by
  rcases nonneg.eq_or_lt with rfl | positive
  · simp [rounded_zero]
  have large : (0 : ℚ) < base := by exact_mod_cast (by omega : 0 < base)
  have whole : (base : ℚ) ^ Int.log base q = quantum base digits q * base ^ (digits - 1) := by
    rw [quantum, abs_of_pos positive, ← zpow_natCast, ← zpow_add₀ large.ne']
    congr 1
    omega
  have unit : quantum base digits q ≤ q / base ^ (digits - 1) := by
    rw [le_div_iff₀ (pow_pos large _), ← whole]
    exact Int.zpow_log_le_self proper positive
  calc |rounded base digits q - q| ≤ quantum base digits q / 2 := roundTo_close (quantum_pos proper digits q) q
    _ ≤ q / base ^ (digits - 1) / 2 := div_le_div_of_nonneg_right unit zero_le_two
    _ = q / (2 * base ^ (digits - 1)) := by rw [div_div, mul_comm]

theorem rounded_nonneg {q : ℚ} (nonneg : 0 ≤ q) (some : 0 < digits) : 0 ≤ rounded base digits q := by
  rcases nonneg.eq_or_lt with rfl | positive
  · rw [rounded_zero]
  · exact (zpow_pos (by exact_mod_cast (by omega : 0 < base)) _).le.trans (power_le_rounded proper digits positive some)

theorem rounded_pos {q : ℚ} (positive : 0 < q) (some : 0 < digits) : 0 < rounded base digits q :=
  (zpow_pos (by exact_mod_cast (by omega : 0 < base)) _).trans_le (power_le_rounded proper digits positive some)

/-- Within one decade both values are rounded on the same grid. Between
decades the power of the base that separates them is on both grids. -/
theorem rounded_mono {p q : ℚ} (nonneg : 0 ≤ p) (le : p ≤ q) (some : 0 < digits) :
    rounded base digits p ≤ rounded base digits q := by
  rcases nonneg.eq_or_lt with rfl | positive
  · rw [rounded_zero]
    exact rounded_nonneg proper digits le some
  have positive' := positive.trans_le le
  rcases (Int.log_mono_right (b := base) positive le).lt_or_eq with less | same
  · have large : (1 : ℚ) ≤ base := by exact_mod_cast (by omega : 1 ≤ base)
    calc rounded base digits p ≤ (base : ℚ) ^ (Int.log base |p| + 1) := rounded_le_next_power proper digits
      _ ≤ (base : ℚ) ^ Int.log base q := by
        rw [abs_of_pos positive]
        exact zpow_le_zpow_right₀ large less
      _ ≤ rounded base digits q := power_le_rounded proper digits positive' some
  · have grid : quantum base digits p = quantum base digits q := by
      rw [quantum, quantum, abs_of_pos positive, abs_of_pos positive', same]
    have unit := quantum_pos proper digits q
    rw [rounded, rounded, grid, roundTo, roundTo]
    apply mul_le_mul_of_nonneg_right _ unit.le
    exact_mod_cast nearestEven_mono (div_le_div_of_nonneg_right le unit.le)

end Significant
end OmocNode.Proofs.DecimalRounding
