/-
**The numbers that bit patterns denote.**

`Double.value` reads a pattern by its sign, exponent and fraction: the fraction follows the point
behind a leading one, or behind a zero under the least exponent, and the largest exponent is left
for the infinities. All finite numbers are whole multiples of the least positive one
(`Double.absolute_of_finite`), and they grow with the magnitude (`Double.absolute_lt`).
-/

import Mathlib.Data.EReal.Operations
import Mathlib.Tactic.FieldSimp
import Mathlib.Tactic.NormNum
import Mathlib.Tactic.Ring
import RowLogic.Proofs.Real64.Patterns

namespace RowLogic.Double

noncomputable section

/-- The absolute value that a magnitude denotes. That of a NaN is of no meaning. -/
def absolute (magnitude : Nat) : EReal :=
  if exponent magnitude = 0x7ff then ⊤
  else if exponent magnitude = 0 then
    ((2 ^ (-1022 : ℤ) * (fraction magnitude / 2 ^ 52) : ℝ) : EReal)
  else ((2 ^ ((exponent magnitude : ℤ) - 1023) * (1 + fraction magnitude / 2 ^ 52) : ℝ) : EReal)

/-- The number that a pattern denotes. -/
def value (double : Double) : EReal :=
  if double.isNegative then -absolute double.magnitude else absolute double.magnitude

end

variable {first second : Nat}

/-! ### Units -/

/-- **The units grow with the magnitude**: what is under a higher exponent is beyond all that is
under a lower one. -/
theorem unitsOf_lt (less : first < second) : unitsOf first < unitsOf second := by
  have fields := magnitude_eq first
  have fields' := magnitude_eq second
  have small := fraction_lt first
  have small' := fraction_lt second
  unfold unitsOf
  simp only [Nat.shiftLeft_eq]
  by_cases same : exponent first = exponent second
  · have fractions : fraction first < fraction second := by omega
    rw [same]
    split
    · exact fractions
    · exact Nat.mul_lt_mul_of_pos_right (by omega) (Nat.two_pow_pos _)
  · have higher : exponent first < exponent second := by omega
    rw [if_neg (Nat.ne_of_gt (Nat.zero_lt_of_lt higher))]
    -- a power of two lies between the two
    calc (if exponent first = 0 then fraction first
          else (fraction first + 0x10000000000000) * 2 ^ (exponent first - 1))
        < 0x10000000000000 * 2 ^ exponent first := by
          split
          case isTrue least => rwa [least, Nat.pow_zero, Nat.mul_one]
          case isFalse least =>
            obtain ⟨below, counted⟩ := Nat.exists_eq_add_one_of_ne_zero least
            rw [counted, Nat.add_sub_cancel, Nat.pow_succ', ← Nat.mul_assoc]
            exact Nat.mul_lt_mul_of_pos_right (by omega) (Nat.two_pow_pos _)
      _ ≤ (fraction second + 0x10000000000000) * 2 ^ (exponent second - 1) :=
          Nat.mul_le_mul (Nat.le_add_left _ _) (Nat.pow_le_pow_right (by decide) (by omega))

/-- **A finite number is a multiple of the least positive one.** -/
theorem absolute_of_finite (finite : first < infinity) :
    absolute first = ((unitsOf first / 2 ^ 1074 : ℝ) : EReal) := by
  have fields := magnitude_eq first
  have below : exponent first ≠ 0x7ff := by
    unfold infinity at finite
    omega
  have split : (2 : ℝ) ^ 1074 = 2 ^ 1022 * 2 ^ 52 := by rw [← pow_add]
  have positive : (0 : ℝ) < 2 ^ 1022 := by positivity
  unfold absolute unitsOf
  rw [if_neg below, split]
  by_cases least : exponent first = 0
  · have power : (2 : ℝ) ^ (-1022 : ℤ) = (2 ^ 1022)⁻¹ := by rw [zpow_neg, zpow_ofNat]
    rw [if_pos least, if_pos least, power]
    -- the power is too large a numeral to compute with
    generalize (2 : ℝ) ^ 1022 = scale at positive ⊢
    congr 1
    field_simp
  · obtain ⟨steps, counted⟩ := Nat.exists_eq_add_one_of_ne_zero least
    have power : (2 : ℝ) ^ (((steps + 1 : ℕ) : ℤ) - 1023) = 2 ^ steps / 2 ^ 1022 := by
      have shifted : ((steps + 1 : ℕ) : ℤ) - 1023 = steps - 1022 := by omega
      rw [shifted, zpow_sub₀ two_ne_zero, zpow_natCast, zpow_ofNat]
    rw [if_neg least, if_neg least, counted, power, Nat.add_sub_cancel, Nat.shiftLeft_eq]
    generalize (2 : ℝ) ^ 1022 = scale at positive ⊢
    congr 1
    push_cast
    field_simp
    ring

/-- **What numbers denote grows with the magnitude.** -/
theorem absolute_lt (less : first < second) (number : second ≤ infinity) :
    absolute first < absolute second := by
  rw [absolute_of_finite (Nat.lt_of_lt_of_le less number)]
  rcases Nat.lt_or_eq_of_le number with finite | rfl
  · rw [absolute_of_finite finite, EReal.coe_lt_coe_iff]
    exact div_lt_div_of_pos_right (Nat.cast_lt.mpr (unitsOf_lt less)) (by positivity)
  · have infinite : absolute infinity = ⊤ := if_pos (by decide)
    rw [infinite]
    exact EReal.coe_lt_top _

theorem absolute_zero : absolute 0 = 0 := by
  have none : unitsOf 0 = 0 := rfl
  rw [absolute_of_finite (by decide), none, Nat.cast_zero, zero_div, EReal.coe_zero]

end RowLogic.Double
