/-
**Bit patterns and the numbers among them.**

A pattern is its sign and its magnitude, and the magnitude is an exponent above a fraction. The
patterns that are no numbers are those of the largest exponent over a fraction that is not empty
(`Double.isNaN_iff`); every other one is taken for a number, and stands for itself but for the
negative zero, which is taken for the positive one (`Real64.ofDouble?_eq_none_iff`,
`Real64.ofDouble?_eq_some_iff`).
-/

import RowLogic.Real64.Basic

namespace RowLogic

namespace Double

variable {double first second : Double}

theorem magnitude_lt (double : Double) : double.magnitude < 0x8000000000000000 :=
  Nat.mod_lt _ (by decide)

/-- The fields of a magnitude. -/
theorem magnitude_eq (magnitude : Nat) :
    exponent magnitude * 0x10000000000000 + fraction magnitude = magnitude :=
  Nat.div_add_mod' _ _

theorem fraction_lt (magnitude : Nat) : fraction magnitude < 0x10000000000000 :=
  Nat.mod_lt _ (by decide)

/-- **A NaN** has the largest exponent and a fraction that is not empty. -/
theorem isNaN_iff :
    double.isNaN = true ↔ exponent double.magnitude = 0x7ff ∧ fraction double.magnitude ≠ 0 := by
  have bound := double.magnitude_lt
  have fields := magnitude_eq double.magnitude
  have small := fraction_lt double.magnitude
  unfold isNaN infinity
  rw [decide_eq_true_iff]
  omega

/-- The bits are the magnitude below the sign. -/
theorem toNat_bits (double : Double) :
    double.bits.toNat =
      double.magnitude + if double.isNegative then 0x8000000000000000 else 0 := by
  have bound := double.bits.toNat_lt
  unfold magnitude isNegative
  by_cases negative : 0x8000000000000000 ≤ double.bits.toNat
  · rw [if_pos (decide_eq_true negative)]
    omega
  · rw [if_neg (by simpa using negative)]
    omega

theorem eq_of_parts (sign : first.isNegative = second.isNegative)
    (magnitude : first.magnitude = second.magnitude) : first = second := by
  obtain ⟨bits⟩ := first
  obtain ⟨bits'⟩ := second
  refine congrArg Double.mk (UInt64.toNat_inj.mp ?_)
  exact (toNat_bits ⟨bits⟩).trans (by rw [sign, magnitude, ← toNat_bits])

/-- The bits without a magnitude are those of the two zeros. -/
theorem eq_zero_of_magnitude (empty : double.magnitude = 0) :
    double = ⟨0⟩ ∨ double = ⟨0x8000000000000000⟩ := by
  cases sign : double.isNegative with
  | false => exact Or.inl (eq_of_parts sign empty)
  | true => exact Or.inr (eq_of_parts sign empty)

end Double

namespace Real64

theorem double_injective {first second : Real64} (same : first.double = second.double) :
    first = second := by
  cases first
  cases second
  cases same
  rfl

theorem double_ne_negative (number : Real64) : number.double ≠ ⟨0x8000000000000000⟩ := by
  intro negative
  have positive := number.not_negative_zero
  rw [negative] at positive
  exact absurd (positive (by decide)) (by decide)

variable {double : Double} {number : Real64}

/-- **Only a NaN has no number.** -/
theorem ofDouble?_eq_none_iff : ofDouble? double = none ↔ double.isNaN = true := by
  unfold ofDouble?
  by_cases nan : double.isNaN = true
  · rw [dif_pos nan]
    exact iff_of_true rfl nan
  · rw [dif_neg nan]
    refine iff_of_false ?_ nan
    split <;> exact nofun

/-- **A number stands for its own bits**, and zero also for those of the negative zero. -/
theorem ofDouble?_eq_some_iff :
    ofDouble? double = some number ↔
      double = number.double ∨ double = ⟨0x8000000000000000⟩ ∧ number = zero := by
  unfold ofDouble?
  refine ⟨?_, ?_⟩
  · intro known
    by_cases nan : double.isNaN = true
    · rw [dif_pos nan] at known
      cases known
    rw [dif_neg nan] at known
    by_cases empty : double.magnitude = 0
    · rw [dif_pos empty] at known
      cases known
      rcases Double.eq_zero_of_magnitude empty with positive | negative
      · exact Or.inl positive
      · exact Or.inr ⟨negative, rfl⟩
    · rw [dif_neg empty] at known
      cases known
      exact Or.inl rfl
  · intro stands
    rcases stands with rfl | ⟨rfl, rfl⟩
    · rw [dif_neg (by rw [number.not_nan]; decide)]
      by_cases empty : number.double.magnitude = 0
      · rw [dif_pos empty]
        rcases Double.eq_zero_of_magnitude empty with positive | negative
        · exact congrArg some (double_injective positive.symm)
        · exact absurd negative number.double_ne_negative
      · rw [dif_neg empty]
    · rfl

end Real64

end RowLogic
