/-
**The nearest number is the one whose reals hold the quotient.**

A quotient is rounded to a significand under the exponent that leaves it 53 bits (`Double.normal`),
so the reals of the number that comes out hold the quotient (`Span.contains_of_rounds`). No point is
among the reals of two numbers; hence a quotient among those of a finite number is rounded to this
number (`Double.nearest_eq_of_contains`).
-/

import RowLogic.Proofs.Real64.Shortest
import RowLogic.Real64.Rounding

namespace RowLogic

namespace Double

variable {num den exponent significand : Nat}

/-! ### Rounding a quotient -/

/-- A natural number is at most half away from a quotient, and less than half if it is odd. -/
structure Rounds (num den near : Nat) : Prop where
  le_above : 2 * num ≤ (2 * near + 1) * den
  below_le : 2 * near * den ≤ 2 * num + den
  lt_above : near % 2 = 1 → 2 * num < (2 * near + 1) * den
  below_lt : near % 2 = 1 → 2 * near * den < 2 * num + den

theorem rounds_roundQuotient (num : Nat) (positive : 0 < den) :
    Rounds num den (roundQuotient num den) := by
  have parts := Nat.div_add_mod num den
  have small := Nat.mod_lt num positive
  have floor : (2 * (num / den) + 1) * den = 2 * (den * (num / den)) + den := by ring
  have floor' : 2 * (num / den) * den = 2 * (den * (num / den)) := by ring
  have next : (2 * (num / den + 1) + 1) * den = 2 * (den * (num / den)) + 3 * den := by ring
  have next' : 2 * (num / den + 1) * den = 2 * (den * (num / den)) + 2 * den := by ring
  unfold roundQuotient
  dsimp only
  repeat' split
  all_goals constructor <;> omega

section Scaling

variable {scale scale' first first' second second' : Nat}

theorem le_of_scaled (positive : 0 < scale') (eq : first' * scale' = first * scale)
    (eq' : second' * scale' = second * scale) (le : first ≤ second) : first' ≤ second' := by
  refine Nat.le_of_mul_le_mul_right ?_ positive
  rw [eq, eq']
  exact Nat.mul_le_mul_right scale le

theorem lt_of_scaled (positive : 0 < scale) (eq : first' * scale' = first * scale)
    (eq' : second' * scale' = second * scale) (lt : first < second) : first' < second' := by
  refine Nat.lt_of_mul_lt_mul_right (a := scale') ?_
  rw [eq, eq']
  exact Nat.mul_lt_mul_of_pos_right lt positive

/-- What a quotient is rounded to does not depend on the scale of its two numbers. -/
theorem Rounds.rescale {num' den' near : Nat} (rounds : Rounds num den near)
    (positive : 0 < scale) (positive' : 0 < scale') (nums : num' * scale' = num * scale)
    (dens : den' * scale' = den * scale) : Rounds num' den' near := by
  have twice : 2 * num' * scale' = 2 * num * scale := by
    rw [Nat.mul_assoc, nums, Nat.mul_assoc]
  have times (count : Nat) : count * den' * scale' = count * den * scale := by
    rw [Nat.mul_assoc, dens, Nat.mul_assoc]
  have sum : (2 * num' + den') * scale' = (2 * num + den) * scale := by
    rw [Nat.add_mul, twice, dens, Nat.add_mul]
  exact {
    le_above := le_of_scaled positive' twice (times _) rounds.le_above
    below_le := le_of_scaled positive' (times _) sum rounds.below_le
    lt_above := fun odd => lt_of_scaled positive twice (times _) (rounds.lt_above odd)
    below_lt := fun odd => lt_of_scaled positive (times _) sum (rounds.below_lt odd) }

end Scaling

/-! ### The significand of a quotient -/

/-- A quotient in units of its exponent, rounded. -/
def significandOf (num den : Nat) : Nat :=
  roundQuotient (num <<< 1074) (den <<< exponentOf num den)

theorem nearest_eq (num den : Nat) :
    nearest num den =
      min (exponentOf num den * 0x10000000000000 + significandOf num den) infinity := rfl

section Significand

variable (positive : 0 < den)
include positive

theorem scaled_pos (exponent : Nat) : 0 < den <<< exponent := by
  rw [Nat.shiftLeft_eq]
  exact Nat.mul_pos positive (Nat.two_pow_pos _)

theorem rounds_significandOf (num : Nat) :
    Rounds (num <<< 1074) (den <<< exponentOf num den) (significandOf num den) :=
  rounds_roundQuotient _ (scaled_pos positive _)

/-- The units of a quotient have at most 53 bits above its exponent. -/
theorem units_lt (num : Nat) :
    num <<< 1074 < 0x20000000000000 * (den <<< exponentOf num den) := by
  have bits : ((num <<< 1074) / den).log2 + 1 ≤ 53 + exponentOf num den := by
    unfold exponentOf
    omega
  calc num <<< 1074
      < 2 ^ (53 + exponentOf num den) * den :=
        (Nat.div_lt_iff_lt_mul positive).mp
          (Nat.lt_of_lt_of_le Nat.lt_log2_self (Nat.pow_le_pow_right (by decide) bits))
    _ = 0x20000000000000 * (den <<< exponentOf num den) := by
        rw [Nat.shiftLeft_eq, Nat.pow_add]
        ring

/-- Above the least exponent they have 53 bits. -/
theorem le_units (large : exponentOf num den ≠ 0) :
    0x10000000000000 * (den <<< exponentOf num den) ≤ num <<< 1074 := by
  have bits : ((num <<< 1074) / den).log2 = 52 + exponentOf num den := by
    unfold exponentOf at large ⊢
    omega
  have not_zero : (num <<< 1074) / den ≠ 0 := by
    intro zero
    rw [zero, Nat.log2_zero] at bits
    omega
  have power := Nat.log2_self_le not_zero
  rw [bits, Nat.pow_add] at power
  calc 0x10000000000000 * (den <<< exponentOf num den)
      = 2 ^ 52 * 2 ^ exponentOf num den * den := by
        rw [Nat.shiftLeft_eq]
        ring
    _ ≤ num <<< 1074 := (Nat.le_div_iff_mul_le positive).mp power

theorem significand_le (num : Nat) : significandOf num den ≤ 0x20000000000000 := by
  have near := (rounds_significandOf positive num).below_le
  have units := units_lt positive num
  have doubled : 2 * significandOf num den < 2 * 0x20000000000000 + 1 := by
    refine Nat.lt_of_mul_lt_mul_right (a := den <<< exponentOf num den) ?_
    rw [Nat.add_mul, Nat.one_mul, Nat.mul_assoc 2 0x20000000000000]
    omega
  omega

theorem le_significand (large : exponentOf num den ≠ 0) :
    0x10000000000000 ≤ significandOf num den := by
  have near := (rounds_significandOf positive num).le_above
  have units := le_units positive large
  have doubled : 2 * 0x10000000000000 ≤ 2 * significandOf num den + 1 := by
    refine Nat.le_of_mul_le_mul_right ?_ (scaled_pos positive (exponentOf num den))
    rw [Nat.mul_assoc 2 0x10000000000000]
    omega
  omega

end Significand

/-! ### The number of an exponent and a significand -/

/-- A significand of at most 53 bits under an exponent; it has all of them above the least one. -/
structure Normal (exponent significand : Nat) : Prop where
  le : significand ≤ 0x20000000000000
  ge : exponent ≠ 0 → 0x10000000000000 ≤ significand

theorem normal (positive : 0 < den) (num : Nat) :
    Normal (exponentOf num den) (significandOf num den) :=
  ⟨significand_le positive num, fun large => le_significand positive large⟩

/-- The fields of the magnitude that an exponent and a significand add up to. -/
theorem fields_of_normal (normal : Normal exponent significand) :
    significand < 0x10000000000000 ∧ exponent = 0 ∧
        Double.exponent (exponent * 0x10000000000000 + significand) = 0 ∧
        fraction (exponent * 0x10000000000000 + significand) = significand ∨
      0x10000000000000 ≤ significand ∧ significand < 0x20000000000000 ∧
        Double.exponent (exponent * 0x10000000000000 + significand) = exponent + 1 ∧
        fraction (exponent * 0x10000000000000 + significand) + 0x10000000000000 = significand ∨
      significand = 0x20000000000000 ∧
        Double.exponent (exponent * 0x10000000000000 + significand) = exponent + 2 ∧
        fraction (exponent * 0x10000000000000 + significand) = 0 := by
  obtain ⟨upper, lower⟩ := normal
  unfold Double.exponent fraction
  omega

/-- **The units of a rounded number** are the significand under its exponent. -/
theorem unitsOf_normal (normal : Normal exponent significand) :
    unitsOf (exponent * 0x10000000000000 + significand) = significand * 2 ^ exponent := by
  unfold unitsOf
  rcases fields_of_normal normal with
    ⟨-, rfl, least, fraction⟩ | ⟨-, -, higher, fraction⟩ | ⟨rfl, highest, fraction⟩
  · rw [if_pos least, fraction, Nat.pow_zero, Nat.mul_one]
  · rw [higher, if_neg (Nat.succ_ne_zero _), fraction, Nat.shiftLeft_eq, Nat.add_sub_cancel]
  · rw [highest, if_neg (Nat.succ_ne_zero _), fraction, Nat.shiftLeft_eq]
    show (0 + 0x10000000000000) * 2 ^ (exponent + 1) = _
    rw [Nat.pow_succ]
    ring

end Double

/-! ### The reals of a rounded number -/

namespace Span

open Double

variable {num den exponent significand point : Nat}

/-- The distance between the numbers under an exponent. -/
def distance (exponent : Nat) : Nat :=
  4 * Nat.pow 5 1076 * 2 ^ exponent

theorem value_of_normal (normal : Normal exponent significand) :
    (ofMagnitude (exponent * 0x10000000000000 + significand)).value =
      significand * distance exponent := by
  obtain ⟨unit, -, named⟩ := exists_unit
  unfold ofMagnitude distance
  dsimp only
  rw [unitsOf_normal normal, named]
  ring

/-- The next number is at least the distance away. -/
theorem distance_le_quarter (normal : Normal exponent significand) :
    distance exponent ≤ 4 * quarter (exponent * 0x10000000000000 + significand) := by
  obtain ⟨unit, -, named⟩ := exists_unit
  unfold distance quarter
  rw [named, Nat.shiftLeft_eq, Nat.mul_assoc]
  refine Nat.mul_le_mul_left 4 (Nat.mul_le_mul_left unit (Nat.pow_le_pow_right (by decide) ?_))
  rcases fields_of_normal normal with ⟨-, rfl, -⟩ | ⟨-, -, higher, -⟩ | ⟨-, highest, -⟩ <;> omega

/-- The reals of a number reach half the distance below it, but for the least significand above the
least exponent. -/
theorem distance_le_margin (normal : Normal exponent significand) :
    distance exponent ≤ 2 * margin (exponent * 0x10000000000000 + significand) ∨
      exponent ≠ 0 ∧ significand = 0x10000000000000 := by
  have wide := distance_le_quarter normal
  unfold margin
  split
  case isFalse narrow => exact .inl (by omega)
  case isTrue narrow =>
    rcases fields_of_normal normal with
      ⟨-, -, least, -⟩ | ⟨-, -, higher, fraction⟩ | ⟨-, highest, -⟩
    · exact absurd narrow.2 (by omega)
    · exact .inr (by omega)
    · obtain ⟨unit, -, named⟩ := exists_unit
      refine .inl (Nat.le_of_eq ?_)
      unfold distance quarter
      rw [highest, named, Nat.shiftLeft_eq, Nat.add_sub_assoc (by decide), Nat.pow_succ]
      ring

/-- **The reals of a number hold what is rounded to it.** -/
theorem contains_of_rounds (normal : Normal exponent significand)
    (rounds : Rounds point (distance exponent) significand)
    (least : exponent ≠ 0 → 0x10000000000000 * distance exponent ≤ point) :
    (ofMagnitude (exponent * 0x10000000000000 + significand)).contains point = true := by
  have wide := distance_le_quarter normal
  have reach := distance_le_margin normal
  have parity : fraction (exponent * 0x10000000000000 + significand) % 2 = significand % 2 := by
    rcases fields_of_normal normal with
      ⟨-, -, -, same⟩ | ⟨-, -, -, same⟩ | ⟨same, -, same'⟩ <;> omega
  obtain ⟨le_above, below_le, lt_above, below_lt⟩ := rounds
  have next : (2 * significand + 1) * distance exponent =
      2 * (significand * distance exponent) + distance exponent := by ring
  have own : 2 * significand * distance exponent = 2 * (significand * distance exponent) :=
    Nat.mul_assoc _ _ _
  unfold contains
  rw [closed_ofMagnitude, below_ofMagnitude, above_ofMagnitude, value_of_normal normal, parity]
  split
  case isTrue even =>
    rw [Bool.and_eq_true, decide_eq_true_iff, decide_eq_true_iff]
    refine ⟨?_, by omega⟩
    rcases reach with half | ⟨large, narrow⟩
    · omega
    · have lower := least large
      rw [narrow]
      omega
  case isFalse odd =>
    have odd : significand % 2 = 1 := by
      rw [decide_eq_true_iff] at odd
      omega
    have above := lt_above odd
    have below := below_lt odd
    have some_distance : distance exponent ≤ significand * distance exponent :=
      Nat.le_mul_of_pos_left _ (by omega)
    rw [Bool.and_eq_true, decide_eq_true_iff, decide_eq_true_iff]
    omega

end Span

namespace Double

/-- **A quotient among the reals of a number is rounded to this number.** -/
theorem nearest_eq_of_contains {magnitude num den point : Nat} (finite : magnitude < infinity)
    (positive : 0 < den) (same : point * den = num <<< 1074 * (4 * Nat.pow 5 1076))
    (contained : (Span.ofMagnitude magnitude).contains point = true) :
    nearest num den = magnitude := by
  have unit_pos : 0 < 4 * Nat.pow 5 1076 := by
    obtain ⟨unit, some_unit, named⟩ := Span.exists_unit
    rw [named]
    exact Nat.mul_pos (by decide) some_unit
  have scaled : Span.distance (exponentOf num den) * den =
      den <<< exponentOf num den * (4 * Nat.pow 5 1076) := by
    rw [Span.distance, Nat.shiftLeft_eq]
    ring
  have rounds := (rounds_significandOf positive num).rescale unit_pos positive same scaled
  have lower (large : exponentOf num den ≠ 0) :
      0x10000000000000 * Span.distance (exponentOf num den) ≤ point := by
    refine le_of_scaled positive ?_ same (le_units positive large)
    rw [Nat.mul_assoc, scaled, Nat.mul_assoc]
  have rounded := Span.contains_of_rounds (normal positive num) rounds lower
  rw [nearest_eq, Span.magnitude_eq_of_contains rounded contained]
  exact Nat.min_eq_left (Nat.le_of_lt finite)

end Double

end RowLogic
