/-
**The order of the numbers.**

Three comparisons of bit patterns meet in `Real64`: floating-point equality, which tells a NaN from
itself and does not tell the two zeros apart; the total order of all patterns, which puts the
negative zero below the positive one; and the order of the numbers that the patterns denote. They
disagree on NaNs and zeros only, and `Real64` has none of the former and one of the latter.

* `Real64.compare_eq_totalCompare`: the order of the numbers is that of their patterns;
* `Real64.compare_lt_iff`: it is the order of what they denote;
* `Real64.eq_iff_equal`: numbers are equal as floating-point equality has it.
-/

import RowLogic.Proofs.Bytes.Words
import RowLogic.Proofs.Real64.Denotation

namespace RowLogic

namespace Double

/-- Floating-point equality: a NaN equals nothing, and the two zeros equal each other. -/
def equal (first second : Double) : Bool :=
  !first.isNaN && !second.isNaN &&
    (first.bits == second.bits || first.magnitude == 0 && second.magnitude == 0)

/-- The place of a pattern in the total order: negative patterns go downwards from below the
positive zero, and the NaNs of either sign are outermost. -/
def totalKey (double : Double) : Int :=
  if double.isNegative then -(double.magnitude : Int) - 1 else double.magnitude

/-- The total order of all patterns. -/
def totalCompare (first second : Double) : Ordering :=
  Ord.compare first.totalKey second.totalKey

/-- Both zeros denote zero. -/
theorem value_negative_zero : value ⟨0x8000000000000000⟩ = value ⟨0⟩ := by
  have negative : value ⟨0x8000000000000000⟩ = -absolute 0 := if_pos (by decide)
  have positive : value ⟨0⟩ = absolute 0 := if_neg (by decide)
  rw [negative, positive, absolute_zero, neg_zero]

end Double

namespace Real64

variable {first second third : Real64}

/-! ### Equality -/

theorem magnitude_le (number : Real64) : number.double.magnitude ≤ Double.infinity := by
  simpa [Double.isNaN] using number.not_nan

/-- Only the positive numbers have the magnitude of zero. -/
theorem magnitude_pos {number : Real64} (negative : number.double.isNegative = true) :
    0 < number.double.magnitude := by
  refine Nat.pos_of_ne_zero fun empty => ?_
  rw [number.not_negative_zero empty] at negative
  cases negative

theorem bits_injective (same : first.bits = second.bits) : first = second :=
  double_injective (congrArg Double.mk same)

theorem hashInput_injective (same : first.hashInput = second.hashInput) : first = second := by
  have own := ((double_word_iff first.double second.hashInput).mp same).2
  have other := ((double_word_iff second.double second.hashInput).mp rfl).2
  exact double_injective (own.symm.trans other)

/-- **Floating-point equality is equality of the numbers.** -/
theorem eq_iff_equal : first = second ↔ Double.equal first.double second.double = true := by
  have notNaN := first.not_nan
  have notNaN' := second.not_nan
  unfold Double.equal
  rw [notNaN, notNaN', Bool.not_false, Bool.and_self, Bool.true_and, Bool.or_eq_true, beq_iff_eq,
    Bool.and_eq_true, beq_iff_eq, beq_iff_eq]
  refine ⟨fun same => Or.inl (congrArg bits same), fun equal => ?_⟩
  rcases equal with same | ⟨empty, empty'⟩
  · exact bits_injective same
  · have sign := first.not_negative_zero empty
    have sign' := second.not_negative_zero empty'
    exact double_injective
      (Double.eq_of_parts (sign.trans sign'.symm) (empty.trans empty'.symm))

/-! ### Order -/

/-- The magnitude with its sign tells numbers apart: zero has one sign. -/
theorem rank_injective (same : first.rank = second.rank) : first = second := by
  unfold rank at same
  cases sign : first.double.isNegative <;> cases sign' : second.double.isNegative <;>
    simp only [sign, sign', if_true, if_false, Bool.false_eq_true] at same
  case false.false => exact double_injective (Double.eq_of_parts (sign.trans sign'.symm) (by omega))
  case false.true =>
    have positive := magnitude_pos sign'
    omega
  case true.false =>
    have positive := magnitude_pos sign
    omega
  case true.true => exact double_injective (Double.eq_of_parts (sign.trans sign'.symm) (by omega))

theorem compare_eq_iff : first.compare second = .eq ↔ first = second :=
  Int.compare_eq_eq.trans ⟨rank_injective, congrArg rank⟩

instance : Std.TransCmp Real64.compare where
  eq_swap := Std.OrientedOrd.eq_swap
  isLE_trans := Std.TransOrd.isLE_trans

instance : Std.LawfulEqCmp Real64.compare where
  eq_of_compare := compare_eq_iff.mp

/-- The places of the numbers in the total order of the patterns leave out that of the negative
zero. -/
theorem totalKey_eq (number : Real64) :
    number.double.totalKey = if number.rank < 0 then number.rank - 1 else number.rank := by
  unfold rank Double.totalKey
  cases sign : number.double.isNegative with
  | false =>
    have nonneg : ¬ (number.double.magnitude : Int) < 0 := by omega
    simp only [if_false, Bool.false_eq_true, if_neg nonneg]
  | true =>
    have positive := magnitude_pos sign
    have negative : -(number.double.magnitude : Int) < 0 := by omega
    simp only [if_true, if_pos negative]

/-- **The numbers are in the order of their patterns.** -/
theorem compare_eq_totalCompare (first second : Real64) :
    first.compare second = Double.totalCompare first.double second.double := by
  unfold Real64.compare Double.totalCompare
  rw [totalKey_eq, totalKey_eq]
  have below : first.rank < second.rank ↔
      (if first.rank < 0 then first.rank - 1 else first.rank) <
        if second.rank < 0 then second.rank - 1 else second.rank := by
    split <;> split <;> omega
  have same : first.rank = second.rank ↔
      (if first.rank < 0 then first.rank - 1 else first.rank) =
        if second.rank < 0 then second.rank - 1 else second.rank := by
    split <;> split <;> omega
  simp only [Ord.compare, compareOfLessAndEq, ← below, ← same]

/-- What numbers denote grows with the signed magnitude. -/
theorem value_lt_of_rank_lt (less : first.rank < second.rank) :
    first.double.value < second.double.value := by
  have absolute_nonneg : 0 ≤ Double.absolute second.double.magnitude := by
    rcases Nat.eq_zero_or_pos second.double.magnitude with empty | positive
    · rw [empty, Double.absolute_zero]
    · rw [← Double.absolute_zero]
      exact (Double.absolute_lt positive second.magnitude_le).le
  unfold rank at less
  unfold Double.value
  cases sign : first.double.isNegative <;> cases sign' : second.double.isNegative <;>
    simp only [sign, sign', if_true, if_false, Bool.false_eq_true] at less ⊢
  case false.false => exact Double.absolute_lt (by omega) second.magnitude_le
  case false.true => omega
  case true.false =>
    have positive : 0 < Double.absolute first.double.magnitude := by
      rw [← Double.absolute_zero]
      exact Double.absolute_lt (magnitude_pos sign) first.magnitude_le
    calc -Double.absolute first.double.magnitude < 0 := by
          rwa [EReal.neg_lt_comm, neg_zero]
      _ ≤ Double.absolute second.double.magnitude := absolute_nonneg
  case true.true =>
    exact EReal.neg_lt_neg_iff.mpr (Double.absolute_lt (by omega) first.magnitude_le)

/-- **A number is below another if it denotes less.** -/
theorem compare_lt_iff :
    first.compare second = .lt ↔ first.double.value < second.double.value := by
  rw [Real64.compare, Int.compare_eq_lt]
  refine ⟨value_lt_of_rank_lt, fun less => ?_⟩
  rcases lt_trichotomy first.rank second.rank with below | same | above
  · exact below
  · rw [rank_injective same] at less
    exact absurd less (lt_irrefl _)
  · exact absurd less (lt_asymm (value_lt_of_rank_lt above))

/-! ### All laws -/

/-- **Numbers are totally ordered, by what they denote.** No number is made of the NaNs alone; any
other pattern has a number, which is not the negative zero and denotes what the pattern denotes.
Floating-point equality, equality of the bits, of what is hashed, and the order all mean the same
equality; the order is that of the patterns, always known, oriented, antisymmetric, transitive and
total, and it is the order of what the numbers denote. -/
theorem totally_ordered :
    (∀ double : Double, ofDouble? double = none ↔
      Double.exponent double.magnitude = 0x7ff ∧ Double.fraction double.magnitude ≠ 0) ∧
    (∀ (double : Double) (number : Real64), ofDouble? double = some number →
      ¬ (Double.exponent number.double.magnitude = 0x7ff ∧
        Double.fraction number.double.magnitude ≠ 0) ∧
      number.bits ≠ 0x8000000000000000 ∧ number.double.value = double.value) ∧
    ∀ first second third : Real64,
      (Double.equal first.double second.double = true ↔ first = second) ∧
      (first = second ↔ first.compare second = .eq) ∧
      (first = second ↔ first.bits = second.bits) ∧
      (first = second ↔ first.hashInput = second.hashInput) ∧
      first.partialCompare second = some (first.compare second) ∧
      first.compare second = Double.totalCompare first.double second.double ∧
      second.compare first = (first.compare second).swap ∧
      ((first.compare second).isLE → (second.compare first).isLE → first = second) ∧
      ((first.compare second).isLE → (second.compare third).isLE →
        (first.compare third).isLE) ∧
      ((first.compare second).isLE ∨ (second.compare first).isLE) ∧
      (first.compare second = .lt ↔ first.double.value < second.double.value) := by
  refine ⟨fun double => ofDouble?_eq_none_iff.trans Double.isNaN_iff, fun double number known => ?_,
    fun first second third => ⟨eq_iff_equal.symm, compare_eq_iff.symm,
      ⟨congrArg bits, bits_injective⟩, ⟨congrArg hashInput, hashInput_injective⟩, rfl,
      compare_eq_totalCompare first second, Std.OrientedCmp.eq_swap, ?_,
      Std.TransCmp.isLE_trans, ?_, compare_lt_iff⟩⟩
  · refine ⟨fun nan => ?_, fun negative => ?_, ?_⟩
    · rw [← Double.isNaN_iff, number.not_nan] at nan
      cases nan
    · exact number.double_ne_negative (congrArg Double.mk negative)
    · rcases ofDouble?_eq_some_iff.mp known with rfl | ⟨rfl, rfl⟩
      · rfl
      · exact Double.value_negative_zero.symm
  · exact fun below above =>
      Std.LawfulEqCmp.eq_of_compare (Std.OrientedCmp.isLE_antisymm below above)
  · have oriented : second.compare first = (first.compare second).swap := Std.OrientedCmp.eq_swap
    rw [oriented]
    cases first.compare second <;> decide

/-- The pattern of the negative zero has the number zero, and minus infinity, zero and the least
positive number are in ascending order. -/
theorem totally_ordered_around_zero :
    let infinite : Real64 := ⟨⟨0xfff0000000000000⟩, by decide, by decide⟩
    let positive : Real64 := ⟨⟨0⟩, by decide, by decide⟩
    let least : Real64 := ⟨⟨1⟩, by decide, by decide⟩
    ofDouble? ⟨0x8000000000000000⟩ = some zero ∧
      zero.double.value = Double.value ⟨0x8000000000000000⟩ ∧
      (zero.compare positive).isLE ∧ (positive.compare zero).isLE ∧ zero = positive ∧
      (infinite.compare zero).isLE ∧ (zero.compare least).isLE ∧ (infinite.compare least).isLE ∧
      infinite.double.value < zero.double.value := by
  intro infinite positive least
  have canonical : ofDouble? ⟨0x8000000000000000⟩ = some zero := by decide
  obtain ⟨-, denotes, laws⟩ := totally_ordered
  obtain ⟨-, -, -, -, -, -, -, antisymm, -, -, -⟩ := laws zero positive least
  obtain ⟨-, -, -, -, -, -, -, -, trans, -, ordered⟩ := laws infinite zero least
  have same : (zero.compare positive).isLE ∧ (positive.compare zero).isLE := by decide
  have below : infinite.compare zero = .lt := by decide
  have above : (zero.compare least).isLE := by decide
  have reached : (infinite.compare zero).isLE := by rw [below]; decide
  exact ⟨canonical, (denotes _ _ canonical).2.2, same.1, same.2, antisymm same.1 same.2, reached,
    above, trans reached above, ordered.mp below⟩

end Real64

end RowLogic
