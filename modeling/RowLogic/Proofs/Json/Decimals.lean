/-
**Numbers in JSON are read as what was written.**

An integer is read back from its digits (`Numeral.toInt?_ofInt`), and a number is written with
digits that a text can hold (`Real64.wellFormed_ofReal64?`).

Which floating-point number is read depends on the reader. One that reads the decimal of a number
(`Numeral.decimal`) and rounds it once (`Numeral.toNearest?`) gives back each finite number from the
digits it is written with (`Numeral.readsBack_toNearest?`): its decimal is the shortest one, which
is among the reals of the number, and the point, the zeros and the exponent around its digits do not
change it (`Decimal.decimal_ofDecimal`).
-/

import RowLogic.Json.Number
import RowLogic.Proofs.Json.Numerals
import RowLogic.Proofs.Real64.Layout
import RowLogic.Proofs.Real64.Rounding

namespace RowLogic

namespace Numeral

/-! ### Integers -/

/-- **An integer is read back.** -/
theorem toInt?_ofInt (number : Int) : (ofInt number).toInt? = some number := by
  have absolute : Nat.ofDigitChars 10 (Nat.toDigits 10 number.natAbs) 0 = number.natAbs :=
    Nat.ofDigitChars_ten_toDigits
  unfold toInt? ofInt
  dsimp only
  rw [absolute]
  rw [if_neg (by simp)]
  by_cases negative : number < 0
  · have not_zero : number.natAbs ≠ 0 := by omega
    have signed : -(number.natAbs : Int) = number := by omega
    rw [if_neg (by simpa using negative), if_neg not_zero, signed]
  · have unsigned : (number.natAbs : Int) = number := by omega
    rw [if_pos (by simpa using negative), unsigned]

theorem toInt32?_ofInt (number : Int32) : (ofInt number.toInt).toInt32? = some number := by
  have lower := number.le_toInt
  have upper := number.toInt_lt
  rw [toInt32?, toInt?_ofInt]
  dsimp only
  rw [if_pos ⟨lower, upper⟩, Int32.ofInt_toInt]

theorem toInt64?_ofInt (number : Int64) : (ofInt number.toInt).toInt64? = some number := by
  have lower := number.le_toInt
  have upper := number.toInt_lt
  rw [toInt64?, toInt?_ofInt]
  dsimp only
  rw [if_pos ⟨lower, upper⟩, Int64.ofInt_toInt]

theorem wellFormed_ofInt (number : Int) : (ofInt number).WellFormed where
  whole_digits _ member := isDigit_of_mem_toDigits member
  whole_ne_nil := Nat.toDigits_ne_nil
  whole_zero zero := by
    have nothing : number.natAbs = 0 := eq_zero_of_head?_toDigits zero
    show (Nat.toDigits 10 number.natAbs).length = 1
    rw [nothing]
    rfl
  fraction_digits _ member := absurd member List.not_mem_nil
  exponent_digits _ _ written := nomatch written

/-! ### The decimal of a number -/

/-- The decimal that the digits of a number are, without the sign. -/
def decimal (numeral : Numeral) : Decimal where
  digits := Nat.ofDigitChars 10 (numeral.whole ++ numeral.fraction) 0
  exponent := numeral.scale - numeral.fraction.length

/-- A written exponent is read back. -/
theorem scale_of_exponent {numeral : Numeral} {exponent : Int}
    (written : numeral.exponent = some (decide (exponent < 0), Nat.toDigits 10 exponent.natAbs)) :
    numeral.scale = exponent := by
  have absolute : Nat.ofDigitChars 10 (Nat.toDigits 10 exponent.natAbs) 0 = exponent.natAbs :=
    Nat.ofDigitChars_ten_toDigits
  unfold scale
  rw [written]
  by_cases negative : exponent < 0
  · rw [decide_eq_true negative]
    dsimp only
    omega
  · rw [decide_eq_false negative]
    dsimp only
    omega

/-- The number nearest to a decimal, if that is not beyond the range. -/
def toNearest? (numeral : Numeral) : Option Double :=
  let decimal := numeral.decimal
  let magnitude := Double.nearest (decimal.digits * Nat.pow 10 decimal.exponent.toNat)
    (Nat.pow 10 (-decimal.exponent).toNat)
  if magnitude < Double.infinity then some (Double.ofParts numeral.negative magnitude) else none

end Numeral

/-! ### The digits of a number -/

namespace Decimal

variable {decimal : Decimal} {negative : Bool}

/-- No zero leads the digits of a number that is not zero. -/
theorem head?_digitChars (not_zero : decimal.digits ≠ 0) : decimal.digitChars.head? ≠ some '0' :=
  fun zero => not_zero (eq_zero_of_head?_toDigits zero)

/-- In front of the point stands a single zero, or the first digit of the decimal. -/
theorem length_whole (not_zero : decimal.digits ≠ 0)
    (zero : decimal.positional.1.head? = some '0') : decimal.positional.1.length = 1 := by
  unfold positional at zero ⊢
  dsimp only at zero ⊢
  split
  case isTrue small => rfl
  case isFalse large =>
    have leads := head?_digitChars not_zero
    obtain ⟨first, rest, begins⟩ :=
      List.exists_cons_of_ne_nil (List.ne_nil_of_length_pos decimal.length_digitChars_pos)
    obtain ⟨count, counted⟩ := Nat.exists_eq_add_one_of_ne_zero
      (fun nothing : decimal.point.toNat = 0 => large (by omega))
    rw [if_neg large, counted, begins, List.take_succ_cons, List.cons_append,
      List.head?_cons] at zero
    rw [begins, List.head?_cons] at leads
    exact absurd zero leads

/-- **The digits of a number** are digits that a text can hold. -/
theorem wellFormed_ofDecimal (not_zero : decimal.digits ≠ 0) (negative : Bool) :
    (Numeral.ofDecimal negative decimal).WellFormed := by
  unfold Numeral.ofDecimal
  dsimp only
  split
  case isTrue near =>
    refine ⟨fun digit member => isDigit_of_mem_positional (List.mem_append_left _ member),
      decimal.whole_ne_nil, length_whole not_zero, ?_, fun _ _ written => nomatch written⟩
    intro digit member
    dsimp only at member
    split at member
    · rw [List.mem_singleton.mp member]
      rfl
    · exact isDigit_of_mem_positional (List.mem_append_right _ member)
  case isFalse far =>
    have some_digit := decimal.length_digitChars_pos
    have length : (decimal.digitChars.take 1).length = 1 := by
      rw [List.length_take]
      omega
    refine ⟨fun digit member => isDigit_of_mem_toDigits (List.mem_of_mem_take member), ?_,
      fun _ => length, fun digit member => isDigit_of_mem_toDigits (List.mem_of_mem_drop member),
      fun sign digits written => ?_⟩
    · exact List.ne_nil_of_length_pos (by rw [length]; decide)
    · cases written
      exact ⟨Nat.toDigits_ne_nil, fun digit member => isDigit_of_mem_toDigits member⟩

/-! ### Reading the digits of a number -/

/-- Zeros behind the digits are made up for by the exponent. -/
theorem multiple_shift (digits zeros : Nat) {exponent : Int} (lower : -1076 ≤ exponent - zeros) :
    (Decimal.mk (digits * 10 ^ zeros) (exponent - zeros)).multiple =
      (Decimal.mk digits exponent).multiple := by
  have scales : zeros + (exponent - zeros + 1076).toNat = (exponent + 1076).toNat := by omega
  unfold multiple
  dsimp only
  rw [Nat.mul_assoc, ← Nat.pow_add, scales]

theorem negative_ofDecimal (negative : Bool) (decimal : Decimal) :
    (Numeral.ofDecimal negative decimal).negative = negative := by
  unfold Numeral.ofDecimal
  dsimp only
  split <;> rfl

/-- **The digits of a number are read as its decimal**, in units of `10 ^ -1076`. -/
theorem decimal_ofDecimal (lower : -1076 ≤ decimal.exponent) (negative : Bool) :
    (Numeral.ofDecimal negative decimal).decimal.multiple = decimal.multiple ∧
      -1076 ≤ (Numeral.ofDecimal negative decimal).decimal.exponent := by
  unfold Numeral.ofDecimal
  dsimp only
  split
  case isTrue near =>
    have behind := decimal.length_fraction
    have digits := decimal.ofDigitChars_positional
    unfold Numeral.decimal Numeral.scale
    dsimp only
    split
    case isTrue none =>
      -- a zero is written behind the point
      rw [List.isEmpty_iff.mp none] at behind digits
      rw [List.append_nil] at digits
      rw [List.length_nil] at behind
      have read : Nat.ofDigitChars 10 (decimal.positional.1 ++ ['0']) 0 =
          decimal.digits * 10 ^ (decimal.exponent.toNat + 1) := by
        rw [Nat.ofDigitChars_append, digits]
        show Nat.ofDigitChars 10 (List.replicate 1 '0') _ = _
        rw [Nat.ofDigitChars_replicate_zero, Nat.pow_succ]
        ring
      have exponent : (0 : Int) - ['0'].length =
          decimal.exponent - (decimal.exponent.toNat + 1 : Nat) := by
        rw [List.length_singleton]
        omega
      rw [read, exponent]
      exact ⟨multiple_shift _ _ (by omega), by omega⟩
    case isFalse some_digit =>
      have some_behind : 0 < decimal.positional.2.length :=
        List.length_pos_of_ne_nil (fun nothing => some_digit (List.isEmpty_iff.mpr nothing))
      have no_zeros : decimal.exponent.toNat = 0 := by omega
      have exponent : (0 : Int) - decimal.positional.2.length = decimal.exponent := by omega
      rw [digits, no_zeros, Nat.pow_zero, Nat.mul_one, exponent]
      exact ⟨rfl, lower⟩
  case isFalse far =>
    have some_digit := decimal.length_digitChars_pos
    have own : Nat.ofDigitChars 10 decimal.digitChars 0 = decimal.digits :=
      Nat.ofDigitChars_ten_toDigits
    have behind : (decimal.digitChars.drop 1).length = decimal.digitChars.length - 1 :=
      List.length_drop
    have exponent : decimal.point - 1 - (decimal.digitChars.drop 1).length = decimal.exponent := by
      unfold point
      omega
    unfold Numeral.decimal
    rw [Numeral.scale_of_exponent rfl]
    dsimp only
    rw [List.take_append_drop, own, exponent]
    exact ⟨rfl, lower⟩

/-! ### Rounding a decimal -/

theorem mul_ten_pow (digits : Nat) {up down whole twos fives unit : Nat}
    (named : Nat.pow 5 fives = unit) (more : fives = twos + 2)
    (scales : up + down = whole + fives) :
    digits * 10 ^ up * Nat.pow 10 down = (digits * Nat.pow 10 whole) <<< twos * (4 * unit) := by
  have tens : 10 ^ fives = 2 ^ twos * (4 * unit) := by
    rw [← named, show 10 = 2 * 5 from rfl, Nat.mul_pow, more, Nat.pow_add 2 twos 2, Nat.mul_assoc]
    rfl
  calc digits * 10 ^ up * 10 ^ down
      = digits * 10 ^ whole * 10 ^ fives := by
        rw [Nat.mul_assoc, ← Nat.pow_add, scales, Nat.pow_add, Nat.mul_assoc]
    _ = (digits * 10 ^ whole) <<< twos * (4 * unit) := by
        rw [tens, Nat.shiftLeft_eq, Nat.mul_assoc _ (2 ^ twos)]

/-- **A decimal among the reals of a number is rounded to this number.** -/
theorem nearest_eq {magnitude : Nat} (finite : magnitude < Double.infinity)
    (lower : -1076 ≤ decimal.exponent)
    (contained : (Span.ofMagnitude magnitude).contains decimal.multiple = true) :
    Double.nearest (decimal.digits * Nat.pow 10 decimal.exponent.toNat)
      (Nat.pow 10 (-decimal.exponent).toNat) = magnitude := by
  refine Double.nearest_eq_of_contains finite (Nat.pow_pos (by decide)) ?_ contained
  have scales : (decimal.exponent + 1076).toNat + (-decimal.exponent).toNat =
      decimal.exponent.toNat + 1076 := by omega
  obtain ⟨unit, -, named⟩ := Span.exists_unit
  rw [named]
  exact mul_ten_pow decimal.digits named rfl scales

/-- The decimal of a number that is not zero is not zero. -/
theorem digits_ofMagnitude {magnitude : Nat} (not_zero : magnitude ≠ 0) (tie : Tie) :
    (ofMagnitude tie magnitude).digits ≠ 0 := by
  intro nothing
  have contained := contains_multiple tie magnitude
  rw [multiple, nothing, Nat.zero_mul, ← Span.value_zero] at contained
  exact not_zero (Span.magnitude_eq_of_contains contained (Span.contains_value 0))

theorem lower_ofMagnitude (tie : Tie) (magnitude : Nat) :
    -1076 ≤ (ofMagnitude tie magnitude).exponent := by
  unfold ofMagnitude
  dsimp only
  omega

end Decimal

/-! ### Numbers in JSON -/

theorem Double.ofParts_eq (double : Double) :
    ofParts double.isNegative double.magnitude = double := by
  unfold ofParts
  rw [← toNat_bits, UInt64.ofNat_toNat]

/-- The reader gives back a number from the digits it is written with, if it is finite. -/
def Numeral.ReadsBack (read : Numeral → Option Double) (number : Real64) : Prop :=
  ∀ numeral, Numeral.ofReal64? number = some numeral → read numeral = some number.double

namespace Real64

variable {number : Real64} {numeral : Numeral}

/-- A number is written if it is finite: as a zero, or as the digits of its decimal. -/
theorem written_cases (written : Numeral.ofReal64? number = some numeral) :
    number.double.magnitude < Double.infinity ∧
      (number.double.magnitude = 0 ∧ numeral = { whole := ['0'], fraction := ['0'] } ∨
        number.double.magnitude ≠ 0 ∧
          numeral = Numeral.ofDecimal number.double.isNegative
            (Decimal.ofMagnitude .toEven number.double.magnitude)) := by
  unfold Numeral.ofReal64? at written
  split at written
  · cases written
  case isFalse finite =>
    refine ⟨Nat.lt_of_le_of_ne number.magnitude_le fun infinite => finite ?_, ?_⟩
    · exact decide_eq_true infinite
    · split at written
      case isTrue zero => exact .inl ⟨zero, (Option.some.inj written).symm⟩
      case isFalse not_zero => exact .inr ⟨not_zero, (Option.some.inj written).symm⟩

theorem ofReal64?_eq_none_iff : Numeral.ofReal64? number = none ↔ number.isInfinite = true := by
  unfold Numeral.ofReal64?
  split
  case isTrue infinite => exact iff_of_true rfl infinite
  case isFalse finite =>
    refine iff_of_false ?_ finite
    split <;> exact Option.some_ne_none _

/-- **A number is written with digits that a text can hold.** -/
theorem wellFormed_ofReal64? (written : Numeral.ofReal64? number = some numeral) :
    numeral.WellFormed := by
  rcases (written_cases written).2 with ⟨-, rfl⟩ | ⟨not_zero, rfl⟩
  · exact ⟨by simp, by simp, by simp, by simp, by simp⟩
  · exact Decimal.wellFormed_ofDecimal (Decimal.digits_ofMagnitude not_zero .toEven) _

end Real64

namespace Numeral

/-- **To round once is to read back.** -/
theorem readsBack_toNearest? (number : Real64) : ReadsBack toNearest? number := by
  intro numeral written
  obtain ⟨finite, form⟩ := Real64.written_cases written
  have near : numeral.negative = number.double.isNegative ∧ -1076 ≤ numeral.decimal.exponent ∧
      (Span.ofMagnitude number.double.magnitude).contains numeral.decimal.multiple = true := by
    rcases form with ⟨zero, rfl⟩ | ⟨not_zero, rfl⟩
    · have digits : (decimal { whole := ['0'], fraction := ['0'] }).digits = 0 := by decide
      have contained := Span.contains_value 0
      rw [Span.value_zero] at contained
      refine ⟨(number.not_negative_zero zero).symm, by decide, ?_⟩
      rwa [zero, Decimal.multiple, digits, Nat.zero_mul]
    · obtain ⟨multiple, lower⟩ := Decimal.decimal_ofDecimal
        (Decimal.lower_ofMagnitude .toEven number.double.magnitude) number.double.isNegative
      refine ⟨Decimal.negative_ofDecimal _ _, lower, ?_⟩
      rw [multiple]
      exact Decimal.contains_multiple .toEven number.double.magnitude
  obtain ⟨sign, lower, contained⟩ := near
  unfold toNearest?
  dsimp only
  rw [Decimal.nearest_eq finite lower contained, if_pos finite, sign, Double.ofParts_eq]

/-- To round twice is not: `0.10000000000000005` is read as the number below it. -/
example :
    (ofReal64? ⟨⟨0x3fb999999999999d⟩, by decide, by decide⟩).bind toDouble? =
      some ⟨0x3fb999999999999c⟩ := by
  decide +kernel

end Numeral

end RowLogic
