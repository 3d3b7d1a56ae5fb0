/-
**A number is read back from its text.**

Wherever the point of a decimal falls, its digits on both sides of the point are those of the
decimal, filled up with zeros (`Decimal.ofDigitChars_positional`). So the text of a number, read as
a decimal, rounds to this number (`Real64.contains_read`), and two numbers differ in their texts
(`Real64.chars_injective`).
-/

import RowLogic.Proofs.Real64.Order
import RowLogic.Proofs.Real64.Shortest
import RowLogic.Proofs.Text.Scanning
import RowLogic.Real64.Layout

namespace RowLogic

namespace Decimal

variable {decimal : Decimal} {char : Char}

/-! ### The two sides of the point -/

theorem length_digitChars_pos (decimal : Decimal) : 0 < decimal.digitChars.length :=
  List.length_pos_of_ne_nil Nat.toDigits_ne_nil

/-- Only digits stand on both sides. -/
theorem isDigit_of_mem_positional
    (member : char ∈ decimal.positional.1 ++ decimal.positional.2) : char.isDigit = true := by
  unfold positional at member
  dsimp only at member
  split at member
  case isTrue small =>
    simp only [List.mem_append, List.mem_replicate, List.mem_singleton] at member
    rcases member with rfl | ⟨-, rfl⟩ | digit
    · rfl
    · rfl
    · exact isDigit_of_mem_toDigits digit
  case isFalse large =>
    simp only [List.mem_append, List.mem_replicate] at member
    rcases member with (digit | ⟨-, rfl⟩) | digit
    · exact isDigit_of_mem_toDigits (List.mem_of_mem_take digit)
    · rfl
    · exact isDigit_of_mem_toDigits (List.mem_of_mem_drop digit)

/-- Something stands in front of the point. -/
theorem whole_ne_nil (decimal : Decimal) : decimal.positional.1 ≠ [] := by
  unfold positional
  dsimp only
  have some_digit := decimal.length_digitChars_pos
  split
  case isTrue small => exact List.cons_ne_nil _ _
  case isFalse large =>
    refine List.ne_nil_of_length_pos ?_
    rw [List.length_append, List.length_take, List.length_replicate]
    omega

/-- Behind the point stand as many digits as the exponent says. -/
theorem length_fraction (decimal : Decimal) :
    decimal.positional.2.length = (-decimal.exponent).toNat := by
  unfold positional point
  dsimp only
  split
  case isTrue small =>
    rw [List.length_append, List.length_replicate]
    omega
  case isFalse large =>
    rw [List.length_drop]
    omega

/-- **The digits on both sides** are those of the decimal, with zeros for a large exponent. -/
theorem ofDigitChars_positional (decimal : Decimal) :
    Nat.ofDigitChars 10 (decimal.positional.1 ++ decimal.positional.2) 0 =
      decimal.digits * 10 ^ decimal.exponent.toNat := by
  have own : Nat.ofDigitChars 10 decimal.digitChars 0 = decimal.digits :=
    Nat.ofDigitChars_ten_toDigits
  unfold positional point
  dsimp only
  split
  case isTrue small =>
    have some_digit := decimal.length_digitChars_pos
    have no_zeros : decimal.exponent.toNat = 0 := by omega
    rw [Nat.ofDigitChars_append, Nat.ofDigitChars_append, Nat.ofDigitChars_replicate_zero, no_zeros,
      Nat.pow_zero, Nat.mul_one]
    exact own
  case isFalse large =>
    by_cases inside : decimal.exponent ≤ 0
    · -- the point falls among the digits
      have no_zeros : (decimal.digitChars.length + decimal.exponent).toNat -
          decimal.digitChars.length = 0 := by omega
      have none : decimal.exponent.toNat = 0 := by omega
      rw [no_zeros, List.replicate_zero, List.append_nil, List.take_append_drop, own, none,
        Nat.pow_zero, Nat.mul_one]
    · -- the point falls behind the digits
      have beyond : decimal.digitChars.length ≤
          (decimal.digitChars.length + decimal.exponent).toNat := by omega
      have zeros : (decimal.digitChars.length + decimal.exponent).toNat -
          decimal.digitChars.length = decimal.exponent.toNat := by omega
      rw [List.take_of_length_le beyond, List.drop_of_length_le beyond, List.append_nil, zeros,
        Nat.ofDigitChars_append, own, Nat.ofDigitChars_replicate_zero, Nat.mul_comm]

/-! ### Reading -/

/-- The two sides around the point, which is left out if nothing stands behind it. -/
def join (whole fraction : List Char) : List Char :=
  whole ++ if fraction.isEmpty then [] else '.' :: fraction

/-- The decimal that some characters are, in units of `10 ^ -1076`. -/
def read (chars : List Char) : Nat :=
  let whole := chars.takeWhile (· ≠ '.')
  let fraction := (chars.dropWhile (· ≠ '.')).tail
  Nat.ofDigitChars 10 (whole ++ fraction) 0 * 10 ^ (1076 - fraction.length)

/-- The two sides are told apart. -/
theorem sides_join {whole fraction : List Char} (digits : ∀ char ∈ whole, char.isDigit = true) :
    (join whole fraction).takeWhile (· ≠ '.') = whole ∧
      ((join whole fraction).dropWhile (· ≠ '.')).tail = fraction := by
  have no_point : ∀ char ∈ whole, decide (char ≠ '.') = true := by
    intro char member
    refine decide_eq_true fun point => ?_
    have digit := digits char member
    rw [point] at digit
    cases digit
  unfold join
  cases fraction with
  | nil =>
    exact ⟨takeWhile_append_of_stops no_point stops_nil,
      congrArg List.tail (dropWhile_append_of_stops no_point stops_nil)⟩
  | cons char chars =>
    exact ⟨takeWhile_append_of_stops no_point (stops_cons rfl _),
      congrArg List.tail (dropWhile_append_of_stops no_point (stops_cons rfl _))⟩

theorem read_zero : read ['0'] = 0 := by
  have sides := @sides_join ['0'] [] (by simp)
  have written : join ['0'] [] = ['0'] := rfl
  have nothing : Nat.ofDigitChars 10 (['0'] ++ []) 0 = 0 := by decide
  rw [written] at sides
  unfold read
  dsimp only
  rw [sides.1, sides.2, nothing, Nat.zero_mul]

/-- **A decimal is read back**, in units of `10 ^ -1076`. -/
theorem read_positional (decimal : Decimal) :
    read (join decimal.positional.1 decimal.positional.2) = decimal.multiple := by
  have scales : (decimal.exponent + 1076).toNat =
      decimal.exponent.toNat + (1076 - (-decimal.exponent).toNat) := by omega
  obtain ⟨whole, fraction⟩ :=
    sides_join fun char member => isDigit_of_mem_positional (List.mem_append_left _ member)
  unfold read
  dsimp only
  rw [whole, fraction, ofDigitChars_positional, length_fraction, multiple, scales, Nat.pow_add,
    Nat.mul_assoc]

end Decimal

namespace Real64

variable {number first second : Real64} {char : Char}

theorem magnitudeChars_of_finite {whole fraction : List Char} (finite : ¬ number.isInfinite = true)
    (not_zero : number.double.magnitude ≠ 0)
    (sides : (Decimal.ofMagnitude .up number.double.magnitude).positional = (whole, fraction)) :
    number.magnitudeChars = Decimal.join whole fraction := by
  unfold magnitudeChars Decimal.join
  rw [if_neg finite, if_neg not_zero, sides]
  cases fraction with
  | nil => exact (List.append_nil whole).symm
  | cons char chars => rfl

theorem magnitudeChars_of_zero (zero : number.double.magnitude = 0) :
    number.magnitudeChars = ['0'] := by
  have finite : ¬ number.isInfinite = true := by
    rw [isInfinite, zero]
    decide
  rw [magnitudeChars, if_neg finite, if_pos zero]

/-- **The text of a finite number rounds to this number.** -/
theorem contains_read (finite : ¬ number.isInfinite = true) :
    (Span.ofMagnitude number.double.magnitude).contains (Decimal.read number.magnitudeChars) =
      true := by
  by_cases zero : number.double.magnitude = 0
  · have itself := Span.contains_value 0
    rw [Span.value_zero] at itself
    rwa [magnitudeChars_of_zero zero, zero, Decimal.read_zero]
  · have found := Decimal.contains_multiple .up number.double.magnitude
    rwa [magnitudeChars_of_finite finite zero (Prod.eta _).symm, Decimal.read_positional]

/-- The text of an absolute value is a word, or digits around a point. -/
theorem magnitudeChars_cases (number : Real64) :
    number.isInfinite = true ∧ number.magnitudeChars = ['i', 'n', 'f'] ∨
      ¬ number.isInfinite = true ∧ ∃ whole fraction,
        number.magnitudeChars = Decimal.join whole fraction ∧ whole ≠ [] ∧
          ∀ char ∈ whole ++ fraction, char.isDigit = true := by
  by_cases infinite : number.isInfinite = true
  · exact .inl ⟨infinite, if_pos infinite⟩
  refine .inr ⟨infinite, ?_⟩
  by_cases zero : number.double.magnitude = 0
  · exact ⟨['0'], [], magnitudeChars_of_zero zero, List.cons_ne_nil _ _, by simp⟩
  · exact ⟨_, _, magnitudeChars_of_finite infinite zero (Prod.eta _).symm,
      Decimal.whole_ne_nil _, fun _ => Decimal.isDigit_of_mem_positional⟩

/-- The text of an absolute value begins without a sign. -/
theorem exists_unsigned (number : Real64) :
    ∃ first rest, number.magnitudeChars = first :: rest ∧
      (number.isInfinite = true ∧ first = 'i' ∨
        ¬ number.isInfinite = true ∧ first.isDigit = true) := by
  rcases number.magnitudeChars_cases with
    ⟨infinite, text⟩ | ⟨finite, whole, fraction, text, some_digit, digits⟩
  · exact ⟨_, _, text, .inl ⟨infinite, rfl⟩⟩
  · obtain ⟨first, rest, rfl⟩ := List.exists_cons_of_ne_nil some_digit
    exact ⟨first, _, text,
      .inr ⟨finite, digits first (List.mem_append_left _ List.mem_cons_self)⟩⟩

/-- The characters that texts of numbers are made of. -/
theorem mem_chars (member : char ∈ number.chars) :
    char.isDigit = true ∨ char ∈ ['-', '.', 'i', 'n', 'f'] := by
  have unsigned : char ∈ number.magnitudeChars →
      char.isDigit = true ∨ char ∈ ['-', '.', 'i', 'n', 'f'] := by
    intro member
    rcases number.magnitudeChars_cases with ⟨-, text⟩ | ⟨-, whole, fraction, text, -, digits⟩
    · rw [text] at member
      exact .inr (List.mem_cons_of_mem _ (List.mem_cons_of_mem _ member))
    · rw [text, Decimal.join, List.mem_append] at member
      rcases member with member | member
      · exact .inl (digits char (List.mem_append_left _ member))
      split at member
      · cases member
      rcases List.mem_cons.mp member with rfl | member
      · exact .inr (by decide)
      · exact .inl (digits char (List.mem_append_right _ member))
  unfold chars at member
  split at member
  case isTrue negative =>
    rcases List.mem_cons.mp member with rfl | member
    · exact .inr List.mem_cons_self
    · exact unsigned member
  case isFalse positive => exact unsigned member

/-- **Absolute values with one text are equal.** -/
theorem magnitude_eq_of_magnitudeChars (same : first.magnitudeChars = second.magnitudeChars) :
    first.double.magnitude = second.double.magnitude := by
  obtain ⟨char, rest, text, begins⟩ := first.exists_unsigned
  obtain ⟨char', rest', text', begins'⟩ := second.exists_unsigned
  obtain rfl : char = char' := by
    rw [text, text'] at same
    exact (List.cons.inj same).1
  rcases begins with ⟨infinite, rfl⟩ | ⟨finite, digit⟩ <;>
    rcases begins' with ⟨infinite', word⟩ | ⟨finite', digit'⟩
  · exact (of_decide_eq_true infinite).trans (of_decide_eq_true infinite').symm
  · cases digit'
  · rw [word] at digit
    cases digit
  · have own := contains_read finite
    rw [same] at own
    exact Span.magnitude_eq_of_contains own (contains_read finite')

/-- **No two numbers have one text.** -/
theorem chars_injective (same : first.chars = second.chars) : first = second := by
  have unsigned (number : Real64) (rest : List Char) : number.magnitudeChars ≠ '-' :: rest := by
    obtain ⟨char, rest', text, begins⟩ := number.exists_unsigned
    intro signed
    rw [text] at signed
    rw [(List.cons.inj signed).1] at begins
    rcases begins with ⟨-, word⟩ | ⟨-, digit⟩
    · cases word
    · cases digit
  unfold chars at same
  cases sign : first.double.isNegative <;> cases sign' : second.double.isNegative <;>
    simp only [sign, sign', if_true, if_false, Bool.false_eq_true] at same
  case false.false =>
    exact double_injective
      (Double.eq_of_parts (sign.trans sign'.symm) (magnitude_eq_of_magnitudeChars same))
  case false.true => exact absurd same (unsigned _ _)
  case true.false => exact absurd same.symm (unsigned _ _)
  case true.true =>
    have tail := (List.cons.inj same).2
    exact double_injective
      (Double.eq_of_parts (sign.trans sign'.symm) (magnitude_eq_of_magnitudeChars tail))

end Real64

end RowLogic
