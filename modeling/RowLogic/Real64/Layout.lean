/-
**Numbers in decimal notation.**

The digits of a number are laid out around the decimal point. In texts for readers the notation is
positional throughout, an integer has no point, and a tie between two shortest forms goes up.
-/

import RowLogic.Real64.Shortest

namespace RowLogic

namespace Decimal

/-- The digit characters, the most significant first. -/
def digitChars (decimal : Decimal) : List Char :=
  Nat.toDigits 10 decimal.digits

/-- How many digits stand in front of the decimal point; if negative, how many zeros behind it
precede the first digit. -/
def point (decimal : Decimal) : Int :=
  decimal.digitChars.length + decimal.exponent

/-- The digits in front of the point and those behind it, filled up with zeros. -/
def positional (decimal : Decimal) : List Char × List Char :=
  let digits := decimal.digitChars
  let point := decimal.point
  if point ≤ 0 then (['0'], List.replicate (-point).toNat '0' ++ digits)
  else (digits.take point.toNat ++ List.replicate (point.toNat - digits.length) '0',
    digits.drop point.toNat)

end Decimal

namespace Real64

/-- The text of an absolute value. -/
def magnitudeChars (number : Real64) : List Char :=
  if number.isInfinite then ['i', 'n', 'f']
  else if number.double.magnitude = 0 then ['0']
  else
    let (whole, fraction) := (Decimal.ofMagnitude .up number.double.magnitude).positional
    if fraction.isEmpty then whole else whole ++ '.' :: fraction

/-- The text of a number: the fewest digits that read back, without an exponent. -/
def chars (number : Real64) : List Char :=
  if number.double.isNegative then '-' :: number.magnitudeChars else number.magnitudeChars

/-- The text of a number. -/
def text (number : Real64) : String :=
  String.ofList number.chars

end Real64

end RowLogic
