/-
**What JSON numbers denote.**

An integer is a number without point and exponent; minus zero is not one. A number becomes a
`Double` by its leading digits, as many as a 64-bit word holds: they are rounded to a number,
which is then multiplied or divided once by the power of ten that is left, rounded as well. A
number that leaves the range is refused; one that is too small becomes zero.

A `Real64` is written with the fewest digits that read back, a tie between two of them going to
the even one, and always with a point or an exponent: positional from a hundred-thousandth up to
sixteen digits in front of the point, and with an exponent otherwise. An infinity has no number.
-/

import RowLogic.Json.Basic
import RowLogic.Real64.Layout
import RowLogic.Real64.Rounding

namespace RowLogic

namespace Numeral

/-! ### Integers -/

/-- The number of an integer. -/
def ofInt (number : Int) : Numeral where
  negative := number < 0
  whole := Nat.toDigits 10 number.natAbs

/-- The integer of a number that is written as one. -/
def toInt? (numeral : Numeral) : Option Int :=
  let absolute := Nat.ofDigitChars 10 numeral.whole 0
  if !numeral.fraction.isEmpty || numeral.exponent.isSome then none
  else if !numeral.negative then some absolute
  else if absolute = 0 then none
  else some (-absolute)

/-- The integer of four bytes that a number is. -/
def toInt32? (numeral : Numeral) : Option Int32 :=
  match numeral.toInt? with
  | some number =>
    if -0x80000000 ≤ number ∧ number < 0x80000000 then some (Int32.ofInt number) else none
  | none => none

/-- The integer of eight bytes that a number is. -/
def toInt64? (numeral : Numeral) : Option Int64 :=
  match numeral.toInt? with
  | some number =>
    if -0x8000000000000000 ≤ number ∧ number < 0x8000000000000000 then some (Int64.ofInt number)
    else none
  | none => none

/-! ### From numbers to floating point -/

/-- Leading digits that fit a word, and the exponent of the last of them. -/
structure Leading where
  significand : Nat := 0
  exponent : Int := 0
deriving DecidableEq, Repr

/-- One more digit, if the word can hold it. -/
def Leading.push? (leading : Leading) (digit : Char) : Option Nat :=
  let longer := Nat.ofDigitChars 10 [digit] leading.significand
  if longer < 0x10000000000000000 then some longer else none

/-- The digits in front of the point. Those that do not fit are dropped and raise the exponent. -/
def Leading.pushWhole (leading : Leading) : List Char → Leading
  | [] => leading
  | digit :: digits =>
    match leading.push? digit with
    | some longer => Leading.pushWhole ⟨longer, leading.exponent⟩ digits
    | none => ⟨leading.significand, leading.exponent + (digits.length + 1)⟩

/-- The digits behind the point. Each lowers the exponent; those that do not fit are dropped. -/
def Leading.pushFraction (leading : Leading) : List Char → Leading
  | [] => leading
  | digit :: digits =>
    match leading.push? digit with
    | some longer => Leading.pushFraction ⟨longer, leading.exponent - 1⟩ digits
    | none => leading

/-- The written exponent. -/
def scale (numeral : Numeral) : Int :=
  match numeral.exponent with
  | none => 0
  | some (true, digits) => -(Nat.ofDigitChars 10 digits 0 : Int)
  | some (false, digits) => Nat.ofDigitChars 10 digits 0

/-- The leading digits of a number with their exponent. -/
def leading (numeral : Numeral) : Leading :=
  let leading := (Leading.pushWhole {} numeral.whole).pushFraction numeral.fraction
  ⟨leading.significand, leading.exponent + numeral.scale⟩

/-- A magnitude divided by a power of ten. Powers beyond the range are divided by in steps. -/
def shrink (magnitude exponent : Nat) : Nat :=
  if exponent ≤ 308 then Double.quotient magnitude (Double.powerOfTen exponent)
  else if magnitude = 0 then 0
  else shrink (Double.quotient magnitude (Double.powerOfTen 308)) (exponent - 308)
termination_by exponent

/-- A magnitude multiplied by a power of ten, if that stays in the range. -/
def grow? (magnitude exponent : Nat) : Option Nat :=
  if 308 < exponent then if magnitude = 0 then some 0 else none
  else
    let product := Double.product magnitude (Double.powerOfTen exponent)
    if product < Double.infinity then some product else none

/-- The magnitude of the absolute value of a number. -/
def magnitude? (numeral : Numeral) : Option Nat :=
  let leading := numeral.leading
  let magnitude := Double.nearest leading.significand 1
  if 0 ≤ leading.exponent then grow? magnitude leading.exponent.toNat
  else some (shrink magnitude leading.exponent.natAbs)

/-- The floating-point number of a number. -/
def toDouble? (numeral : Numeral) : Option Double :=
  numeral.magnitude?.map (Double.ofParts numeral.negative)

/-! ### From floating point to numbers -/

/-- The number of a decimal. -/
def ofDecimal (negative : Bool) (decimal : Decimal) : Numeral :=
  let point := decimal.point
  if -5 < point ∧ point ≤ 16 then
    let (whole, fraction) := decimal.positional
    { negative := negative
      whole := whole
      fraction := if fraction.isEmpty then ['0'] else fraction }
  else
    { negative := negative
      whole := decimal.digitChars.take 1
      fraction := decimal.digitChars.drop 1
      exponent := some (point - 1 < 0, Nat.toDigits 10 (point - 1).natAbs) }

/-- The number of a finite floating-point number. -/
def ofReal64? (number : Real64) : Option Numeral :=
  if number.isInfinite then none
  else if number.double.magnitude = 0 then some { whole := ['0'], fraction := ['0'] }
  else some (ofDecimal number.double.isNegative
    (Decimal.ofMagnitude .toEven number.double.magnitude))

end Numeral

end RowLogic
