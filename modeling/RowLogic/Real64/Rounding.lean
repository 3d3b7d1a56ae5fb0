/-
**Rounding to the nearest number.**

`Double.nearest` gives the magnitude of the binary64 number closest to a quotient of two natural
numbers; of two that are equally close, the one with the even fraction. Multiplication and
division of magnitudes are the exact result, rounded once.
-/

import RowLogic.Real64.Basic

namespace RowLogic.Double

/-- A quotient rounded to the nearest natural number, a half to the even one. -/
def roundQuotient (num den : Nat) : Nat :=
  let floor := num / den
  let rest := num % den
  if 2 * rest < den then floor
  else if den < 2 * rest then floor + 1
  else if floor % 2 = 0 then floor else floor + 1

/-- The exponent, counted from the least one there is, under which a quotient has a significand of
53 bits; zero for the quotients that are too small for that many. -/
def exponentOf (num den : Nat) : Nat :=
  ((num <<< 1074) / den).log2 - 52

/-- The magnitude of the number nearest to `num / den`; the infinite one if that is too large. The
exponent and the significand are added up, so that a significand rounded up to the next power of
two moves to the next exponent by itself. -/
def nearest (num den : Nat) : Nat :=
  let exponent := exponentOf num den
  let significand := roundQuotient (num <<< 1074) (den <<< exponent)
  min (exponent * 0x10000000000000 + significand) infinity

/-- The rounded product of two finite magnitudes. -/
def product (first second : Nat) : Nat :=
  nearest (unitsOf first * unitsOf second) (1 <<< 2148)

/-- The rounded quotient of two finite magnitudes. -/
def quotient (first second : Nat) : Nat :=
  nearest (unitsOf first) (unitsOf second)

/-- The number nearest to a power of ten. -/
def powerOfTen (exponent : Nat) : Nat :=
  nearest (Nat.pow 10 exponent) 1

end RowLogic.Double
