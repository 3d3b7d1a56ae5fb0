/-
**Ordered 64-bit floating point.**

`Double` is a bit pattern of a binary64 number and may be a NaN. `Real64` is a number: neither a
NaN nor the negative zero, so that each number has one bit pattern. Hence

* two numbers are equal exactly when their bits are;
* `Real64.compare` is a total order, and it is the order of the numbers: below the sign the bits
  grow with the absolute value, so the signed magnitude `Real64.rank` grows with the number;
* `Real64.units` is the number itself, in units of the least positive one.
-/

import RowLogic.Bytes.LittleEndian

namespace RowLogic

/-- The bits of a binary64 number, NaNs and both zeros included. -/
structure Double where
  bits : UInt64
deriving DecidableEq, Repr, Inhabited

namespace Double

/-- The bits below the sign: the exponent and, below it, the fraction. -/
def magnitude (number : Double) : Nat :=
  number.bits.toNat % 0x8000000000000000

/-- The sign bit is set. -/
def isNegative (number : Double) : Bool :=
  0x8000000000000000 ≤ number.bits.toNat

/-- The magnitude of the two infinities: the largest exponent over an empty fraction. -/
def infinity : Nat :=
  0x7ff0000000000000

/-- The largest exponent over a fraction that is not empty. -/
def isNaN (number : Double) : Bool :=
  infinity < number.magnitude

/-- The pattern with the given sign and magnitude. -/
def ofParts (negative : Bool) (magnitude : Nat) : Double :=
  ⟨UInt64.ofNat (magnitude + if negative then 0x8000000000000000 else 0)⟩

/-- The lower 52 bits of a magnitude. -/
def fraction (magnitude : Nat) : Nat :=
  magnitude % 0x10000000000000

/-- The bits of a magnitude above the fraction. -/
def exponent (magnitude : Nat) : Nat :=
  magnitude / 0x10000000000000

/-- The absolute value of a finite magnitude, in units of the least positive number: the fraction
alone under the exponent zero, and else the fraction with a leading one, doubled for each exponent
above the first. -/
def unitsOf (magnitude : Nat) : Nat :=
  if exponent magnitude = 0 then fraction magnitude
  else (fraction magnitude + 0x10000000000000) <<< (exponent magnitude - 1)

end Double

/-- A binary64 number that is neither a NaN nor the negative zero. -/
structure Real64 where
  double : Double
  not_nan : double.isNaN = false
  not_negative_zero : double.magnitude = 0 → double.isNegative = false
deriving DecidableEq

namespace Real64

/-- The positive zero, the only zero there is. -/
def zero : Real64 :=
  ⟨⟨0⟩, by decide, by decide⟩

instance : Inhabited Real64 := ⟨zero⟩

/-- The bits of a number. -/
def bits (number : Real64) : UInt64 :=
  number.double.bits

/-- The number of a bit pattern. A NaN has none, and both zeros have the positive one. -/
def ofDouble? (double : Double) : Option Real64 :=
  if nan : double.isNaN = true then none
  else if empty : double.magnitude = 0 then some zero
  else some ⟨double, by simpa using nan, fun isZero => absurd isZero empty⟩

/-- What is said of a pattern that is no number. -/
def nanMessage : String :=
  "NaN is not a valid ordered float"

/-- One of the two infinities. -/
def isInfinite (number : Real64) : Bool :=
  number.double.magnitude = Double.infinity

/-- The magnitude with its sign: an integer that grows with the number. -/
def rank (number : Real64) : Int :=
  if number.double.isNegative then -(number.double.magnitude : Int) else number.double.magnitude

/-- The order of the numbers. -/
protected def compare (first second : Real64) : Ordering :=
  Ord.compare first.rank second.rank

instance : Ord Real64 := ⟨Real64.compare⟩

/-- The order of the numbers as one in which some could be without an order. None are. -/
def partialCompare (first second : Real64) : Option Ordering :=
  some (first.compare second)

/-- The number in units of the least positive one. The infinities stand at the double of the
largest power of two, beyond every finite number. -/
def units (number : Real64) : Int :=
  if number.double.isNegative then -(Double.unitsOf number.double.magnitude : Int)
  else Double.unitsOf number.double.magnitude

/-- The bytes that a hash function is fed: the bits alone, as equal numbers have equal bits. -/
def hashInput (number : Real64) : List UInt8 :=
  LittleEndian.encode 8 number.bits.toNat

/-- The numbers among some bit patterns, in ascending order. -/
def sortedOf (doubles : List Double) : List Real64 :=
  (doubles.filterMap ofDouble?).mergeSort fun first second => first.rank ≤ second.rank

end Real64

end RowLogic
