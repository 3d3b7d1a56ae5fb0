/-
**Values.**

A value is a boolean, an integer of four or eight bytes, a number, a text, or undefined, which is
the unknown of three-valued logic. Equality is that of the constructors and their contents; since
numbers have one bit pattern each (`Real64`), equal values are fed alike to a hash function.
-/

import RowLogic.Bytes.Utf8
import RowLogic.Real64.Layout
import RowLogic.Value.DataType

namespace RowLogic

/-- A runtime value. -/
inductive Value where
  | undefined
  | boolean (truth : Bool)
  | int4 (number : Int32)
  | int8 (number : Int64)
  | float8 (number : Real64)
  | utf8 (text : String)
deriving DecidableEq, Inhabited

namespace Value

/-- The value of a bit pattern; a NaN is undefined. -/
def ofDouble (double : Double) : Value :=
  match Real64.ofDouble? double with
  | some number => float8 number
  | none => undefined

/-- The value is not known. -/
def isUndefined : Value → Bool
  | undefined => true
  | _ => false

/-- The truth value of a boolean. -/
def truth? : Value → Option Bool
  | boolean truth => some truth
  | _ => none

/-- The type of a value. -/
def dataType : Value → DataType
  | undefined => .undefined
  | boolean _ => .boolean
  | int4 _ => .int4
  | int8 _ => .int8
  | float8 _ => .float8
  | utf8 _ => .utf8

/-- The characters of an integer. -/
def intChars (number : Int) : List Char :=
  if number < 0 then '-' :: Nat.toDigits 10 number.natAbs else Nat.toDigits 10 number.natAbs

/-- The characters of a value: a text stands between single quotes, with nothing escaped. -/
def chars : Value → List Char
  | undefined => "undefined".toList
  | boolean true => "true".toList
  | boolean false => "false".toList
  | int4 number => intChars number.toInt
  | int8 number => intChars number.toInt
  | float8 number => number.chars
  | utf8 text => '\'' :: text.toList ++ ['\'']

/-- The text of a value. -/
def text (value : Value) : String :=
  String.ofList value.chars

/-- The bytes that a hash function is fed: which kind of value it is, and the value; a text ends in
a byte that no text contains. -/
def hashInput (value : Value) : List UInt8 :=
  LittleEndian.encode 8 value.dataType.tag.toNat ++
    match value with
    | undefined => []
    | boolean truth => [if truth then 1 else 0]
    | int4 number => LittleEndian.encode 4 number.toUInt32.toNat
    | int8 number => LittleEndian.encode 8 number.toUInt64.toNat
    | float8 number => number.hashInput
    | utf8 text => Utf8.encode text ++ [0xff]

end Value

end RowLogic
