/-
**Values and types in JSON.**

A type is its name. A value is an object with one entry, from the name of its type to its content;
undefined, which has no content, is its name alone. Reading is exact: it takes no other spelling
of a name, no entry beside the one, and no number for an integer that is not written as one. A
floating point number may be written as an integer, and an infinity, which JSON cannot write,
becomes `null` and is not read back.

Which floating-point number a number in JSON is, is left to a reader of numbers; here it is
`Numeral.toDouble?`.
-/

import RowLogic.Json.Number
import RowLogic.Value.Basic

namespace RowLogic

/-- A type in JSON. -/
def DataType.toJson (type : DataType) : Json :=
  .text type.name

/-- Reads a type; a name may also be the key of an entry without content. -/
def DataType.ofJson? : Json → Option DataType
  | .text name => ofName? name
  | .object [(name, .null)] => ofName? name
  | _ => none

/-- A floating-point number in JSON. -/
def Real64.toJson (number : Real64) : Json :=
  match Numeral.ofReal64? number with
  | some numeral => .number numeral
  | none => .null

/-- Reads a floating-point number, where it is known which one a number in JSON is. -/
def Real64.ofJsonBy? (read : Numeral → Option Double) : Json → Option Real64
  | .number numeral => (read numeral).bind ofDouble?
  | _ => none

/-- Reads a floating-point number. -/
def Real64.ofJson? : Json → Option Real64 :=
  ofJsonBy? Numeral.toDouble?

namespace Value

/-- The content of a value in JSON. -/
def contentJson : Value → Json
  | undefined => .null
  | boolean truth => .bool truth
  | int4 number => .number (.ofInt number.toInt)
  | int8 number => .number (.ofInt number.toInt)
  | float8 number => number.toJson
  | utf8 text => .text text

/-- A value in JSON. -/
def toJson : Value → Json
  | undefined => .text DataType.undefined.name
  | value => .object [(value.dataType.name, value.contentJson)]

/-- Reads the content of a value of a type, where it is known which floating-point number a number
in JSON is. -/
def ofContentJsonBy? (read : Numeral → Option Double) : DataType → Json → Option Value
  | .undefined, .null => some undefined
  | .boolean, .bool truth => some (boolean truth)
  | .int4, .number numeral => numeral.toInt32?.map int4
  | .int8, .number numeral => numeral.toInt64?.map int8
  | .float8, json => (Real64.ofJsonBy? read json).map float8
  | .utf8, .text text => some (utf8 text)
  | _, _ => none

/-- Reads a value, where it is known which floating-point number a number in JSON is. -/
def ofJsonBy? (read : Numeral → Option Double) : Json → Option Value
  | .text name => if name = DataType.undefined.name then some undefined else none
  | .object [(name, content)] =>
    match DataType.ofName? name with
    | some type => ofContentJsonBy? read type content
    | none => none
  | _ => none

/-- Reads a value. -/
def ofJson? : Json → Option Value :=
  ofJsonBy? Numeral.toDouble?

end Value

end RowLogic
