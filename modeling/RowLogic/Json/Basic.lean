/-
**JSON.**

A document as a tree. Objects keep their entries in the order of the text, and a key may be
repeated. A number keeps its digits as they stand in the text, because whether it is an integer
shows only there: `1.0` is not one.
-/

namespace RowLogic

/-- A number as it is written: digits in front of the point, digits behind it, and an exponent. -/
structure Numeral where
  negative : Bool := false
  whole : List Char
  /-- The digits behind the point; none if there is no point. -/
  fraction : List Char := []
  /-- The sign and the digits of the exponent. -/
  exponent : Option (Bool × List Char) := none
deriving DecidableEq, Repr, Inhabited

/-- A JSON document. -/
inductive Json where
  | null
  | bool (truth : Bool)
  | number (numeral : Numeral)
  | text (text : String)
  | array (items : List Json)
  | object (entries : List (String × Json))
deriving Inhabited, Repr

namespace Json

/-- The value of the first entry with a key. -/
def field? (json : Json) (key : String) : Option Json :=
  match json with
  | object entries => entries.lookup key
  | _ => none

/-- The text of an optional text. -/
def ofText? : Option String → Json
  | some content => text content
  | none => null

end Json

end RowLogic
