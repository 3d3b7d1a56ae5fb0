/-
**Data types.**

Every value has one of six data types. A type has three spellings: the byte that stands for it on
the wire, the name under which JSON knows it, and the upper-case text that readers see. Its place
in the ascending order is a matter of its own and differs from the byte.

* `ofTag?_tag` and `tag_of_ofTag?`: a byte stands for at most one type, and each type has a byte;
* `ofName?_name` and `name_of_ofName?`: the same for the names.
-/

namespace RowLogic

/-- The type of a value, in ascending order. -/
inductive DataType where
  | boolean
  | int4
  | int8
  | float8
  | utf8
  | undefined
deriving DecidableEq, Repr, Inhabited

namespace DataType

/-- All types, in ascending order. -/
def all : List DataType :=
  [boolean, int4, int8, float8, utf8, undefined]

/-- The byte that stands for a type on the wire. -/
def tag : DataType → UInt8
  | undefined => 0
  | boolean => 1
  | int4 => 2
  | int8 => 3
  | float8 => 4
  | utf8 => 5

/-- The type that a byte stands for. -/
def ofTag? (byte : UInt8) : Option DataType :=
  if byte = 0 then some undefined
  else if byte = 1 then some boolean
  else if byte = 2 then some int4
  else if byte = 3 then some int8
  else if byte = 4 then some float8
  else if byte = 5 then some utf8
  else none

/-- The name of a type in JSON. -/
def name : DataType → String
  | boolean => "Boolean"
  | int4 => "Int4"
  | int8 => "Int8"
  | float8 => "Float8"
  | utf8 => "Utf8"
  | undefined => "Undefined"

/-- The type of a name. -/
def ofName? (name : String) : Option DataType :=
  all.find? (·.name = name)

/-- The text of a type. -/
def text : DataType → String
  | boolean => "BOOLEAN"
  | int4 => "INT4"
  | int8 => "INT8"
  | float8 => "FLOAT8"
  | utf8 => "UTF8"
  | undefined => "UNDEFINED"

/-- The place of a type in the ascending order. -/
def rank : DataType → Nat
  | boolean => 0
  | int4 => 1
  | int8 => 2
  | float8 => 3
  | utf8 => 4
  | undefined => 5

instance : Ord DataType := ⟨fun first second => compare first.rank second.rank⟩

/-- Some types in ascending order. -/
def sorted (types : List DataType) : List DataType :=
  types.mergeSort fun first second => first.rank ≤ second.rank

@[simp] theorem ofTag?_tag (type : DataType) : ofTag? type.tag = some type := by
  cases type <;> rfl

theorem tag_of_ofTag? {byte : UInt8} {type : DataType} (known : ofTag? byte = some type) :
    type.tag = byte := by
  unfold ofTag? at known
  split at known
  all_goals simp_all [tag]
  all_goals grind [tag]

@[simp] theorem ofName?_name (type : DataType) : ofName? type.name = some type := by
  cases type <;> decide

theorem name_of_ofName? {name : String} {type : DataType} (known : ofName? name = some type) :
    type.name = name := by
  have found := List.find?_some known
  exact of_decide_eq_true found

end DataType

end RowLogic
