/-
**Rows and parameters.**

The values that an expression is evaluated against: the columns of a row, and the parameters of
the query, both addressed by position from zero. A query without parameters differs from one with
an empty list of them, though neither binds anything.
-/

import RowLogic.Value.Native

namespace RowLogic

/-- The column values of one row. -/
structure Row where
  values : List Value := []
deriving DecidableEq, Inhabited

namespace Row

/-- The row without columns. -/
def empty : Row := {}

/-- A row of native values. -/
def ofList {α : Type} [ToValue α] (members : List α) : Row :=
  ⟨members.map toValue⟩

/-- The number of columns. -/
def width (row : Row) : Nat :=
  row.values.length

/-- The value of a column. -/
def get? (row : Row) (index : Nat) : Option Value :=
  row.values[index]?

/-- The row has no columns. -/
def isEmpty (row : Row) : Bool :=
  row.values.isEmpty

end Row

/-- The parameters of a query. -/
inductive Params where
  | none
  | positional (values : List Value)
deriving DecidableEq, Inhabited

namespace Params

/-- The value of a parameter. -/
def get? : Params → Nat → Option Value
  | none, _ => Option.none
  | positional values, index => values[index]?

/-- The query takes no parameters. -/
def isNone : Params → Bool
  | none => true
  | positional _ => false

end Params

end RowLogic
