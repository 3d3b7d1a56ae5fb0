/-
**Expressions.**

The row-level expressions of a query: constants, columns and parameters as leaves, and the
connectives AND and OR over them. A probe is a leaf that follows a script and whose calls are
counted; it exists to observe evaluations and has no encoding.

A connective carries a mark for each operand, set once the declared type of that operand was found
to be boolean. The marks belong to the one instance: a copy starts without them (`copy`), and so
does a decoded expression.
-/

import RowLogic.Diagnostic.Fault
import RowLogic.Value.Basic

namespace RowLogic

/-- A connective of two operands. -/
inductive Connective where
  | and
  | or
deriving DecidableEq, Repr, Inhabited

namespace Connective

/-- The connective of a flag that is set for OR. -/
def ofFlag (isOr : Bool) : Connective :=
  if isOr then or else and

/-- The connective is OR. -/
def isOr : Connective → Bool
  | and => false
  | or => true

/-- The name of a connective. -/
def name : Connective → String
  | and => "and"
  | or => "or"

/-- The connective of two known truth values. -/
def apply : Connective → Bool → Bool → Bool
  | and, left, right => left && right
  | or, left, right => left || right

@[simp] theorem ofFlag_isOr (connective : Connective) : ofFlag connective.isOr = connective := by
  cases connective <;> rfl

@[simp] theorem isOr_ofFlag (isOr : Bool) : (ofFlag isOr).isOr = isOr := by
  cases isOr <;> rfl

end Connective

/-- What a probe does in one evaluation. -/
inductive Scripted where
  | gives (value : Value)
  | fails
deriving DecidableEq

/-- A leaf that follows a script. Its copies go by the same name and share its tally. -/
structure Probe where
  name : String
  declared : DataType
  script : List Scripted
deriving DecidableEq

namespace Probe

/-- The outcome of the evaluation that has so many before it: the script's entry, then its last one
for ever; undefined for an empty script. -/
def outcome (probe : Probe) (evaluations : Nat) : Except Fault Value :=
  match probe.script[evaluations]?.or probe.script.getLast? with
  | some (.gives value) => .ok value
  | some .fails => .error .probeFailure
  | none => .ok .undefined

end Probe

/-- A node of an expression. -/
inductive Expr where
  /-- A literal value. -/
  | constant (value : Value)
  /-- The column at a position of the row, and the type that the plan gives it. -/
  | column (index : UInt32) (declared : DataType)
  /-- The parameter at a position of the query, and the type that the plan gives it. -/
  | parameter (index : UInt32) (declared : DataType)
  /-- A scripted leaf. -/
  | probe (leaf : Probe)
  /-- Two operands under a connective, and the marks of the operands whose type was checked. -/
  | connective (left right : Expr) (kind : Connective) (leftChecked rightChecked : Bool)
deriving DecidableEq

namespace Expr

/-- Two operands under a connective, neither of them checked. -/
def combine (kind : Connective) (left right : Expr) : Expr :=
  connective left right kind false false

/-- The type that an expression declares, whatever the row. -/
def declared : Expr → DataType
  | constant value => value.dataType
  | column _ type => type
  | parameter _ type => type
  | probe leaf => leaf.declared
  | connective .. => .boolean

/-- The same expression with no operand checked. -/
def copy : Expr → Expr
  | connective left right kind _ _ => connective left.copy right.copy kind false false
  | leaf => leaf

/-- The characters of an expression; operands stand in parentheses around their connective. -/
def chars : Expr → List Char
  | constant value => value.chars
  | column index _ => "col[".toList ++ Nat.toDigits 10 index.toNat ++ [']']
  | parameter index _ => '$' :: Nat.toDigits 10 (index.toNat + 1)
  | probe _ => "probe".toList
  | connective left right kind _ _ =>
    '(' :: (left.chars ++ (' ' :: kind.name.toList ++ ' ' :: (right.chars ++ [')'])))

/-- The text of an expression. -/
def text (expr : Expr) : String :=
  String.ofList expr.chars

/-- The operand at the end of a path of sides. -/
def follow? : List Side → Expr → Option Expr
  | [], expr => some expr
  | .left :: path, connective left .. => left.follow? path
  | .right :: path, connective _ right .. => right.follow? path
  | _ :: _, _ => none

/-- Whether two constants, two columns or two parameters are equal; no other pair is compared. -/
def leafEq? : Expr → Expr → Option Bool
  | constant first, constant second => some (first = second)
  | column first firstType, column second secondType =>
    some (first = second ∧ firstType = secondType)
  | parameter first firstType, parameter second secondType =>
    some (first = second ∧ firstType = secondType)
  | _, _ => none

end Expr

end RowLogic
