/-
**The decoding of expressions.**

A tagged expression is read one level deeper than the place it stands in, so a leaf needs one
level and a connective one more than its deeper operand. No operand of a decoded connective is
marked as checked.

* Reading ends because each level takes one of the levels that are left; `nested` therefore goes
  by the number of levels still open.
* A tag that stands for no expression has been consumed when it is refused, unlike a field that
  cannot be read.
-/

import RowLogic.Expr.Encoding
import RowLogic.Wire.Reader

namespace RowLogic.Read

/-- The byte of a kind of expression. -/
def tag : Read ExprTag := do
  let start ← offset
  let byte ← byte
  match ExprTag.ofByte? byte with
  | some tag => pure tag
  | none => throw (.unknownExpressionTag byte start)

/-- A connective. -/
def connectiveKind : Read Connective :=
  Connective.ofFlag <$> bool

/-- The content of a constant. -/
def constant : Read Expr :=
  .constant <$> value

/-- The content of a column. -/
def column : Read Expr := do
  let index ← uint32
  let type ← dataType
  pure (.column index type)

/-- The content of a parameter. -/
def parameter : Read Expr := do
  let index ← uint32
  let type ← dataType
  pure (.parameter index type)

/-- Two operands, each read by `operand`. -/
def operandsBy (operand : Read Expr) : Read (Expr × Expr) := do
  let left ← operand
  let right ← operand
  pure (left, right)

/-- The content of a connective whose operands are read by `operand`. -/
def connectiveBy (operand : Read Expr) : Read Expr := do
  let (left, right) ← operandsBy operand
  let kind ← connectiveKind
  pure (.combine kind left right)

/-- The content of an expression of some kind. -/
def contentBy (operand : Read Expr) : ExprTag → Read Expr
  | .constant => constant
  | .column => column
  | .parameter => parameter
  | .connective => connectiveBy operand

/-- A tagged expression whose operands are read by `operand`. -/
def taggedBy (operand : Read Expr) : Read Expr := do
  contentBy operand (← tag)

/-- A tagged expression, one level deeper, where so many levels are open. -/
def nestedWithin : Nat → Reader → EStateM.Result Fault Reader Expr
  | 0, reader => malformed (.nestingTooDeep reader.limits.maxDepth) reader
  | levels + 1, reader => deeper (taggedBy (nestedWithin levels)) reader

/-- A tagged expression, one level deeper. -/
def nested : Read Expr := fun reader =>
  nestedWithin (reader.limits.maxDepth - reader.depth) reader

/-- Two tagged expressions, the left operand first. -/
def operands : Read (Expr × Expr) :=
  operandsBy nested

/-- The content of a connective. -/
def connective : Read Expr :=
  connectiveBy nested

end RowLogic.Read

namespace RowLogic

/-- The expression that some bytes encode. -/
def Expr.decode (bytes : List UInt8) (limits : DecodeLimits) : Except Fault Expr :=
  Read.whole Read.nested bytes limits

end RowLogic
