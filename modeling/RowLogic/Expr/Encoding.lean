/-
**The encoding of expressions.**

An expression is the byte of its kind and then its content: the value of a constant; the position
and the type of a column or a parameter; the two operands of a connective, the left one first, and
then the connective, as a boolean that is set for OR. The marks of checked operands are not
encoded. A probe cannot be encoded: what stands in front of it has been written by then, and
nothing else is.
-/

import RowLogic.Expr.Basic
import RowLogic.Wire.Emission

namespace RowLogic

/-- The kinds of expression that have an encoding. -/
inductive ExprTag where
  | constant
  | column
  | parameter
  | connective
deriving DecidableEq, Repr, Inhabited

namespace ExprTag

/-- The byte that stands for a kind of expression. -/
def byte : ExprTag → UInt8
  | constant => 1
  | column => 2
  | parameter => 3
  | connective => 4

/-- The kind of expression that a byte stands for. -/
def ofByte? (byte : UInt8) : Option ExprTag :=
  if byte = 1 then some constant
  else if byte = 2 then some column
  else if byte = 3 then some parameter
  else if byte = 4 then some connective
  else none

@[simp] theorem ofByte?_byte (tag : ExprTag) : ofByte? tag.byte = some tag := by
  cases tag <;> rfl

theorem byte_of_ofByte? {byte : UInt8} {tag : ExprTag} (known : ofByte? byte = some tag) :
    tag.byte = byte := by
  unfold ofByte? at known
  grind [ExprTag.byte]

end ExprTag

namespace Emission

/-- The byte of a kind of expression. -/
def ofTag (tag : ExprTag) : Emission :=
  ofByte tag.byte

/-- A connective is a boolean that is set for OR. -/
def ofConnective (kind : Connective) : Emission :=
  ofBool kind.isOr

/-- An expression: the byte of its kind, and then its content. -/
def ofExpr : Expr → Emission
  | .constant value => ofTag .constant ++ ofValue value
  | .column index type => ofTag .column ++ (ofUInt32 index ++ ofDataType type)
  | .parameter index type => ofTag .parameter ++ (ofUInt32 index ++ ofDataType type)
  | .probe _ => fail (.notEncodable "probe")
  | .connective left right kind _ _ =>
    ofTag .connective ++ (ofExpr left ++ (ofExpr right ++ ofConnective kind))

/-- Two operands, the left one first. -/
def ofOperands (left right : Expr) : Emission :=
  ofExpr left ++ ofExpr right

end Emission

/-- The bytes of an expression. -/
def Expr.encode (expr : Expr) : Except Fault (List UInt8) :=
  (Emission.ofExpr expr).result

end RowLogic
