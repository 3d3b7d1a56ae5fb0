/-
**The shape of an expression.**

What an expression is apart from the marks of its operands: `SameTree` compares two expressions and
passes over the marks, and a copy is an expression of the same tree without any (`sameTree_copy`,
`unmarked_copy`). Text, declared type, depth and encoding belong to the tree.
-/

import RowLogic.Expr.Encoding

namespace RowLogic.Expr

/-- The nesting depth: one level for a leaf, and for a connective one more than for its deeper
operand. -/
def depth : Expr → Nat
  | connective left right .. => max left.depth right.depth + 1
  | _ => 1

/-- No leaf is a probe. -/
def ProbeFree : Expr → Prop
  | probe _ => False
  | connective left right .. => left.ProbeFree ∧ right.ProbeFree
  | _ => True

/-- The expression is the probe of this name. -/
def isProbe (name : String) : Expr → Bool
  | probe leaf => leaf.name = name
  | _ => false

/-- Four bytes hold the length of each text constant. -/
def TextsFit : Expr → Prop
  | constant (.utf8 text) => (Utf8.encode text).length < 0x100000000
  | connective left right .. => left.TextsFit ∧ right.TextsFit
  | _ => True

/-- No operand is marked, at any level. -/
def Unmarked : Expr → Prop
  | connective left right _ leftChecked rightChecked =>
    left.Unmarked ∧ right.Unmarked ∧ leftChecked = false ∧ rightChecked = false
  | _ => True

/-- The same leaves under the same connectives, whatever is marked. -/
inductive SameTree : Expr → Expr → Prop where
  | constant (value : Value) : SameTree (.constant value) (.constant value)
  | column (index : UInt32) (type : DataType) : SameTree (.column index type) (.column index type)
  | parameter (index : UInt32) (type : DataType) :
    SameTree (.parameter index type) (.parameter index type)
  | probe (leaf : Probe) : SameTree (.probe leaf) (.probe leaf)
  | connective {left right left' right' : Expr} (kind : Connective)
    (leftChecked rightChecked leftChecked' rightChecked' : Bool) (left_same : SameTree left left')
    (right_same : SameTree right right') :
    SameTree (.connective left right kind leftChecked rightChecked)
      (.connective left' right' kind leftChecked' rightChecked')

/-! ### Copies -/

@[simp] theorem copy_connective (left right : Expr) (kind : Connective)
    (leftChecked rightChecked : Bool) :
    (connective left right kind leftChecked rightChecked).copy =
      combine kind left.copy right.copy := rfl

theorem unmarked_copy (expr : Expr) : expr.copy.Unmarked := by
  induction expr with
  | connective left right kind _ _ left_ih right_ih => exact ⟨left_ih, right_ih, rfl, rfl⟩
  | _ => trivial

/-- An expression without marks is its own copy. -/
theorem copy_of_unmarked {expr : Expr} (unmarked : expr.Unmarked) : expr.copy = expr := by
  induction expr with
  | connective left right kind _ _ left_ih right_ih =>
    obtain ⟨left_unmarked, right_unmarked, rfl, rfl⟩ := unmarked
    rw [copy_connective, left_ih left_unmarked, right_ih right_unmarked]
    rfl
  | _ => rfl

@[simp] theorem copy_copy (expr : Expr) : expr.copy.copy = expr.copy :=
  copy_of_unmarked (unmarked_copy expr)

theorem sameTree_copy (expr : Expr) : expr.copy.SameTree expr := by
  induction expr with
  | connective left right kind leftChecked rightChecked left_ih right_ih =>
    exact .connective kind _ _ _ _ left_ih right_ih
  | constant value => exact .constant value
  | column index type => exact .column index type
  | parameter index type => exact .parameter index type
  | probe leaf => exact .probe leaf

@[simp] theorem depth_copy (expr : Expr) : expr.copy.depth = expr.depth := by
  induction expr with
  | connective left right kind _ _ left_ih right_ih =>
    rw [copy_connective, combine, depth, depth, left_ih, right_ih]
  | _ => rfl

@[simp] theorem declared_copy (expr : Expr) : expr.copy.declared = expr.declared := by
  cases expr <;> rfl

@[simp] theorem isProbe_copy (expr : Expr) (name : String) :
    expr.copy.isProbe name = expr.isProbe name := by
  cases expr <;> rfl

@[simp] theorem chars_copy (expr : Expr) : expr.copy.chars = expr.chars := by
  induction expr with
  | connective left right kind _ _ left_ih right_ih =>
    show '(' ::
        (left.copy.chars ++ (' ' :: kind.name.toList ++ ' ' :: (right.copy.chars ++ [')']))) =
      '(' :: (left.chars ++ (' ' :: kind.name.toList ++ ' ' :: (right.chars ++ [')'])))
    rw [left_ih, right_ih]
  | _ => rfl

@[simp] theorem text_copy (expr : Expr) : expr.copy.text = expr.text :=
  congrArg String.ofList (chars_copy expr)

@[simp] theorem ofExpr_copy (expr : Expr) : Emission.ofExpr expr.copy = Emission.ofExpr expr := by
  induction expr with
  | connective left right kind _ _ left_ih right_ih =>
    rw [copy_connective, combine, Emission.ofExpr, Emission.ofExpr, left_ih, right_ih]
  | _ => rfl

/-- The marks are not encoded. -/
@[simp] theorem encode_copy (expr : Expr) : expr.copy.encode = expr.encode := by
  rw [encode, encode, ofExpr_copy]

theorem depth_pos (expr : Expr) : 0 < expr.depth := by
  cases expr <;> exact Nat.succ_pos _

end RowLogic.Expr
