/-
**Evaluation under three-valued logic.**

A connective evaluates its left operand and then its right one.

* An undefined operand makes the whole expression undefined, and a left one keeps the right one
  from being evaluated. A known value decides nothing by itself: `false` and `x` still evaluates
  `x`.
* The first time an operand gives a known value, its declared type is checked; when that is
  boolean the operand is marked, and never checked again by this instance.
* A known value that is not boolean is a fault, even of a marked operand.

An evaluation changes the marks of the tree and the tallies of its probes and nothing else, so its
result is an outcome together with the tree and the tallies that it leaves behind.
-/

import RowLogic.Expr.Basic
import RowLogic.Value.Row

namespace RowLogic

/-! ### Tallies -/

/-- How often a probe was called. -/
structure Tally where
  evaluations : Nat := 0
  typeQueries : Nat := 0
deriving DecidableEq, Repr, Inhabited

/-- The tallies of some probes, by name. -/
abbrev Tallies := List (String × Tally)

namespace Tallies

/-- The tally of a probe; a probe that was never called has an empty one. -/
def get (tallies : Tallies) (name : String) : Tally :=
  match tallies with
  | [] => {}
  | (other, tally) :: tallies => if other = name then tally else get tallies name

/-- The tallies with one of them changed. -/
def update (change : Tally → Tally) (name : String) : Tallies → Tallies
  | [] => [(name, change {})]
  | (other, tally) :: tallies =>
    if other = name then (other, change tally) :: tallies
    else (other, tally) :: update change name tallies

/-- One more evaluation of a probe. -/
def countEvaluation (tallies : Tallies) (name : String) : Tallies :=
  tallies.update (fun tally => { tally with evaluations := tally.evaluations + 1 }) name

/-- One more question for the declared type of a probe. -/
def countTypeQuery (tallies : Tallies) (name : String) : Tallies :=
  tallies.update (fun tally => { tally with typeQueries := tally.typeQueries + 1 }) name

theorem get_update_self (change : Tally → Tally) (name : String) (tallies : Tallies) :
    (tallies.update change name).get name = change (tallies.get name) := by
  induction tallies with
  | nil => simp [update, get]
  | cons entry tallies ih =>
    obtain ⟨other, tally⟩ := entry
    by_cases same : other = name
    · simp [update, get, same]
    · simp [update, get, same, ih]

theorem get_update_of_ne (change : Tally → Tally) {name other : String}
    (different : other ≠ name) (tallies : Tallies) :
    (tallies.update change name).get other = tallies.get other := by
  induction tallies with
  | nil => simp [update, get, different.symm]
  | cons entry tallies ih =>
    obtain ⟨head, tally⟩ := entry
    by_cases same : head = name
    · subst same
      simp [update, get, different.symm]
    · simp [update, get, same, ih]

end Tallies

/-! ### Evaluation -/

namespace Expr

/-- Asks an expression for its declared type; a probe counts the question. -/
def queryType (expr : Expr) (tallies : Tallies) : DataType × Tallies :=
  match expr with
  | probe leaf => (leaf.declared, tallies.countTypeQuery leaf.name)
  | other => (other.declared, tallies)

end Expr

/-- An evaluation of an expression: its outcome, and the expression and the tallies it leaves. -/
structure Evaluated where
  outcome : Except Fault Value
  expr : Expr
  tallies : Tallies

/-- An evaluated operand in the eyes of its connective: a truth value, `none` for undefined, or a
fault; the mark it has from now on; and the tallies. -/
structure Examined where
  truth : Except Fault (Option Bool)
  checked : Bool
  tallies : Tallies

namespace Connective

/-- The truth value that a known operand gives to its connective. -/
def truthOf (kind : Connective) (side : Side) (value : Value) : Except Fault (Option Bool) :=
  match value.truth? with
  | some truth => .ok (some truth)
  | none => .error (.operandValueNotBoolean side kind.name value.dataType)

/-- What a connective makes of an evaluated operand that carries the mark `checked`. -/
def examine (kind : Connective) (side : Side) (checked : Bool) (operand : Evaluated) : Examined :=
  match operand.outcome with
  | .error fault => ⟨.error fault, checked, operand.tallies⟩
  | .ok .undefined => ⟨.ok none, checked, operand.tallies⟩
  | .ok value =>
    if checked then ⟨kind.truthOf side value, checked, operand.tallies⟩
    else
      let (declared, tallies) := operand.expr.queryType operand.tallies
      if declared = .boolean then ⟨kind.truthOf side value, true, tallies⟩
      else ⟨.error (.operandNotBoolean side kind.name declared), checked, tallies⟩

end Connective

namespace Expr

/-- Evaluates an expression against the parameters of a query and a row. -/
def evaluate (params : Params) (row : Row) : Expr → Tallies → Evaluated
  | constant value, tallies => ⟨.ok value, constant value, tallies⟩
  | column index type, tallies =>
    let outcome := match row.get? index.toNat with
      | some value => .ok value
      | none => .error (.columnNotFound index.toNat row.width)
    ⟨outcome, column index type, tallies⟩
  | parameter index type, tallies =>
    let outcome := match params.get? index.toNat with
      | some value => .ok value
      | none => .error (.parameterNotBound index.toNat)
    ⟨outcome, parameter index type, tallies⟩
  | probe leaf, tallies =>
    ⟨leaf.outcome (tallies.get leaf.name).evaluations, probe leaf,
      tallies.countEvaluation leaf.name⟩
  | connective left right kind leftChecked rightChecked, tallies =>
    let first := left.evaluate params row tallies
    let leftTruth := kind.examine .left leftChecked first
    match leftTruth.truth with
    | .error fault =>
      ⟨.error fault, connective first.expr right kind leftTruth.checked rightChecked,
        leftTruth.tallies⟩
    | .ok none =>
      ⟨.ok .undefined, connective first.expr right kind leftTruth.checked rightChecked,
        leftTruth.tallies⟩
    | .ok (some leftValue) =>
      let second := right.evaluate params row leftTruth.tallies
      let rightTruth := kind.examine .right rightChecked second
      let outcome := match rightTruth.truth with
        | .error fault => .error fault
        | .ok none => .ok .undefined
        | .ok (some rightValue) => .ok (.boolean (kind.apply leftValue rightValue))
      ⟨outcome, connective first.expr second.expr kind leftTruth.checked rightTruth.checked,
        rightTruth.tallies⟩

/-- The outcomes of an expression on some rows in turn, each row finding the marks and the tallies
that the ones before it left. -/
def evaluateRows (expr : Expr) (params : Params) (rows : List Row) (tallies : Tallies) :
    List (Except Fault Value) × Expr × Tallies :=
  match rows with
  | [] => ([], expr, tallies)
  | row :: rows =>
    let here := expr.evaluate params row tallies
    let (outcomes, expr, tallies) := here.expr.evaluateRows params rows here.tallies
    (here.outcome :: outcomes, expr, tallies)

end Expr

end RowLogic
