/-
**The steps of an evaluation.**

A connective judges its left operand, and if that one has a truth value its right operand, by what
the operand declares and what it came to (`Connective.judge`). The marks are there to spare the
question for the declared type, and a mark on an operand that declares a boolean changes nothing but
that: `Connective.examine_truth`, `Connective.examine_agree`.

* `Expr.evaluate_left_stops`, `Expr.evaluate_left_passes`: all that a connective can do.
-/

import RowLogic.Expr.Evaluation

namespace RowLogic

/-! ### Tallies -/

namespace Tallies

/-- The same numbers of evaluations, whatever types were asked for. -/
def Agree (first second : Tallies) : Prop :=
  ∀ name, (first.get name).evaluations = (second.get name).evaluations

theorem Agree.refl (tallies : Tallies) : Agree tallies tallies :=
  fun _ => rfl

theorem Agree.trans {first second third : Tallies} (agree : Agree first second)
    (agree' : Agree second third) : Agree first third :=
  fun name => (agree name).trans (agree' name)

theorem get_update (change : Tally → Tally) (tallies : Tallies) (changed name : String) :
    (tallies.update change changed).get name =
      if changed = name then change (tallies.get name) else tallies.get name := by
  by_cases same : changed = name
  · rw [if_pos same, same, get_update_self]
  · rw [if_neg same, get_update_of_ne _ (Ne.symm same)]

theorem evaluations_countEvaluation (tallies : Tallies) (counted name : String) :
    ((tallies.countEvaluation counted).get name).evaluations =
      (tallies.get name).evaluations + if counted = name then 1 else 0 := by
  rw [countEvaluation, get_update]
  split <;> rfl

theorem typeQueries_countEvaluation (tallies : Tallies) (counted name : String) :
    ((tallies.countEvaluation counted).get name).typeQueries = (tallies.get name).typeQueries := by
  rw [countEvaluation, get_update]
  split <;> rfl

theorem typeQueries_countTypeQuery (tallies : Tallies) (asked name : String) :
    ((tallies.countTypeQuery asked).get name).typeQueries =
      (tallies.get name).typeQueries + if asked = name then 1 else 0 := by
  rw [countTypeQuery, get_update]
  split <;> rfl

theorem Agree.countEvaluation {first second : Tallies} (agree : Agree first second)
    (counted : String) :
    Agree (first.countEvaluation counted) (second.countEvaluation counted) := by
  intro name
  rw [evaluations_countEvaluation, evaluations_countEvaluation, agree name]

end Tallies

namespace Expr

theorem queryType_fst (expr : Expr) (tallies : Tallies) :
    (expr.queryType tallies).1 = expr.declared := by
  cases expr <;> rfl

end Expr

/-! ### The check of an operand -/

namespace Connective

/-- What a connective makes of an operand that it checks: its truth value, `none` for undefined, or
a fault. -/
def judge (kind : Connective) (side : Side) (declared : DataType) :
    Except Fault Value → Except Fault (Option Bool)
  | .error fault => .error fault
  | .ok .undefined => .ok none
  | .ok value =>
    if declared = .boolean then kind.truthOf side value
    else .error (.operandNotBoolean side kind.name declared)

/-- The outcome of a connective that comes to a truth value, `none` for undefined, or to a fault. -/
def conclude : Except Fault (Option Bool) → Except Fault Value
  | .error fault => .error fault
  | .ok none => .ok .undefined
  | .ok (some truth) => .ok (.boolean truth)

variable {kind : Connective} {side : Side} {checked : Bool} {operand : Evaluated}

theorem truthOf_of_ne {value : Value} (other : value.dataType ≠ .boolean) :
    kind.truthOf side value = .error (.operandValueNotBoolean side kind.name value.dataType) := by
  cases value with
  | boolean truth => exact absurd rfl other
  | _ => rfl

/-- **A justified mark changes no verdict.** -/
theorem examine_truth (justified : checked = true → operand.expr.declared = .boolean) :
    (kind.examine side checked operand).truth =
      kind.judge side operand.expr.declared operand.outcome := by
  obtain ⟨outcome, expr, tallies⟩ := operand
  have asked := expr.queryType_fst tallies
  unfold examine judge
  rcases outcome with fault | value
  · rfl
  cases checked with
  | true =>
    have boolean : expr.declared = .boolean := justified rfl
    cases value <;> simp [boolean]
  | false => by_cases boolean : expr.declared = .boolean <;> cases value <;> simp [asked, boolean]

/-- An operand is marked only if it was before or declares a boolean. -/
theorem examine_checked (marked : (kind.examine side checked operand).checked = true) :
    checked = true ∨ operand.expr.declared = .boolean := by
  obtain ⟨outcome, expr, tallies⟩ := operand
  have asked := expr.queryType_fst tallies
  unfold examine at marked
  rcases outcome with fault | value
  · exact Or.inl marked
  cases checked with
  | true => exact Or.inl rfl
  | false =>
    by_cases boolean : expr.declared = .boolean
    · exact Or.inr boolean
    · cases value <;> simp [asked, boolean] at marked

end Connective

/-! ### The evaluation of a connective -/

namespace Expr

variable {params : Params} {row : Row} {tallies : Tallies} {left right : Expr} {kind : Connective}
  {leftChecked rightChecked : Bool} {first second : Evaluated} {judged judged' : Examined}

theorem truth_cases (truth : Except Fault (Option Bool)) :
    (∃ known, truth = .ok (some known)) ∨ ∀ known, truth ≠ .ok (some known) := by
  rcases truth with fault | _ | known
  · exact Or.inr fun known same => nomatch same
  · exact Or.inr fun known same => nomatch same
  · exact Or.inl ⟨known, rfl⟩

/-- **A left operand without a truth value** decides the connective, and the right one rests. -/
theorem evaluate_left_stops (run : left.evaluate params row tallies = first)
    (check : kind.examine .left leftChecked first = judged)
    (stops : ∀ known, judged.truth ≠ .ok (some known)) :
    (connective left right kind leftChecked rightChecked).evaluate params row tallies =
      ⟨Connective.conclude judged.truth,
        connective first.expr right kind judged.checked rightChecked, judged.tallies⟩ := by
  subst run check
  rw [evaluate]
  dsimp only
  rcases truth : (kind.examine .left leftChecked (left.evaluate params row tallies)).truth with
    fault | _ | known
  · rfl
  · rfl
  · exact absurd truth (stops known)

/-- **A left operand with a truth value** passes the evaluation on to the right one. -/
theorem evaluate_left_passes {known : Bool} (run : left.evaluate params row tallies = first)
    (check : kind.examine .left leftChecked first = judged)
    (passes : judged.truth = .ok (some known))
    (run' : right.evaluate params row judged.tallies = second)
    (check' : kind.examine .right rightChecked second = judged') :
    (connective left right kind leftChecked rightChecked).evaluate params row tallies =
      ⟨Connective.conclude (judged'.truth.map (Option.map (kind.apply known))),
        connective first.expr second.expr kind judged.checked judged'.checked,
        judged'.tallies⟩ := by
  subst run check run' check'
  rw [evaluate]
  dsimp only
  rw [passes]
  dsimp only
  rcases truth : (kind.examine .right rightChecked (right.evaluate params row
    (kind.examine .left leftChecked (left.evaluate params row tallies)).tallies)).truth with
    fault | _ | known' <;> rfl

end Expr

end RowLogic
