/-
**The outcomes of expressions without probes.**

An expression without probes comes to the same outcome as a fresh copy of it, whatever was evaluated
before (`evaluate_outcome`). So the outcomes of any number of evaluations are those of a fresh copy
for each (`outcomes_eq_map`, `evaluateRows_fst`).
-/

import RowLogic.Proofs.Evaluation.Marks

namespace RowLogic.Expr

variable {params : Params} {row : Row}

theorem probeFree_copy (expr : Expr) : expr.copy.ProbeFree ↔ expr.ProbeFree := by
  induction expr with
  | connective left right kind _ _ left_ih right_ih => exact and_congr left_ih right_ih
  | _ => rfl

theorem probeFree_of_copy_eq {first second : Expr} (same : first.copy = second.copy)
    (probeFree : second.ProbeFree) : first.ProbeFree := by
  rw [← probeFree_copy first, same, probeFree_copy]
  exact probeFree

/-- The outcome of a fresh copy. -/
def reference (expr : Expr) (params : Params) (row : Row) : Except Fault Value :=
  (expr.copy.evaluate params row []).outcome

theorem reference_of_copy_eq {first second : Expr} (same : first.copy = second.copy) :
    first.reference params row = second.reference params row := by
  rw [reference, reference, same]

/-- Two sound instances of a tree without probes agree on every row. -/
theorem outcome_eq_of_copy_eq {first second : Expr} (same : first.copy = second.copy)
    (first_sound : first.Sound) (second_sound : second.Sound) (probeFree : first.ProbeFree)
    (tallies tallies' : Tallies) :
    (first.evaluate params row tallies).outcome =
      (second.evaluate params row tallies').outcome := by
  induction first generalizing second tallies tallies' with
  | connective left right kind leftChecked rightChecked left_ih right_ih =>
    cases second with
    | connective left' right' kind' leftChecked' rightChecked' =>
      injection same with left_same right_same kind_same
      subst kind_same
      obtain ⟨left_sound, right_sound, left_justified, right_justified⟩ := first_sound
      obtain ⟨left_sound', right_sound', left_justified', right_justified'⟩ := second_sound
      -- both instances give the same verdict on their left operands
      have left_truth : (kind.examine .left leftChecked (left.evaluate params row tallies)).truth =
          (kind.examine .left leftChecked' (left'.evaluate params row tallies')).truth := by
        rw [examine_evaluate_truth left_justified, examine_evaluate_truth left_justified',
          declared_eq_of_copy_eq left_same,
          left_ih left_same left_sound left_sound' probeFree.1 tallies tallies']
      have right_truth : ∀ before before',
          (kind.examine .right rightChecked (right.evaluate params row before)).truth =
            (kind.examine .right rightChecked' (right'.evaluate params row before')).truth := by
        intro before before'
        rw [examine_evaluate_truth right_justified, examine_evaluate_truth right_justified',
          declared_eq_of_copy_eq right_same,
          right_ih right_same right_sound right_sound' probeFree.2 before before']
      rcases truth_cases (kind.examine .left leftChecked (left.evaluate params row tallies)).truth
        with ⟨known, passes⟩ | stops
      · rw [evaluate_left_passes rfl rfl passes rfl rfl,
          evaluate_left_passes rfl rfl (left_truth ▸ passes) rfl rfl]
        exact congrArg
          (fun truth => Connective.conclude (truth.map (Option.map (kind.apply known))))
          (right_truth _ _)
      · rw [evaluate_left_stops rfl rfl stops, evaluate_left_stops rfl rfl (left_truth ▸ stops)]
        exact congrArg Connective.conclude left_truth
    | _ => cases same
  | probe leaf => exact absurd probeFree id
  | _ =>
    cases second <;> cases same
    rfl

/-- **Neither marks nor tallies show in an outcome.** -/
theorem evaluate_outcome {expr : Expr} (probeFree : expr.ProbeFree) (sound : expr.Sound)
    (tallies : Tallies) : (expr.evaluate params row tallies).outcome = expr.reference params row :=
  outcome_eq_of_copy_eq (copy_copy expr).symm sound (unmarked_copy expr).sound probeFree tallies []

/-! ### Evaluations in turn -/

/-- The outcomes of some evaluations in turn, each finding the marks and the tallies that the ones
before it left. -/
def outcomes (expr : Expr) : List (Params × Row) → Tallies → List (Except Fault Value)
  | [], _ => []
  | (params, row) :: calls, tallies =>
    let here := expr.evaluate params row tallies
    here.outcome :: here.expr.outcomes calls here.tallies

theorem outcomes_eq_map {expr : Expr} (probeFree : expr.ProbeFree) (sound : expr.Sound)
    (calls : List (Params × Row)) (tallies : Tallies) :
    expr.outcomes calls tallies = calls.map fun call => expr.reference call.1 call.2 := by
  induction calls generalizing expr tallies with
  | nil => rfl
  | cons call calls ih =>
    obtain ⟨params, row⟩ := call
    have kept : (expr.evaluate params row tallies).expr.copy = expr.copy :=
      copy_evaluate expr tallies
    rw [outcomes, ih (probeFree_of_copy_eq kept probeFree) (sound.evaluate tallies),
      evaluate_outcome probeFree sound, List.map_cons]
    simp only [reference_of_copy_eq kept]

theorem evaluateRows_fst {expr : Expr} (probeFree : expr.ProbeFree) (sound : expr.Sound)
    (rows : List Row) (tallies : Tallies) :
    (expr.evaluateRows params rows tallies).1 = rows.map (expr.reference params) := by
  induction rows generalizing expr tallies with
  | nil => rfl
  | cons row rows ih =>
    have kept : (expr.evaluate params row tallies).expr.copy = expr.copy :=
      copy_evaluate expr tallies
    rw [evaluateRows, List.map_cons]
    dsimp only
    rw [ih (probeFree_of_copy_eq kept probeFree) (sound.evaluate tallies),
      evaluate_outcome probeFree sound]
    congr 2
    funext row
    exact reference_of_copy_eq kept

end RowLogic.Expr
