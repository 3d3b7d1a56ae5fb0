/-
**The marks of an expression in use.**

An expression is composed of operands that may have been evaluated already, and evaluations go on,
of the whole and of operands by themselves: `Expr.Reached` are the expressions to which this can
lead. Whatever happens, the tree stays (`copy_evaluate`) and each marked operand declares a boolean
(`Reached.sound`).
-/

import RowLogic.Proofs.Evaluation.Steps
import RowLogic.Proofs.Expr.Shape

namespace RowLogic.Expr

variable {params : Params} {row : Row} {tallies : Tallies}

/-- Each marked operand declares a boolean, at every level. -/
def Sound : Expr → Prop
  | connective left right _ leftChecked rightChecked =>
    left.Sound ∧ right.Sound ∧ (leftChecked = true → left.declared = .boolean) ∧
      (rightChecked = true → right.declared = .boolean)
  | _ => True

theorem Unmarked.sound {expr : Expr} (unmarked : expr.Unmarked) : expr.Sound := by
  induction expr with
  | connective left right kind _ _ left_ih right_ih =>
    obtain ⟨left_unmarked, right_unmarked, rfl, rfl⟩ := unmarked
    exact ⟨left_ih left_unmarked, right_ih right_unmarked, (fun marked => nomatch marked),
      (fun marked => nomatch marked)⟩
  | _ => trivial

/-! ### What an evaluation leaves -/

/-- The tree stays. -/
@[simp] theorem copy_evaluate (expr : Expr) (tallies : Tallies) :
    (expr.evaluate params row tallies).expr.copy = expr.copy := by
  induction expr generalizing tallies with
  | connective left right kind leftChecked rightChecked left_ih right_ih =>
    rcases truth_cases (kind.examine .left leftChecked (left.evaluate params row tallies)).truth
      with ⟨known, passes⟩ | stops
    · rw [evaluate_left_passes rfl rfl passes rfl rfl, copy_connective, copy_connective, left_ih,
        right_ih]
    · rw [evaluate_left_stops rfl rfl stops, copy_connective, copy_connective, left_ih]
  | _ => rfl

theorem declared_eq_of_copy_eq {first second : Expr} (same : first.copy = second.copy) :
    first.declared = second.declared := by
  rw [← declared_copy first, same, declared_copy]

@[simp] theorem declared_evaluate (expr : Expr) (tallies : Tallies) :
    (expr.evaluate params row tallies).expr.declared = expr.declared :=
  declared_eq_of_copy_eq (copy_evaluate expr tallies)

section Operands

variable {expr : Expr} {kind : Connective} {side : Side} {checked : Bool}

/-- A justified operand is judged by its declared type and its outcome. -/
theorem examine_evaluate_truth (justified : checked = true → expr.declared = .boolean) :
    (kind.examine side checked (expr.evaluate params row tallies)).truth =
      kind.judge side expr.declared (expr.evaluate params row tallies).outcome := by
  rw [Connective.examine_truth (by rwa [declared_evaluate]), declared_evaluate]

/-- The mark that an operand has from now on is justified if its mark was. -/
theorem examine_evaluate_checked (justified : checked = true → expr.declared = .boolean)
    (marked : (kind.examine side checked (expr.evaluate params row tallies)).checked = true) :
    (expr.evaluate params row tallies).expr.declared = .boolean := by
  rcases Connective.examine_checked marked with before | boolean
  · rw [declared_evaluate, justified before]
  · exact boolean

end Operands

/-- **Marks stay justified**, also when the evaluation fails or comes to nothing. -/
theorem Sound.evaluate {expr : Expr} (sound : expr.Sound) (tallies : Tallies) :
    (expr.evaluate params row tallies).expr.Sound := by
  induction expr generalizing tallies with
  | connective left right kind leftChecked rightChecked left_ih right_ih =>
    obtain ⟨left_sound, right_sound, left_justified, right_justified⟩ := sound
    have left_after := left_ih left_sound tallies
    rcases truth_cases (kind.examine .left leftChecked (left.evaluate params row tallies)).truth
      with ⟨known, passes⟩ | stops
    · rw [evaluate_left_passes rfl rfl passes rfl rfl]
      exact ⟨left_after, right_ih right_sound _, examine_evaluate_checked left_justified,
        examine_evaluate_checked right_justified⟩
    · rw [evaluate_left_stops rfl rfl stops]
      exact ⟨left_after, right_sound, examine_evaluate_checked left_justified, right_justified⟩
  | _ => trivial

/-! ### The expressions in use -/

/-- One evaluation of the whole expression or of an operand in it. -/
inductive Evolves : Expr → Expr → Prop where
  | whole (expr : Expr) (params : Params) (row : Row) (tallies : Tallies) :
    Evolves expr (expr.evaluate params row tallies).expr
  | inLeft {left left' right : Expr} {kind : Connective} {leftChecked rightChecked : Bool}
    (evolves : Evolves left left') :
    Evolves (connective left right kind leftChecked rightChecked)
      (connective left' right kind leftChecked rightChecked)
  | inRight {left right right' : Expr} {kind : Connective} {leftChecked rightChecked : Bool}
    (evolves : Evolves right right') :
    Evolves (connective left right kind leftChecked rightChecked)
      (connective left right' kind leftChecked rightChecked)

/-- The expressions that compositions and evaluations lead to from expressions without marks. -/
inductive Reached : Expr → Prop where
  | fresh {expr : Expr} (unmarked : expr.Unmarked) : Reached expr
  | combine {left right : Expr} (kind : Connective) (left_reached : Reached left)
    (right_reached : Reached right) : Reached (combine kind left right)
  | evolves {expr expr' : Expr} (reached : Reached expr) (evolves : Evolves expr expr') :
    Reached expr'

theorem Evolves.copy_eq {expr expr' : Expr} (evolves : Evolves expr expr') :
    expr'.copy = expr.copy := by
  induction evolves with
  | whole expr params row tallies => exact copy_evaluate expr tallies
  | inLeft _ ih => rw [copy_connective, copy_connective, ih]
  | inRight _ ih => rw [copy_connective, copy_connective, ih]

theorem Evolves.sound {expr expr' : Expr} (evolves : Evolves expr expr') (sound : expr.Sound) :
    expr'.Sound := by
  induction evolves with
  | whole expr params row tallies => exact sound.evaluate tallies
  | inLeft evolves ih =>
    obtain ⟨left_sound, right_sound, left_justified, right_justified⟩ := sound
    have kept := declared_eq_of_copy_eq evolves.copy_eq
    exact ⟨ih left_sound, right_sound, fun marked => kept.trans (left_justified marked),
      right_justified⟩
  | inRight evolves ih =>
    obtain ⟨left_sound, right_sound, left_justified, right_justified⟩ := sound
    have kept := declared_eq_of_copy_eq evolves.copy_eq
    exact ⟨left_sound, ih right_sound, left_justified,
      fun marked => kept.trans (right_justified marked)⟩

/-- **Whatever was evaluated before**, only operands that declare a boolean are marked. -/
theorem Reached.sound {expr : Expr} (reached : Reached expr) : expr.Sound := by
  induction reached with
  | fresh unmarked => exact unmarked.sound
  | combine kind _ _ left_ih right_ih =>
    exact ⟨left_ih, right_ih, (fun marked => nomatch marked), (fun marked => nomatch marked)⟩
  | evolves _ evolves ih => exact evolves.sound ih

end RowLogic.Expr
