/-
**Where the fault of an evaluation arises.**

An evaluation comes to the operands of a connective, to the right one only behind a left one with a
truth value (`Involves`). Its fault arises at one of the expressions that it comes to: at a leaf
that fails, or at a connective that refuses an operand for its declared type or for its value
(`Complains`). Every connective on the way hands the fault on as it is, whatever marks there are
(`evaluate_error_iff`).
-/

import RowLogic.Proofs.Evaluation.LeafOrder

namespace RowLogic

/-! ### Operands that are refused -/

namespace Connective

/-- The faults for which a connective refuses an operand that has a known value. -/
inductive Refuses (kind : Connective) (side : Side) (checked : Bool) (operand : Evaluated) :
    Fault → Prop where
  /-- The operand is not known to declare a boolean, and it declares none. -/
  | undeclared {value : Value} (known : operand.outcome = .ok value) (defined : value ≠ .undefined)
    (unchecked : checked = false) (other : operand.expr.declared ≠ .boolean) :
    Refuses kind side checked operand (.operandNotBoolean side kind.name operand.expr.declared)
  /-- The value is no boolean, although one was declared. -/
  | mistyped {value : Value} (known : operand.outcome = .ok value) (defined : value ≠ .undefined)
    (declared : checked = true ∨ operand.expr.declared = .boolean)
    (other : value.dataType ≠ .boolean) :
    Refuses kind side checked operand (.operandValueNotBoolean side kind.name value.dataType)

variable {kind : Connective} {side : Side} {checked : Bool} {operand : Evaluated} {fault : Fault}

theorem Refuses.known (refused : kind.Refuses side checked operand fault) :
    ∃ value, operand.outcome = .ok value ∧ value ≠ .undefined := by
  cases refused with
  | undeclared known defined | mistyped known defined => exact ⟨_, known, defined⟩

theorem truthOf_eq_error_iff {value : Value} :
    kind.truthOf side value = .error fault ↔
      value.dataType ≠ .boolean ∧
        fault = .operandValueNotBoolean side kind.name value.dataType := by
  by_cases boolean : value.dataType = .boolean
  · cases value <;> cases boolean
    exact ⟨nofun, fun given => absurd rfl given.1⟩
  · rw [truthOf_of_ne boolean]
    refine ⟨fun same => ⟨boolean, (Except.error.inj same).symm⟩, fun given => ?_⟩
    rw [given.2]

/-- A known value is refused for the declared type, unless that was checked, and then for its
own. -/
theorem examine_known {value : Value} {expr : Expr} {tallies : Tallies}
    (defined : value ≠ .undefined) :
    (kind.examine side checked ⟨.ok value, expr, tallies⟩).truth =
      if checked = true ∨ expr.declared = .boolean then kind.truthOf side value
      else .error (.operandNotBoolean side kind.name expr.declared) := by
  have asked := expr.queryType_fst tallies
  unfold examine
  cases checked with
  | true => cases value <;> first | rfl | exact absurd rfl defined
  | false =>
    by_cases boolean : expr.declared = .boolean <;> cases value <;>
      first | exact absurd rfl defined | simp [asked, boolean]

/-- **A fault of an operand** is handed on, and every other one is for refusing the operand. -/
theorem examine_error_iff :
    (kind.examine side checked operand).truth = .error fault ↔
      operand.outcome = .error fault ∨ kind.Refuses side checked operand fault := by
  obtain ⟨outcome, expr, tallies⟩ := operand
  rcases outcome with fault' | value
  · constructor
    · intro same
      cases same
      exact Or.inl rfl
    · rintro (same | refused)
      · cases same
        rfl
      · obtain ⟨_, impossible, _⟩ := refused.known
        cases impossible
  by_cases defined : value = .undefined
  · subst defined
    constructor
    · exact nofun
    · rintro (impossible | refused)
      · cases impossible
      · obtain ⟨_, same, defined⟩ := refused.known
        cases same
        exact absurd rfl defined
  rw [examine_known defined]
  by_cases sure : checked = true ∨ expr.declared = .boolean
  · rw [if_pos sure, truthOf_eq_error_iff]
    constructor
    · rintro ⟨other, rfl⟩
      exact Or.inr (.mistyped rfl defined sure other)
    · rintro (impossible | refused)
      · cases impossible
      · cases refused with
        | undeclared known defined unchecked other =>
          exact absurd sure (not_or.mpr ⟨by simp [unchecked], other⟩)
        | mistyped known defined declared other =>
          cases known
          exact ⟨other, rfl⟩
  · rw [if_neg sure]
    obtain ⟨unchecked, other⟩ := not_or.mp sure
    constructor
    · intro same
      cases same
      exact Or.inr (.undeclared rfl defined (Bool.not_eq_true _ ▸ unchecked) other)
    · rintro (impossible | refused)
      · cases impossible
      · cases refused with
        | undeclared => rfl
        | mistyped known defined declared => exact absurd declared sure

theorem conclude_eq_error_iff {truth : Except Fault (Option Bool)} :
    conclude truth = .error fault ↔ truth = .error fault := by
  rcases truth with fault' | _ | known <;> simp [conclude]

theorem map_eq_error_iff {truth : Except Fault (Option Bool)} {change : Option Bool → Option Bool} :
    truth.map change = .error fault ↔ truth = .error fault := by
  cases truth <;> simp [Except.map]

end Connective

namespace Expr

variable {params : Params} {row : Row} {expr node left right : Expr} {kind : Connective}
  {leftChecked rightChecked : Bool} {tallies earlier : Tallies} {fault : Fault}

/-! ### The expressions that an evaluation comes to -/

/-- The evaluation of an expression, with some tallies, comes to an expression in it, with other
ones. -/
inductive Involves (params : Params) (row : Row) : Expr → Tallies → Expr → Tallies → Prop where
  | whole (expr : Expr) (tallies : Tallies) : Involves params row expr tallies expr tallies
  | inLeft {left right node : Expr} {kind : Connective} {leftChecked rightChecked : Bool}
    {tallies earlier : Tallies} (inside : Involves params row left tallies node earlier) :
    Involves params row (connective left right kind leftChecked rightChecked) tallies node earlier
  | inRight {left right node : Expr} {kind : Connective} {leftChecked rightChecked : Bool}
    {tallies earlier : Tallies} {judged : Examined} {known : Bool}
    (check : kind.examine .left leftChecked (left.evaluate params row tallies) = judged)
    (passes : judged.truth = .ok (some known))
    (inside : Involves params row right judged.tallies node earlier) :
    Involves params row (connective left right kind leftChecked rightChecked) tallies node earlier

/-- The connective, evaluated with some tallies, refuses one of its operands. -/
inductive Complains (params : Params) (row : Row) : Expr → Tallies → Fault → Prop where
  | ofLeft {left right : Expr} {kind : Connective} {leftChecked rightChecked : Bool}
    {tallies : Tallies} {fault : Fault}
    (refuses : kind.Refuses .left leftChecked (left.evaluate params row tallies) fault) :
    Complains params row (connective left right kind leftChecked rightChecked) tallies fault
  | ofRight {left right : Expr} {kind : Connective} {leftChecked rightChecked : Bool}
    {tallies : Tallies} {fault : Fault} {judged : Examined} {known : Bool}
    (check : kind.examine .left leftChecked (left.evaluate params row tallies) = judged)
    (passes : judged.truth = .ok (some known))
    (refuses :
      kind.Refuses .right rightChecked (right.evaluate params row judged.tallies) fault) :
    Complains params row (connective left right kind leftChecked rightChecked) tallies fault

/-! ### The faults of an evaluation -/

/-- **A connective fails** only if an operand that it comes to does, or for refusing one. -/
theorem connective_error_iff :
    ((connective left right kind leftChecked rightChecked).evaluate params row tallies).outcome =
        .error fault ↔
      (left.evaluate params row tallies).outcome = .error fault ∨
      (∃ judged known, kind.examine .left leftChecked (left.evaluate params row tallies) = judged ∧
        judged.truth = .ok (some known) ∧
        (right.evaluate params row judged.tallies).outcome = .error fault) ∨
      Complains params row (connective left right kind leftChecked rightChecked) tallies fault := by
  rcases truth_cases (kind.examine .left leftChecked (left.evaluate params row tallies)).truth with
    ⟨known, passes⟩ | stops
  · have passed : ¬(kind.examine .left leftChecked (left.evaluate params row tallies)).truth =
        .error fault := by
      rw [passes]
      exact nofun
    rw [Connective.examine_error_iff, not_or] at passed
    rw [evaluate_left_passes rfl rfl passes rfl rfl, Connective.conclude_eq_error_iff,
      Connective.map_eq_error_iff, Connective.examine_error_iff]
    constructor
    · rintro (failed | refuses)
      · exact Or.inr (Or.inl ⟨_, known, rfl, passes, failed⟩)
      · exact Or.inr (Or.inr (.ofRight rfl passes refuses))
    · rintro (failed | ⟨_, _, rfl, _, failed⟩ | complains)
      · exact absurd failed passed.1
      · exact Or.inl failed
      · cases complains with
        | ofLeft refuses => exact absurd refuses passed.2
        | ofRight check _ refuses => exact Or.inr (check ▸ refuses)
  · rw [evaluate_left_stops rfl rfl stops, Connective.conclude_eq_error_iff,
      Connective.examine_error_iff]
    constructor
    · rintro (failed | refuses)
      · exact Or.inl failed
      · exact Or.inr (Or.inr (.ofLeft refuses))
    · rintro (failed | ⟨_, known, rfl, passes, _⟩ | complains)
      · exact Or.inl failed
      · exact absurd passes (stops known)
      · cases complains with
        | ofLeft refuses => exact Or.inr refuses
        | ofRight check passes _ => exact absurd (check ▸ passes) (stops _)

/-- A fault of an expression that the evaluation comes to is the fault of the evaluation. -/
theorem Involves.error (involves : Involves params row expr tallies node earlier)
    (failed : (node.evaluate params row earlier).outcome = .error fault) :
    (expr.evaluate params row tallies).outcome = .error fault := by
  induction involves with
  | whole expr tallies => exact failed
  | inLeft _ ih => exact connective_error_iff.mpr (Or.inl (ih failed))
  | inRight check passes _ ih =>
    exact connective_error_iff.mpr (Or.inr (Or.inl ⟨_, _, check, passes, ih failed⟩))

theorem Complains.error (complains : Complains params row node earlier fault) :
    (node.evaluate params row earlier).outcome = .error fault := by
  cases complains with
  | ofLeft refuses => exact connective_error_iff.mpr (Or.inr (Or.inr (.ofLeft refuses)))
  | ofRight check passes refuses =>
    exact connective_error_iff.mpr (Or.inr (Or.inr (.ofRight check passes refuses)))

/-- **The fault of an evaluation** is that of a leaf that it comes to, or that of a connective that
refuses an operand; and all of these are faults of the evaluation. -/
theorem evaluate_error_iff :
    (expr.evaluate params row tallies).outcome = .error fault ↔
      (∃ leaf earlier, Involves params row expr tallies leaf earlier ∧ leaf.IsLeaf ∧
        (leaf.evaluate params row earlier).outcome = .error fault) ∨
      ∃ node earlier, Involves params row expr tallies node earlier ∧
        Complains params row node earlier fault := by
  constructor
  · intro failed
    induction expr generalizing tallies with
    | connective left right kind leftChecked rightChecked left_ih right_ih =>
      rcases connective_error_iff.mp failed with
        left_failed | ⟨judged, known, check, passes, right_failed⟩ | complains
      · rcases left_ih left_failed with
          ⟨leaf, earlier, inside, raised⟩ | ⟨node, earlier, inside, raised⟩
        · exact Or.inl ⟨leaf, earlier, .inLeft inside, raised⟩
        · exact Or.inr ⟨node, earlier, .inLeft inside, raised⟩
      · rcases right_ih right_failed with
          ⟨leaf, earlier, inside, raised⟩ | ⟨node, earlier, inside, raised⟩
        · exact Or.inl ⟨leaf, earlier, .inRight check passes inside, raised⟩
        · exact Or.inr ⟨node, earlier, .inRight check passes inside, raised⟩
      · exact Or.inr ⟨_, tallies, .whole _ _, complains⟩
    | _ => exact Or.inl ⟨_, tallies, .whole _ _, trivial, failed⟩
  · rintro (⟨leaf, earlier, involves, -, failed⟩ | ⟨node, earlier, involves, complains⟩)
    · exact involves.error failed
    · exact involves.error complains.error

end Expr

end RowLogic
