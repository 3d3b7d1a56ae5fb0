/-
**What the operands yield.**

`Expr.yields` lists what the operands come to in an evaluation, each time with the mark that the
operand carried before: that decides whether it is asked for its declared type, and which mark it
carries from then on.

* `operandAt?_evaluate`: in one evaluation an operand rests, or it yields once;
* `typeQueries_evaluate`: a probe is asked for its declared type where it is the operand that is
  asked, and nowhere else;
* `Accounted`: the account of the mark and the questions that is kept with every yield.
-/

import Mathlib.Algebra.GroupWithZero.Nat
import RowLogic.Proofs.Evaluation.Marks
import RowLogic.Proofs.Evaluation.Seats

namespace RowLogic

/-- What an operand came to when its connective evaluated it, and the mark that it carried. -/
structure Yield where
  checked : Bool
  outcome : Except Fault Value

namespace Yield

/-- It is a known value. -/
def known (yield : Yield) : Bool :=
  match yield.outcome with
  | .ok value => !value.isUndefined
  | .error _ => false

/-- The operand is asked for its declared type. -/
def asked (yield : Yield) : Bool :=
  !yield.checked && yield.known

/-- The mark of the operand from now on. -/
def mark (yield : Yield) (declared : DataType) : Bool :=
  yield.checked || yield.known && declared = .boolean

end Yield

/-! ### Logs -/

section Logs

variable {Key Inner : Type} [DecidableEq Key]

/-- What a log holds under a key, in the order in which it came. -/
def yieldsAt (key : Key) (log : List (Key × Yield)) : List Yield :=
  log.filterMap fun entry => if entry.1 = key then some entry.2 else none

/-- A log under other keys. -/
def rekey (change : Inner → Key) (log : List (Inner × Yield)) : List (Key × Yield) :=
  log.map (Prod.map change id)

variable {key : Key} {log log' : List (Key × Yield)} {change : Inner → Key}
  {inner : List (Inner × Yield)}

@[simp] theorem yieldsAt_append :
    yieldsAt key (log ++ log') = yieldsAt key log ++ yieldsAt key log' :=
  List.filterMap_append

theorem yieldsAt_eq_nil (absent : ∀ entry ∈ log, entry.1 ≠ key) : yieldsAt key log = [] :=
  List.filterMap_eq_nil_iff.mpr fun entry member => if_neg (absent entry member)

theorem yieldsAt_rekey [DecidableEq Inner] (injective : Function.Injective change)
    (key : Inner) : yieldsAt (change key) (rekey change inner) = yieldsAt key inner := by
  unfold yieldsAt rekey
  rw [List.filterMap_map]
  congr 1
  funext entry
  by_cases same : entry.1 = key
  · simp [same]
  · simp [same, injective.ne same]

theorem yieldsAt_rekey_eq_nil (absent : ∀ place, change place ≠ key) :
    yieldsAt key (rekey change inner) = [] := by
  apply yieldsAt_eq_nil
  intro entry member
  obtain ⟨entry', -, rfl⟩ := List.mem_map.mp member
  exact absent entry'.1

/-- Under keys that differ, a log holds together what it holds under any of them. -/
theorem sum_countP_yieldsAt {keys : List Key} (nodup : keys.Nodup) (counts : Yield → Bool)
    (log : List (Key × Yield)) :
    (keys.map fun key => (yieldsAt key log).countP counts).sum =
      log.countP fun entry => counts entry.2 && decide (entry.1 ∈ keys) := by
  induction keys with
  | nil => simp
  | cons key keys ih =>
    obtain ⟨absent, nodup'⟩ := List.nodup_cons.mp nodup
    let all := fun entry : Key × Yield => counts entry.2 && decide (entry.1 ∈ key :: keys)
    have first : (yieldsAt key log).countP counts = (log.filter (·.1 = key)).countP all := by
      rw [yieldsAt, List.countP_filterMap, List.countP_filter]
      refine List.countP_congr fun entry _ => ?_
      by_cases same : entry.1 = key <;> simp [all, same]
    have others : (log.countP fun entry => counts entry.2 && decide (entry.1 ∈ keys)) =
        (log.filter fun entry => !decide (entry.1 = key)).countP all := by
      rw [List.countP_filter]
      refine List.countP_congr fun entry _ => ?_
      by_cases same : entry.1 = key
      · simp [all, same, absent]
      · simp [all, same]
    rw [List.map_cons, List.sum_cons, ih nodup', first, others]
    exact (List.countP_eq_countP_filter_add log all (fun entry => entry.1 = key)).symm

end Logs

/-! ### The log of an evaluation -/

namespace Operand

variable (params : Params) (row : Row) (tallies : Tallies) (operand : Operand)

/-- What an operand comes to. -/
def yield : Yield :=
  ⟨operand.checked, (operand.expr.evaluate params row tallies).outcome⟩

/-- The operand after that. -/
def after : Operand :=
  ⟨(operand.expr.evaluate params row tallies).expr,
    (operand.yield params row tallies).mark operand.expr.declared⟩

/-- An operand rests, or it is evaluated once. -/
inductive Moves (operand : Operand) : List Yield → Operand → Prop where
  | rests : Moves operand [] operand
  | yields (params : Params) (row : Row) (tallies : Tallies) :
    Moves operand [operand.yield params row tallies] (operand.after params row tallies)

end Operand

/-- What comes on one side of a connective: what comes inside of the operand, and then the yield of
the operand itself. -/
def yieldsOn (side : Side) (inner : List (Seat × Yield)) (own : Yield) : List (Seat × Yield) :=
  rekey (Seat.under side) inner ++ [(⟨[], side⟩, own)]

namespace Expr

/-- What the operands of an expression come to in its evaluation. -/
def yields (params : Params) (row : Row) : Expr → Tallies → List (Seat × Yield)
  | connective left right kind leftChecked rightChecked, tallies =>
    let first := left.evaluate params row tallies
    let leftTruth := kind.examine .left leftChecked first
    let leftYields := yieldsOn .left (left.yields params row tallies) ⟨leftChecked, first.outcome⟩
    match leftTruth.truth with
    | .ok (some _) =>
      let second := right.evaluate params row leftTruth.tallies
      leftYields ++ yieldsOn .right (right.yields params row leftTruth.tallies)
        ⟨rightChecked, second.outcome⟩
    | _ => leftYields
  | _, _ => []

end Expr

section Evaluation

variable {params : Params} {row : Row} {tallies : Tallies} {left right expr : Expr}
  {kind : Connective} {leftChecked rightChecked checked : Bool} {side : Side} {seat : Seat}
  {operand : Operand} {name : String}

/-! ### What the check of an operand leaves -/

theorem Connective.examine_checked_eq {operand : Evaluated} :
    (kind.examine side checked operand).checked =
      (Yield.mk checked operand.outcome).mark operand.expr.declared := by
  obtain ⟨outcome, expr, tallies⟩ := operand
  have asked := expr.queryType_fst tallies
  unfold examine Yield.mark Yield.known
  rcases outcome with fault | value
  · simp
  cases checked with
  | true => cases value <;> rfl
  | false =>
    by_cases boolean : expr.declared = .boolean <;>
      cases value <;> simp [asked, boolean, Value.isUndefined]

/-- The check asks for the declared type, or it leaves the tallies as they are. -/
theorem Connective.examine_tallies {operand : Evaluated} :
    (kind.examine side checked operand).tallies =
      if (Yield.mk checked operand.outcome).asked then (operand.expr.queryType operand.tallies).2
      else operand.tallies := by
  obtain ⟨outcome, expr, tallies⟩ := operand
  unfold examine Yield.asked Yield.known
  rcases outcome with fault | value
  · simp
  cases checked with
  | true => cases value <;> rfl
  | false =>
    by_cases boolean : (expr.queryType tallies).1 = .boolean <;>
      cases value <;> simp [boolean, Value.isUndefined]

/-- A judged operand, with the mark that it has from now on. -/
theorem Operand.after_eq (params : Params) (row : Row) (tallies : Tallies) (operand : Operand)
    (kind : Connective) (side : Side) :
    operand.after params row tallies = ⟨(operand.expr.evaluate params row tallies).expr,
      (kind.examine side operand.checked
        (operand.expr.evaluate params row tallies)).checked⟩ := by
  rw [Connective.examine_checked_eq, Expr.declared_evaluate]
  rfl

/-! ### One evaluation -/

namespace Expr

theorem yields_left_stops (stops : ∀ known, (kind.examine .left leftChecked
    (left.evaluate params row tallies)).truth ≠ .ok (some known)) :
    (connective left right kind leftChecked rightChecked).yields params row tallies =
      yieldsOn .left (left.yields params row tallies)
        (Operand.yield params row tallies ⟨left, leftChecked⟩) := by
  rw [yields]
  dsimp only
  rcases truth : (kind.examine .left leftChecked (left.evaluate params row tallies)).truth with
    fault | _ | known
  · rfl
  · rfl
  · exact absurd truth (stops known)

theorem yields_left_passes {known : Bool} {judged : Examined}
    (check : kind.examine .left leftChecked (left.evaluate params row tallies) = judged)
    (passes : judged.truth = .ok (some known)) :
    (connective left right kind leftChecked rightChecked).yields params row tallies =
      yieldsOn .left (left.yields params row tallies)
        (Operand.yield params row tallies ⟨left, leftChecked⟩) ++
      yieldsOn .right (right.yields params row judged.tallies)
        (Operand.yield params row judged.tallies ⟨right, rightChecked⟩) := by
  subst check
  rw [yields]
  dsimp only
  rw [passes]
  rfl

theorem yieldsAt_here (inner : List (Seat × Yield)) (own : Yield) :
    yieldsAt ⟨[], side⟩ (yieldsOn side inner own) = [own] := by
  have outside : yieldsAt ⟨[], side⟩ (rekey (Seat.under side) inner) = [] :=
    yieldsAt_rekey_eq_nil fun seat same => nomatch same
  rw [yieldsOn, yieldsAt_append, outside]
  simp [yieldsAt]

theorem yieldsAt_under (seat : Seat) (side : Side) (inner : List (Seat × Yield)) (own : Yield) :
    yieldsAt (seat.under side) (yieldsOn side inner own) = yieldsAt seat inner := by
  have elsewhere : yieldsAt (seat.under side) [((⟨[], side⟩ : Seat), own)] = [] :=
    List.filterMap_cons_none (if_neg fun same => nomatch same)
  rw [yieldsOn, yieldsAt_append, yieldsAt_rekey (Seat.under_injective side), elsewhere,
    List.append_nil]

theorem yieldsAt_other (inner : List (Seat × Yield)) (own : Yield) (other : seat.half ≠ side) :
    yieldsAt seat (yieldsOn side inner own) = [] := by
  apply yieldsAt_eq_nil
  intro entry member
  rcases List.mem_append.mp member with inside | last
  · obtain ⟨entry', -, rfl⟩ := List.mem_map.mp inside
    rintro rfl
    exact other rfl
  · rw [List.mem_singleton.mp last]
    rintro rfl
    exact other rfl

/-- **One side of a connective** in an evaluation: the operand rests and nothing comes there, or it
is evaluated once and what comes there is what comes of that. -/
theorem evaluate_side (params : Params) (row : Row) (left right : Expr) (kind : Connective)
    (leftChecked rightChecked : Bool) (tallies : Tallies) (side : Side) :
    let tree := connective left right kind leftChecked rightChecked
    let done := tree.evaluate params row tallies
    ∃ operand, tree.operand? side = some operand ∧
      ((done.expr.operand? side = some operand ∧
          ∀ seat : Seat, seat.half = side →
            yieldsAt seat (tree.yields params row tallies) = []) ∨
        ∃ before, done.expr.operand? side = some (operand.after params row before) ∧
          ∀ seat : Seat, seat.half = side →
            yieldsAt seat (tree.yields params row tallies) =
              yieldsAt seat (yieldsOn side (operand.expr.yields params row before)
                (operand.yield params row before))) := by
  intro tree done
  let judged := kind.examine .left leftChecked (left.evaluate params row tallies)
  have left_after := Operand.after_eq params row tallies ⟨left, leftChecked⟩ kind .left
  rcases truth_cases judged.truth with ⟨known, passes⟩ | stops
  · have run : done = _ := evaluate_left_passes rfl rfl passes rfl rfl
    have log : tree.yields params row tallies = _ := yields_left_passes rfl passes
    rw [run, log]
    cases side with
    | left =>
      refine ⟨⟨left, leftChecked⟩, rfl, Or.inr ⟨tallies, congrArg some left_after.symm, ?_⟩⟩
      intro seat here
      have other : seat.half ≠ .right := by rw [here]; decide
      rw [yieldsAt_append, yieldsAt_other _ _ other, List.append_nil]
    | right =>
      have right_after :=
        Operand.after_eq params row judged.tallies ⟨right, rightChecked⟩ kind .right
      refine ⟨⟨right, rightChecked⟩, rfl,
        Or.inr ⟨judged.tallies, congrArg some right_after.symm, ?_⟩⟩
      intro seat here
      have other : seat.half ≠ .left := by rw [here]; decide
      rw [yieldsAt_append, yieldsAt_other _ _ other, List.nil_append]
  · have run : done = _ := evaluate_left_stops rfl rfl stops
    have log : tree.yields params row tallies = _ := yields_left_stops stops
    rw [run, log]
    cases side with
    | left =>
      exact ⟨⟨left, leftChecked⟩, rfl,
        Or.inr ⟨tallies, congrArg some left_after.symm, fun seat here => rfl⟩⟩
    | right =>
      refine ⟨⟨right, rightChecked⟩, rfl, Or.inl ⟨rfl, fun seat here => ?_⟩⟩
      have other : seat.half ≠ .left := by rw [here]; decide
      exact yieldsAt_other _ _ other

/-- **In one evaluation** an operand rests, or it yields once. -/
theorem operandAt?_evaluate (held : expr.operandAt? seat = some operand) (params : Params)
    (row : Row) (tallies : Tallies) :
    ∃ operand', (expr.evaluate params row tallies).expr.operandAt? seat = some operand' ∧
      operand.Moves (yieldsAt seat (expr.yields params row tallies)) operand' := by
  obtain ⟨path, place⟩ := seat
  induction expr generalizing path tallies with
  | connective left right kind leftChecked rightChecked left_ih right_ih =>
    cases path with
    | nil =>
      obtain ⟨operand', found, moves⟩ :=
        evaluate_side params row left right kind leftChecked rightChecked tallies place
      obtain rfl : operand' = operand := Option.some.inj (found.symm.trans held)
      rcases moves with ⟨same, nothing⟩ | ⟨before, moved, log⟩
      · rw [nothing _ rfl]
        exact ⟨operand', same, .rests⟩
      · rw [log _ rfl, yieldsAt_here]
        exact ⟨_, moved, .yields params row before⟩
    | cons turn path =>
      obtain ⟨child, found, moves⟩ :=
        evaluate_side params row left right kind leftChecked rightChecked tallies turn
      have child_ih : ∀ before, ∃ operand',
          (child.expr.evaluate params row before).expr.operandAt? ⟨path, place⟩ = some operand' ∧
          operand.Moves
            (yieldsAt ⟨path, place⟩ (child.expr.yields params row before)) operand' := by
        intro before
        cases turn <;> cases found
        · exact left_ih before path held
        · exact right_ih before path held
      have below : child.expr.operandAt? ⟨path, place⟩ = some operand :=
        (operandAt?_under_of_held found).symm.trans held
      rcases moves with ⟨same, nothing⟩ | ⟨before, moved, log⟩
      · rw [nothing _ rfl]
        exact ⟨operand, (operandAt?_under_of_held same).trans below, .rests⟩
      · obtain ⟨operand', found', moves'⟩ := child_ih before
        have come := (log ⟨turn :: path, place⟩ rfl).trans (yieldsAt_under ⟨path, place⟩ turn _ _)
        rw [come]
        exact ⟨operand', (operandAt?_under_of_held moved).trans found', moves'⟩
  | _ =>
    cases path with
    | nil => cases held
    | cons turn path => cases turn <;> cases held

/-- Nothing is in a seat after an evaluation that was not there before it. -/
theorem operandAt?_of_evaluate {operand' : Operand}
    (held : (expr.evaluate params row tallies).expr.operandAt? seat = some operand') :
    ∃ operand, expr.operandAt? seat = some operand ∧
      operand.Moves (yieldsAt seat (expr.yields params row tallies)) operand' := by
  have taken : (expr.operandAt? seat).isSome := by
    rw [← isSome_operandAt?_of_copy_eq (copy_evaluate expr tallies) seat, held]
    rfl
  obtain ⟨operand, before⟩ := Option.isSome_iff_exists.mp taken
  obtain ⟨after, found, moves⟩ := operandAt?_evaluate before params row tallies
  obtain rfl : after = operand' := Option.some.inj (found.symm.trans held)
  exact ⟨operand, before, moves⟩

end Expr

/-- What moves an operand changes nothing of it but marks, and takes no mark away. -/
theorem Operand.Moves.keeps {come : List Yield} {operand' : Operand}
    (moves : operand.Moves come operand') : operand'.expr.copy = operand.expr.copy ∧
      (operand.checked = true → operand'.checked = true) := by
  cases moves with
  | rests => exact ⟨rfl, id⟩
  | yields params row tallies =>
    refine ⟨Expr.copy_evaluate operand.expr tallies, fun marked => ?_⟩
    show (operand.checked || _) = true
    rw [marked, Bool.true_or]

/-! ### The questions to a probe -/

namespace Expr

theorem typeQueries_queryType (expr : Expr) (tallies : Tallies) (name : String) :
    ((expr.queryType tallies).2.get name).typeQueries =
      (tallies.get name).typeQueries + if expr.isProbe name then 1 else 0 := by
  cases expr with
  | probe leaf =>
    rw [queryType, Tallies.typeQueries_countTypeQuery]
    simp only [isProbe, decide_eq_true_eq]
  | _ => rfl

/-- In this yield a probe is asked for its declared type. -/
def asksProbe (name : String) (expr : Expr) (entry : Seat × Yield) : Bool :=
  entry.2.asked && expr.seatsProbe name entry.1

/-- **One side of a connective**: the questions inside of the operand, and the one that the operand
itself is asked. -/
theorem typeQueries_side {tree : Expr} (kind : Connective)
    (held : tree.operand? side = some operand)
    (inside : ((operand.expr.evaluate params row tallies).tallies.get name).typeQueries =
      (tallies.get name).typeQueries +
        (operand.expr.yields params row tallies).countP (operand.expr.asksProbe name)) :
    ((kind.examine side operand.checked
        (operand.expr.evaluate params row tallies)).tallies.get name).typeQueries =
      (tallies.get name).typeQueries +
        (yieldsOn side (operand.expr.yields params row tallies)
          (operand.yield params row tallies)).countP (tree.asksProbe name) := by
  have below : ∀ entry : Seat × Yield, tree.asksProbe name (Prod.map (Seat.under side) id entry) =
      operand.expr.asksProbe name entry := by
    intro entry
    unfold asksProbe seatsProbe
    rw [← operandAt?_under_of_held held]
    rfl
  have here : tree.asksProbe name (⟨[], side⟩, operand.yield params row tallies) =
      ((operand.yield params row tallies).asked && operand.expr.isProbe name) := by
    have found : tree.operandAt? ⟨[], side⟩ = some operand := held
    unfold asksProbe seatsProbe
    rw [found]
    rfl
  have probe_same : (operand.expr.evaluate params row tallies).expr.isProbe name =
      operand.expr.isProbe name := by
    rw [← isProbe_copy, copy_evaluate, isProbe_copy]
  have asked : (⟨operand.checked, (operand.expr.evaluate params row tallies).outcome⟩ :
      Yield).asked = (operand.yield params row tallies).asked := rfl
  have inner : (rekey (Seat.under side) (operand.expr.yields params row tallies)).countP
      (tree.asksProbe name) =
        (operand.expr.yields params row tallies).countP (operand.expr.asksProbe name) := by
    rw [rekey, List.countP_map]
    exact List.countP_congr fun entry _ => by rw [Function.comp, below entry]
  rw [yieldsOn, List.countP_append, inner, ← Nat.add_assoc, ← inside, List.countP_singleton, here,
    Connective.examine_tallies, asked]
  cases (operand.yield params row tallies).asked with
  | false => rfl
  | true => rw [if_pos rfl, typeQueries_queryType, probe_same, Bool.true_and]

/-- **An evaluation asks a probe** for its declared type where the probe is the operand that is
asked, and nowhere else. -/
theorem typeQueries_evaluate (expr : Expr) (tallies : Tallies) (name : String) :
    ((expr.evaluate params row tallies).tallies.get name).typeQueries =
      (tallies.get name).typeQueries +
        (expr.yields params row tallies).countP (expr.asksProbe name) := by
  induction expr generalizing tallies with
  | connective left right kind leftChecked rightChecked left_ih right_ih =>
    let tree := connective left right kind leftChecked rightChecked
    have left_held : tree.operand? .left = some ⟨left, leftChecked⟩ := rfl
    have right_held : tree.operand? .right = some ⟨right, rightChecked⟩ := rfl
    let judged := kind.examine .left leftChecked (left.evaluate params row tallies)
    have left_asked : (judged.tallies.get name).typeQueries = _ :=
      typeQueries_side kind left_held (left_ih tallies)
    rcases truth_cases judged.truth with ⟨known, passes⟩ | stops
    · have right_asked := typeQueries_side kind right_held (right_ih judged.tallies)
      rw [evaluate_left_passes rfl rfl passes rfl rfl, yields_left_passes rfl passes,
        List.countP_append, ← Nat.add_assoc, ← left_asked]
      exact right_asked
    · rw [evaluate_left_stops rfl rfl stops, yields_left_stops stops]
      exact left_asked
  | probe leaf => exact tallies.typeQueries_countEvaluation leaf.name name
  | _ => rfl

end Expr

/-! ### The account of an operand -/

/-- The mark of an operand and the questions that it was asked, in terms of all that it yielded: it
is marked once it declares a boolean and yielded a known value; an operand that declares a boolean
was asked once if it is marked, and never else; any other one was asked whenever it yielded a known
value. -/
structure Operand.Accounted (operand : Operand) (yields : List Yield) : Prop where
  checked_iff : operand.checked = true ↔
    operand.expr.declared = .boolean ∧ ∃ yield ∈ yields, yield.known = true
  asked_boolean : operand.expr.declared = .boolean →
    yields.countP Yield.asked = if operand.checked then 1 else 0
  asked_other : operand.expr.declared ≠ .boolean →
    yields.countP Yield.asked = yields.countP Yield.known

namespace Operand.Accounted

variable {operand' : Operand} {yields come : List Yield}

theorem of_unmarked (unmarked : operand.checked = false) : operand.Accounted [] := by
  refine ⟨?_, fun _ => ?_, fun _ => rfl⟩
  · rw [unmarked]
    simp
  · rw [unmarked]
    rfl

/-- **The account is kept** with each yield. -/
theorem snoc (accounted : operand.Accounted yields) (params : Params) (row : Row)
    (tallies : Tallies) : (operand.after params row tallies).Accounted
      (yields ++ [operand.yield params row tallies]) := by
  have declared : (operand.after params row tallies).expr.declared = operand.expr.declared :=
    Expr.declared_evaluate operand.expr tallies
  let own := operand.yield params row tallies
  have asked : own.asked = (!operand.checked && own.known) := rfl
  have marked : (operand.after params row tallies).checked =
      (operand.checked || own.known && decide (operand.expr.declared = .boolean)) := rfl
  refine ⟨?_, fun boolean => ?_, fun other => ?_⟩
  · have some_known : (∃ yield ∈ yields ++ [own], yield.known = true) ↔
        (∃ yield ∈ yields, yield.known = true) ∨ own.known = true := by
      simp only [List.mem_append, List.mem_singleton, or_and_right, exists_or, exists_eq_left]
    rw [declared, marked, some_known, Bool.or_eq_true, Bool.and_eq_true, decide_eq_true_eq,
      accounted.checked_iff, and_or_left, and_comm (a := own.known = true)]
  · rw [declared] at boolean
    have before := accounted.asked_boolean boolean
    rw [List.countP_append, before, List.countP_singleton, marked, asked]
    cases operand.checked <;> simp [boolean]
  · rw [declared] at other
    have unmarked : operand.checked = false := by
      cases checked : operand.checked with
      | false => rfl
      | true => exact absurd (accounted.checked_iff.mp checked).1 other
    rw [List.countP_append, List.countP_append, accounted.asked_other other,
      List.countP_singleton, List.countP_singleton, asked, unmarked]
    rfl

theorem moves (accounted : operand.Accounted yields)
    (moves : operand.Moves come operand') : operand'.Accounted (yields ++ come) := by
  cases moves with
  | rests =>
    rw [List.append_nil]
    exact accounted
  | yields params row tallies => exact accounted.snoc params row tallies

end Operand.Accounted

end Evaluation

end RowLogic
