/-
**The questions of a session.**

Each instance asks an operand for its declared type until it is marked, whatever becomes of the
evaluation and whatever the other instances do. `Session.yields` is the log of a run: what the
operands came to, under the slot of the instance and the seat of the operand.

* `Moves`: all that an action can do to the instances (`perform?_moves`);
* `Accounts.runs`: in a run of any length, each operand of each instance is accounted for by what is
  logged in its own place;
* `Runs.typeQueries`: the tally of a probe grows by the questions that are logged where it sits;
* `run_asks_once`: all of it for runs that begin without marks.
-/

import RowLogic.Proofs.Evaluation.Yields
import RowLogic.Proofs.Session.Partition

namespace RowLogic

/-- A seat of the instance in a slot. -/
structure Place where
  slot : Nat
  seat : Seat
deriving DecidableEq

theorem Place.mk_injective (slot : Nat) : Function.Injective (Place.mk slot) := by
  intro seat seat' same
  exact (Place.mk.inj same).2

namespace Session

/-! ### Places -/

/-- The operand in a place. -/
def operandAt? (session : Session) (place : Place) : Option Operand :=
  (session.get? place.slot).bind (Expr.operandAt? place.seat)

/-- The probe of this name is the operand in a place. -/
def seatsProbe (name : String) (session : Session) (place : Place) : Bool :=
  (session.get? place.slot).any (Expr.seatsProbe name place.seat)

/-- The places of the operands. -/
def places (session : Session) : List Place :=
  (List.range session.slots.length).flatMap fun slot =>
    ((session.get? slot).elim [] Expr.seats).map (Place.mk slot)

/-- The places of a probe. -/
def probePlaces (name : String) (session : Session) : List Place :=
  session.places.filter (session.seatsProbe name)

variable {session next last : Session} {action : Action} {actions : List Action} {answer : Answer}
  {answers : List Answer} {expr : Expr} {place : Place} {operand operand' : Operand}
  {log come : List (Place × Yield)} {name : String}

theorem seatsProbe_iff : session.seatsProbe name place = true ↔
    ∃ operand, session.operandAt? place = some operand ∧ operand.expr.isProbe name = true := by
  unfold seatsProbe operandAt?
  cases session.get? place.slot with
  | none => simp
  | some expr =>
    show (expr.operandAt? place.seat).any _ = true ↔ ∃ operand, expr.operandAt? place.seat = _ ∧ _
    cases expr.operandAt? place.seat <;> simp

theorem mem_places : place ∈ session.places ↔ (session.operandAt? place).isSome := by
  obtain ⟨slot, seat⟩ := place
  unfold places operandAt?
  rw [List.mem_flatMap]
  constructor
  · rintro ⟨slot', -, member⟩
    obtain ⟨seat', listed, same⟩ := List.mem_map.mp member
    obtain ⟨rfl, rfl⟩ := Place.mk.inj same
    cases found : session.get? slot' with
    | none =>
      rw [found] at listed
      cases listed
    | some expr =>
      rw [found] at listed
      exact Expr.mem_seats.mp listed
  · intro held
    obtain ⟨operand, same⟩ := Option.isSome_iff_exists.mp held
    obtain ⟨expr, found, inside⟩ := Option.bind_eq_some_iff.mp same
    have listed : seat ∈ expr.seats := Expr.mem_seats.mpr (by rw [inside]; rfl)
    refine ⟨slot, List.mem_range.mpr (List.getElem?_eq_some_iff.mp found).1, ?_⟩
    rw [found]
    exact List.mem_map.mpr ⟨seat, listed, rfl⟩

theorem nodup_places (session : Session) : session.places.Nodup := by
  refine List.nodup_flatMap.mpr ⟨fun slot _ => ?_, ?_⟩
  · refine List.Nodup.map (Place.mk_injective slot) ?_
    cases session.get? slot with
    | none => exact List.nodup_nil
    | some expr => exact expr.nodup_seats
  · refine (List.nodup_range (n := session.slots.length)).imp ?_
    intro slot slot' different place in_first in_second
    obtain ⟨_, -, rfl⟩ := List.mem_map.mp in_first
    obtain ⟨_, -, same⟩ := List.mem_map.mp in_second
    exact different (Place.mk.inj same).1.symm

theorem mem_probePlaces : place ∈ session.probePlaces name ↔
    ∃ operand, session.operandAt? place = some operand ∧ operand.expr.isProbe name = true := by
  rw [probePlaces, List.mem_filter, mem_places, seatsProbe_iff]
  constructor
  · exact fun both => both.2
  · rintro ⟨operand, held, same⟩
    exact ⟨by rw [held]; rfl, operand, held, same⟩

theorem nodup_probePlaces (session : Session) (name : String) :
    (session.probePlaces name).Nodup :=
  (nodup_places session).filter _

/-! ### One action -/

/-- What the operands come to in an action. -/
def yieldsOf (session : Session) (action : Action) : List (Place × Yield) :=
  match action.request with
  | .evaluate params row =>
    (session.get? action.slot).elim [] fun expr =>
      rekey (Place.mk action.slot) (expr.yields params row session.tallies)
  | _ => []

/-- An action evaluates the instance in its slot, or it changes nothing but that there may be one
more instance, which has no marks. -/
inductive Moves (session : Session) : List (Place × Yield) → Session → Prop where
  | evaluates {slot : Nat} {expr : Expr} (found : session.get? slot = some expr) (params : Params)
    (row : Row) :
    Moves session (rekey (Place.mk slot) (expr.yields params row session.tallies))
      ⟨session.slots.set slot (expr.evaluate params row session.tallies).expr,
        (expr.evaluate params row session.tallies).tallies⟩
  | stays : Moves session [] session
  | adds {expr : Expr} (unmarked : expr.Unmarked) : Moves session [] (session.add expr)

theorem recode_moves (expr : Expr) (limits : DecodeLimits) :
    session.Moves [] (session.recode expr limits).2 := by
  unfold recode
  cases encoded : expr.encode with
  | error fault => exact .stays
  | ok bytes =>
    have reread : (Except.ok bytes : Except Fault (List UInt8)).bind
        (fun bytes => session.decode bytes limits) =
          (Expr.decode bytes limits).map session.add := rfl
    rw [reread]
    cases decoded : Expr.decode bytes limits with
    | error fault => exact .stays
    | ok made =>
      obtain ⟨_, ⟨-, unmarked, -⟩, -, -⟩ := Expr.decode_ok_iff.mp decoded
      exact .adds unmarked

/-- **What an action does** to the instances. -/
theorem perform?_moves (step : session.perform? action = some (answer, next)) :
    session.Moves (session.yieldsOf action) next := by
  obtain ⟨slot, request⟩ := action
  have possible : (session.perform? ⟨slot, request⟩).isSome := by rw [step]; rfl
  have found : session.get? slot = some _ :=
    List.getElem?_eq_getElem (perform?_isSome_iff.mp possible)
  unfold perform? at step
  unfold yieldsOf
  cases request <;> dsimp only at step ⊢
  case evaluate params row =>
    obtain ⟨done, evaluated, same⟩ := Option.map_eq_some_iff.mp step
    unfold evaluate? at evaluated
    rw [found] at evaluated ⊢
    obtain rfl := Option.some.inj evaluated
    obtain ⟨-, rfl⟩ := Prod.mk.inj same
    exact .evaluates found params row
  case copy =>
    obtain ⟨after, copied, same⟩ := Option.map_eq_some_iff.mp step
    unfold copy? at copied
    rw [found] at copied
    obtain rfl := Option.some.inj copied
    obtain ⟨-, rfl⟩ := Prod.mk.inj same
    exact .adds (Expr.unmarked_copy _)
  case encode =>
    rw [found] at step
    obtain ⟨-, rfl⟩ := Prod.mk.inj (Option.some.inj step)
    exact .stays
  case recode limits =>
    rw [found] at step
    obtain ⟨-, rfl⟩ := Prod.mk.inj (Option.some.inj step)
    exact recode_moves _ limits

/-- An instance is evaluated by an action, or nothing comes of it there. -/
theorem Moves.get? (moves : session.Moves come next) {slot : Nat}
    (found : session.get? slot = some expr) :
    (next.get? slot = some expr ∧ ∀ seat, yieldsAt ⟨slot, seat⟩ come = []) ∨
      ∃ params row tallies, next.get? slot = some (expr.evaluate params row tallies).expr ∧
        ∀ seat, yieldsAt ⟨slot, seat⟩ come = yieldsAt seat (expr.yields params row tallies) := by
  have taken := (List.getElem?_eq_some_iff.mp found).1
  cases moves with
  | @evaluates slot' expr' found' params row =>
    by_cases same : slot' = slot
    · subst same
      obtain rfl : expr' = expr := Option.some.inj (found'.symm.trans found)
      exact Or.inr ⟨params, row, session.tallies, List.getElem?_set_self taken, fun seat =>
        yieldsAt_rekey (Place.mk_injective slot') seat⟩
    · refine Or.inl ⟨(List.getElem?_set_ne same).trans found, fun seat => ?_⟩
      exact yieldsAt_rekey_eq_nil fun seat' place_same => same (Place.mk.inj place_same).1
  | stays => exact Or.inl ⟨found, fun seat => rfl⟩
  | adds unmarked => exact Or.inl ⟨(List.getElem?_append_left taken).trans found, fun seat => rfl⟩

/-- An instance that was not there before has no marks. -/
theorem Moves.unmarked (moves : session.Moves come next) {slot : Nat}
    (free : session.get? slot = none) (found : next.get? slot = some expr) :
    expr.Unmarked ∧ come = [] := by
  have beyond := List.getElem?_eq_none_iff.mp free
  have taken := (List.getElem?_eq_some_iff.mp found).1
  cases moves with
  | evaluates found' params row =>
    dsimp only at taken
    rw [List.length_set] at taken
    exact absurd taken (by omega)
  | stays => exact absurd taken (by omega)
  | @adds made unmarked =>
    have here : ((session.slots ++ [made])[slot]?) = some expr := found
    rw [List.getElem?_append_right beyond] at here
    obtain rfl := List.mem_singleton.mp (List.mem_of_getElem? here)
    exact ⟨unmarked, rfl⟩

/-- What comes, comes from instances that are there. -/
theorem Moves.slots (moves : session.Moves come next) :
    session.slots.length ≤ next.slots.length ∧
      ∀ entry ∈ come, entry.1.slot < session.slots.length := by
  cases moves with
  | evaluates found params row =>
    refine ⟨Nat.le_of_eq List.length_set.symm, fun entry member => ?_⟩
    obtain ⟨entry', -, rfl⟩ := List.mem_map.mp member
    exact (List.getElem?_eq_some_iff.mp found).1
  | stays => exact ⟨Nat.le_refl _, fun entry member => nomatch member⟩
  | @adds made unmarked =>
    have grown : (session.slots ++ [made]).length = session.slots.length + 1 :=
      List.length_append
    exact ⟨by show _ ≤ (session.slots ++ [made]).length; omega, fun entry member => nomatch member⟩

/-- In this entry of a log a probe is asked for its declared type. -/
def asksProbe (name : String) (session : Session) (entry : Place × Yield) : Bool :=
  entry.2.asked && session.seatsProbe name entry.1

theorem Moves.typeQueries (moves : session.Moves come next) (name : String) :
    (next.tallies.get name).typeQueries =
      (session.tallies.get name).typeQueries + come.countP (session.asksProbe name) := by
  cases moves with
  | @evaluates slot expr found params row =>
    show ((expr.evaluate params row session.tallies).tallies.get name).typeQueries = _
    rw [Expr.typeQueries_evaluate, rekey, List.countP_map]
    congr 1
    refine List.countP_congr fun entry _ => ?_
    have same : session.seatsProbe name ⟨slot, entry.1⟩ = expr.seatsProbe name entry.1 := by
      unfold seatsProbe
      rw [found]
      rfl
    show _ ↔ (entry.2.asked && session.seatsProbe name ⟨slot, entry.1⟩) = true
    rw [same]
    rfl
  | stays => rfl
  | adds unmarked => rfl

/-! ### Runs of any length -/

/-- What the operands come to in some actions in turn. -/
def yields (session : Session) : List Action → List (Place × Yield)
  | [] => []
  | action :: actions =>
    session.yieldsOf action ++ (session.perform? action).elim [] fun done => done.2.yields actions

/-- What some actions in turn do to the instances. -/
inductive Runs : Session → List (Place × Yield) → Session → Prop where
  | ends (session : Session) : Runs session [] session
  | moves {session next last : Session} {come log : List (Place × Yield)}
    (first : session.Moves come next) (others : Runs next log last) :
    Runs session (come ++ log) last

theorem run?_runs (run : session.run? actions = some (answers, last)) :
    session.Runs (session.yields actions) last := by
  induction actions generalizing session answers with
  | nil =>
    obtain ⟨-, rfl⟩ := Prod.mk.inj (Option.some.inj run)
    exact .ends session
  | cons action actions ih =>
    obtain ⟨⟨answer, next⟩, step, rest⟩ := Option.bind_eq_some_iff.mp run
    obtain ⟨⟨answers', last'⟩, run', same⟩ := Option.map_eq_some_iff.mp rest
    obtain ⟨-, rfl⟩ := Prod.mk.inj same
    rw [yields, step]
    exact .moves (perform?_moves step) (ih run')

/-- Instances stay, and change nothing but marks. -/
theorem Runs.get? (runs : session.Runs log last) {slot : Nat}
    (found : session.get? slot = some expr) :
    ∃ expr', last.get? slot = some expr' ∧ expr'.copy = expr.copy := by
  induction runs generalizing expr with
  | ends session => exact ⟨expr, found, rfl⟩
  | moves first others ih =>
    rcases first.get? found with ⟨found', -⟩ | ⟨params, row, tallies, found', -⟩
    · exact ih found'
    · obtain ⟨expr', found'', same⟩ := ih found'
      exact ⟨expr', found'', same.trans (Expr.copy_evaluate expr tallies)⟩

/-- **A mark is never taken away.** -/
theorem Runs.operandAt? (runs : session.Runs log last)
    (held : session.operandAt? place = some operand) :
    ∃ operand', last.operandAt? place = some operand' ∧
      operand'.expr.copy = operand.expr.copy ∧
      (operand.checked = true → operand'.checked = true) := by
  induction runs generalizing operand with
  | ends session => exact ⟨operand, held, rfl, id⟩
  | @moves session next last come log first others ih =>
    obtain ⟨expr, found, inside⟩ := Option.bind_eq_some_iff.mp held
    rcases first.get? found with ⟨found', -⟩ | ⟨params, row, tallies, found', -⟩
    · exact ih (Option.bind_eq_some_iff.mpr ⟨expr, found', inside⟩)
    · obtain ⟨operand', held', moved⟩ := Expr.operandAt?_evaluate inside params row tallies
      obtain ⟨same, marked⟩ := moved.keeps
      obtain ⟨last_operand, last_held, same', marked'⟩ :=
        ih (Option.bind_eq_some_iff.mpr ⟨_, found', held'⟩)
      exact ⟨last_operand, last_held, same'.trans same, fun before => marked' (marked before)⟩

/-- Each operand is accounted for by what a log holds in its place, and the log has no other
instances. -/
structure Accounts (session : Session) (log : List (Place × Yield)) : Prop where
  slots : ∀ entry ∈ log, entry.1.slot < session.slots.length
  accounted : ∀ place operand, session.operandAt? place = some operand →
    operand.Accounted (yieldsAt place log)

theorem Accounts.of_unmarked (fresh : ∀ expr ∈ session.slots, expr.Unmarked) :
    session.Accounts [] := by
  refine ⟨(fun entry member => nomatch member), fun place operand held => ?_⟩
  obtain ⟨expr, found, inside⟩ := Option.bind_eq_some_iff.mp held
  exact .of_unmarked ((fresh expr (List.mem_of_getElem? found)).checked_eq_false inside)

/-- **An action keeps the accounts.** -/
theorem Accounts.moves (accounts : session.Accounts log) (moves : session.Moves come next) :
    next.Accounts (log ++ come) := by
  obtain ⟨longer, within⟩ := moves.slots
  refine ⟨fun entry member => ?_, fun place operand' held => ?_⟩
  · rcases List.mem_append.mp member with before | new
    · exact Nat.lt_of_lt_of_le (accounts.slots entry before) longer
    · exact Nat.lt_of_lt_of_le (within entry new) longer
  obtain ⟨expr', found', inside'⟩ := Option.bind_eq_some_iff.mp held
  rw [yieldsAt_append]
  cases found : session.get? place.slot with
  | some expr =>
    rcases moves.get? found with ⟨stays, nothing⟩ | ⟨params, row, tallies, evaluated, log_eq⟩
    · obtain rfl : expr = expr' := Option.some.inj (stays.symm.trans found')
      rw [nothing, List.append_nil]
      exact accounts.accounted place operand' (Option.bind_eq_some_iff.mpr ⟨expr, found, inside'⟩)
    · obtain rfl := Option.some.inj (evaluated.symm.trans found')
      obtain ⟨operand, inside, moved⟩ := Expr.operandAt?_of_evaluate inside'
      rw [log_eq]
      exact (accounts.accounted place operand
        (Option.bind_eq_some_iff.mpr ⟨expr, found, inside⟩)).moves moved
  | none =>
    obtain ⟨unmarked, nothing⟩ := moves.unmarked found found'
    have beyond := List.getElem?_eq_none_iff.mp found
    have absent : yieldsAt place log = [] := by
      refine yieldsAt_eq_nil fun entry member same => ?_
      have before := accounts.slots entry member
      rw [same] at before
      exact absurd before (by omega)
    rw [absent, nothing]
    exact .of_unmarked (unmarked.checked_eq_false inside')

theorem Accounts.runs (accounts : session.Accounts log) (runs : session.Runs come last) :
    last.Accounts (log ++ come) := by
  induction runs generalizing log with
  | ends session =>
    rw [List.append_nil]
    exact accounts
  | moves first others ih =>
    rw [← List.append_assoc]
    exact ih (accounts.moves first)

/-- **The tally of a probe** grows by the questions that are logged where it sits. -/
theorem Runs.typeQueries (runs : session.Runs log last) (name : String) :
    (last.tallies.get name).typeQueries =
      (session.tallies.get name).typeQueries + log.countP (last.asksProbe name) := by
  induction runs with
  | ends session => rfl
  | @moves session next last come log first others ih =>
    -- the probes are where they were when they were asked
    have same : come.countP (session.asksProbe name) = come.countP (last.asksProbe name) := by
      refine List.countP_congr fun entry member => ?_
      obtain ⟨expr, found⟩ : ∃ expr, session.get? entry.1.slot = some expr :=
        ⟨_, List.getElem?_eq_getElem (first.slots.2 entry member)⟩
      obtain ⟨expr', found', copy_same⟩ := (Runs.moves first others).get? found
      unfold asksProbe seatsProbe
      rw [found, found']
      show (_ && expr.seatsProbe name entry.1.seat) = true ↔
        (_ && expr'.seatsProbe name entry.1.seat) = true
      rw [Expr.seatsProbe_of_copy_eq copy_same]
    rw [ih, first.typeQueries, same, List.countP_append, Nat.add_assoc]

/-- The questions that are logged where a probe sits, place by place. -/
theorem countP_asksProbe (session : Session) (name : String) (log : List (Place × Yield)) :
    log.countP (session.asksProbe name) = ((session.probePlaces name).map fun place =>
      (yieldsAt place log).countP Yield.asked).sum := by
  rw [sum_countP_yieldsAt (nodup_probePlaces session name)]
  refine List.countP_congr fun entry _ => ?_
  have same : session.seatsProbe name entry.1 = true ↔ entry.1 ∈ session.probePlaces name :=
    seatsProbe_iff.trans mem_probePlaces.symm
  rw [asksProbe, Bool.and_eq_true, Bool.and_eq_true, decide_eq_true_eq, same]

/-- **Types are asked for once in each instance.** In a run that begins without marks:

* each operand of each instance is accounted for by what it yielded to this instance;
* whatever is done from then on, a mark stays;
* a copy is the same tree without marks, and the instances that were there stay as they are;
* what the tally of a probe has grown by is the sum of the questions in all places that hold it. -/
theorem run_asks_once (fresh : ∀ expr ∈ session.slots, expr.Unmarked)
    (run : session.run? actions = some (answers, last)) :
    let log := session.yields actions
    (∀ place operand, last.operandAt? place = some operand →
        operand.Accounted (yieldsAt place log)) ∧
      (∀ further answers' later, last.run? further = some (answers', later) →
        ∀ place operand, last.operandAt? place = some operand →
          ∃ operand', later.operandAt? place = some operand' ∧
            operand'.expr.copy = operand.expr.copy ∧
            (operand.checked = true → operand'.checked = true)) ∧
      (∀ slot expr, last.get? slot = some expr →
        ∃ made, last.copy? slot = some ⟨last.slots ++ [made], last.tallies⟩ ∧
          made.SameTree expr ∧ made.Unmarked) ∧
      ∀ name, (last.probePlaces name).Nodup ∧
        (∀ place, place ∈ last.probePlaces name ↔
          ∃ operand, last.operandAt? place = some operand ∧ operand.expr.isProbe name = true) ∧
        (last.tallies.get name).typeQueries = (session.tallies.get name).typeQueries +
          ((last.probePlaces name).map fun place =>
            (yieldsAt place log).countP Yield.asked).sum := by
  intro log
  have runs : session.Runs log last := run?_runs run
  have accounts : last.Accounts log := (Accounts.of_unmarked fresh).runs runs
  refine ⟨accounts.accounted, fun further answers' later run' place operand held => ?_,
    fun slot expr found => ?_, fun name => ⟨nodup_probePlaces last name,
      fun place => mem_probePlaces, ?_⟩⟩
  · exact (run?_runs run').operandAt? held
  · refine ⟨expr.copy, ?_, Expr.sameTree_copy expr, Expr.unmarked_copy expr⟩
    unfold copy?
    rw [found]
    rfl
  · rw [runs.typeQueries, countP_asksProbe]

/-- A conjunction of two probes, one that declares a boolean and one that declares an integer, is
evaluated twice and copied; then the copy and the first instance are evaluated. Each instance asks
the first probe once, and the second one whenever it gives a known value. -/
theorem run_asks_once_copied :
    let first : Probe := ⟨"first", .boolean, [.gives (.boolean true)]⟩
    let second : Probe := ⟨"second", .int4, [.gives .undefined, .gives (.boolean true)]⟩
    let session : Session := { slots := [.combine .and (.probe first) (.probe second)] }
    let actions : List Action := [⟨0, .evaluate .none ⟨[]⟩⟩, ⟨0, .evaluate .none ⟨[]⟩⟩, ⟨0, .copy⟩,
      ⟨1, .evaluate .none ⟨[]⟩⟩, ⟨0, .evaluate .none ⟨[]⟩⟩]
    let marked : Expr := .connective (.probe first) (.probe second) .and true false
    let last : Session := ⟨[marked, marked], [("first", ⟨4, 2⟩), ("second", ⟨4, 3⟩)]⟩
    (∀ expr ∈ session.slots, expr.Unmarked) ∧
      ∃ answers, session.run? actions = some (answers, last) ∧
        (∀ place operand, last.operandAt? place = some operand →
          operand.Accounted (yieldsAt place (session.yields actions))) ∧
        (last.tallies.get "second").typeQueries = (session.tallies.get "second").typeQueries +
          ((last.probePlaces "second").map fun place =>
            (yieldsAt place (session.yields actions)).countP Yield.asked).sum ∧
        (last.probePlaces "second").map (fun place =>
          (yieldsAt place (session.yields actions)).countP Yield.asked) = [2, 1] := by
  intro first second session actions marked last
  have fresh : ∀ expr ∈ session.slots, expr.Unmarked := by
    intro expr member
    rw [List.mem_singleton.mp member]
    exact ⟨trivial, trivial, rfl, rfl⟩
  have reached : (session.run? actions).map Prod.snd = some last := by
    simp [run?, perform?, evaluate?, copy?, get?, add, Expr.copy, Expr.combine, Expr.evaluate,
      Probe.outcome, Connective.examine, Connective.truthOf, Value.truth?, Expr.queryType,
      Tallies.get, Tallies.countEvaluation, Tallies.countTypeQuery, Tallies.update, session,
      actions, last, marked, first, second]
  obtain ⟨⟨answers, last'⟩, run, rfl⟩ := Option.map_eq_some_iff.mp reached
  obtain ⟨accounted, -, -, tallied⟩ := run_asks_once fresh run
  obtain ⟨-, -, asked⟩ := tallied "second"
  exact ⟨fresh, answers, run, accounted, asked, by decide⟩

end Session

end RowLogic
