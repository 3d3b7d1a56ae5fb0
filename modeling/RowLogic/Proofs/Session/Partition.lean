/-
**Sessions that begin with one expression.**

The instances of a session may be evaluated, copied, encoded and recoded in any order. If all of it
began with one expression without probes, no answer shows which instance gave it or what that
instance was evaluated on before: each is the answer of a fresh copy (`perform_answers`,
`run_answers`). So rows may be spread over any instances.
-/

import RowLogic.Expr.Session
import RowLogic.Proofs.Expr.RoundTrip

namespace RowLogic.Session

/-! ### Runs -/

/-- What can be asked of an instance. To recode it is to decode its encoding. -/
inductive Request where
  | evaluate (params : Params) (row : Row)
  | copy
  | encode
  | recode (limits : DecodeLimits)

/-- What comes back. A copy and a decoded instance take a slot of their own. -/
inductive Answer where
  | outcome (outcome : Except Fault Value)
  | copied
  | encoding (bytes : Except Fault (List UInt8))
  | recoded (made : Except Fault Unit)

/-- A request to the instance in a slot. -/
structure Action where
  slot : Nat
  request : Request

/-- The instance in a slot recoded: the encoding is decoded into a new slot. -/
def recode (session : Session) (expr : Expr) (limits : DecodeLimits) : Answer × Session :=
  match expr.encode.bind fun bytes => session.decode bytes limits with
  | .ok after => (.recoded (.ok ()), after)
  | .error fault => (.recoded (.error fault), session)

/-- The answer to an action and the session after it, if its slot is taken. -/
def perform? (session : Session) (action : Action) : Option (Answer × Session) :=
  match action.request with
  | .evaluate params row =>
    (session.evaluate? action.slot params row).map fun done => (.outcome done.1, done.2)
  | .copy => (session.copy? action.slot).map fun after => (.copied, after)
  | .encode => (session.get? action.slot).map fun expr => (.encoding expr.encode, session)
  | .recode limits => (session.get? action.slot).map fun expr => session.recode expr limits

/-- The answers to some actions in turn and the session after them. -/
def run? (session : Session) : List Action → Option (List Answer × Session)
  | [] => some ([], session)
  | action :: actions =>
    (session.perform? action).bind fun done =>
      (done.2.run? actions).map fun rest => (done.1 :: rest.1, rest.2)

/-- The answer of a fresh copy. -/
def Request.expected (tree : Expr) : Request → Answer
  | evaluate params row => .outcome (tree.reference params row)
  | copy => .copied
  | encode => .encoding tree.copy.encode
  | recode _ => .recoded (tree.copy.encode.map fun _ => ())

/-- The limits of a recoding leave room for the tree. -/
def Request.Admits (tree : Expr) : Request → Prop
  | recode limits => tree.depth ≤ limits.maxDepth
  | _ => True

/-- All instances are sound instances of one tree. -/
def Instances (tree : Expr) (session : Session) : Prop :=
  ∀ expr ∈ session.slots, expr.copy = tree.copy ∧ expr.Sound

/-! ### One action -/

variable {tree expr : Expr} {session next last : Session} {action : Action} {answer : Answer}

/-- Actions are possible as long as their slots are taken. -/
theorem perform?_isSome_iff :
    (session.perform? action).isSome ↔ action.slot < session.slots.length := by
  obtain ⟨slot, request⟩ := action
  have taken : (session.get? slot).isSome ↔ slot < session.slots.length := by
    unfold get?
    simp
  rw [← taken]
  unfold perform? evaluate? copy?
  cases request <;> cases session.get? slot <;> simp

theorem Instances.add (instances : Instances tree session) (same : expr.copy = tree.copy)
    (sound : expr.Sound) : Instances tree (session.add expr) := by
  intro other member
  rcases List.mem_append.mp member with before | new
  · exact instances other before
  · rw [List.mem_singleton.mp new]
    exact ⟨same, sound⟩

theorem Instances.set {slot : Nat} {tallies : Tallies} (instances : Instances tree session)
    (same : expr.copy = tree.copy) (sound : expr.Sound) :
    Instances tree ⟨session.slots.set slot expr, tallies⟩ := by
  intro other member
  rcases List.mem_or_eq_of_mem_set member with before | rfl
  · exact instances other before
  · exact ⟨same, sound⟩

theorem Instances.recode {limits : DecodeLimits} (instances : Instances tree session)
    (same : expr.copy = tree.copy) (shallow : tree.depth ≤ limits.maxDepth) :
    (session.recode expr limits).1 = (Request.recode limits).expected tree ∧
      Instances tree (session.recode expr limits).2 := by
  have encode_same : tree.copy.encode = expr.encode := by rw [← same, Expr.encode_copy]
  have depth_same : expr.depth = tree.depth := by rw [← Expr.depth_copy expr, same, Expr.depth_copy]
  unfold Session.recode Request.expected
  rw [encode_same]
  cases encoded : expr.encode with
  | error fault => exact ⟨rfl, instances⟩
  | ok bytes =>
    have decoded : (Except.ok bytes : Except Fault (List UInt8)).bind
        (fun bytes => session.decode bytes limits) = .ok (session.add expr.copy) := by
      show (Expr.decode bytes limits).map session.add = _
      rw [Expr.decode_of_encode encoded (by rwa [depth_same])]
      rfl
    rw [decoded]
    have copy_same : expr.copy.copy = tree.copy := by rw [Expr.copy_copy, same]
    exact ⟨rfl, instances.add copy_same (Expr.unmarked_copy expr).sound⟩

/-- **One action** gives the answer of a fresh copy and leaves instances of the same tree. -/
theorem perform_answers (probeFree : tree.ProbeFree) (instances : Instances tree session)
    (admits : action.request.Admits tree) (step : session.perform? action = some (answer, next)) :
    answer = action.request.expected tree ∧ Instances tree next := by
  obtain ⟨slot, request⟩ := action
  have taken : ∃ expr, session.get? slot = some expr := by
    have possible : (session.perform? ⟨slot, request⟩).isSome := by rw [step]; rfl
    exact ⟨_, List.getElem?_eq_getElem (perform?_isSome_iff.mp possible)⟩
  obtain ⟨expr, found⟩ := taken
  obtain ⟨same, sound⟩ := instances expr (List.mem_of_getElem? found)
  unfold perform? at step
  cases request <;> dsimp only at step
  case evaluate params row =>
    have done : session.evaluate? slot params row =
        some ((expr.evaluate params row session.tallies).outcome,
          ⟨session.slots.set slot (expr.evaluate params row session.tallies).expr,
            (expr.evaluate params row session.tallies).tallies⟩) := by
      unfold evaluate?
      rw [found]
      rfl
    rw [done] at step
    obtain ⟨rfl, rfl⟩ := Prod.mk.inj (Option.some.inj step)
    refine ⟨congrArg Answer.outcome ?_, instances.set ?_ (sound.evaluate session.tallies)⟩
    · rw [Expr.evaluate_outcome (Expr.probeFree_of_copy_eq same probeFree) sound]
      exact Expr.reference_of_copy_eq same
    · rw [Expr.copy_evaluate, same]
  case copy =>
    have done : session.copy? slot = some (session.add expr.copy) := by
      unfold copy?
      rw [found]
      rfl
    rw [done] at step
    obtain ⟨rfl, rfl⟩ := Prod.mk.inj (Option.some.inj step)
    have copy_same : expr.copy.copy = tree.copy := by rw [Expr.copy_copy, same]
    exact ⟨rfl, instances.add copy_same (Expr.unmarked_copy expr).sound⟩
  case encode =>
    rw [found] at step
    obtain ⟨rfl, rfl⟩ := Prod.mk.inj (Option.some.inj step)
    exact ⟨congrArg Answer.encoding (by rw [← same, Expr.encode_copy]), instances⟩
  case recode limits =>
    rw [found] at step
    obtain ⟨answer_eq, next_eq⟩ := Prod.mk.inj (Option.some.inj step)
    rw [← answer_eq, ← next_eq]
    exact instances.recode same admits

/-! ### Runs of any length -/

theorem run_instances {actions : List Action} {answers : List Answer} (probeFree : tree.ProbeFree)
    (instances : Instances tree session) (admits : ∀ action ∈ actions, action.request.Admits tree)
    (run : session.run? actions = some (answers, last)) :
    answers = actions.map (fun action => action.request.expected tree) ∧ Instances tree last := by
  induction actions generalizing session answers with
  | nil =>
    obtain ⟨rfl, rfl⟩ := Prod.mk.inj (Option.some.inj run)
    exact ⟨rfl, instances⟩
  | cons action actions ih =>
    obtain ⟨⟨answer, next⟩, step, rest⟩ := Option.bind_eq_some_iff.mp run
    obtain ⟨⟨answers', last'⟩, run', same⟩ := Option.map_eq_some_iff.mp rest
    obtain ⟨rfl, rfl⟩ := Prod.mk.inj same
    obtain ⟨first, instances'⟩ :=
      perform_answers probeFree instances (admits action List.mem_cons_self) step
    obtain ⟨others, instances''⟩ :=
      ih instances' (fun other member => admits other (List.mem_cons_of_mem _ member)) run'
    rw [List.map_cons, ← first, ← others]
    exact ⟨rfl, instances''⟩

/-- **The marks are invisible.** In a run that begins with one expression without probes, whatever
state evaluations left it in, every action is answered as by a fresh copy, and each instance keeps
text, declared type and encoding. So an instance to which a row falls gives what one instance gives
that evaluates all rows in turn. -/
theorem run_answers (reached : Expr.Reached tree) (probeFree : tree.ProbeFree)
    (start : session.slots = [tree]) {actions : List Action}
    (admits : ∀ action ∈ actions, action.request.Admits tree) {answers : List Answer}
    (run : session.run? actions = some (answers, last)) :
    answers = actions.map (fun action => action.request.expected tree) ∧
      (∀ expr ∈ last.slots, expr.text = tree.text ∧ expr.declared = tree.declared ∧
        expr.encode = tree.copy.encode) ∧
      (∀ action, (last.perform? action).isSome ↔ action.slot < last.slots.length) ∧
      ∀ (params : Params) (rows : List Row) (place slot turn : Nat) (row : Row),
        actions[place]? = some ⟨slot, .evaluate params row⟩ → rows[turn]? = some row →
        answers[place]? =
          ((tree.evaluateRows params rows session.tallies).1[turn]?).map Answer.outcome := by
  have instances : Instances tree session := by
    intro expr member
    rw [start] at member
    rw [List.mem_singleton.mp member]
    exact ⟨rfl, reached.sound⟩
  obtain ⟨all_answers, last_instances⟩ := run_instances probeFree instances admits run
  refine ⟨all_answers, ?_, fun action => perform?_isSome_iff, ?_⟩
  · intro expr member
    obtain ⟨same, _⟩ := last_instances expr member
    refine ⟨?_, Expr.declared_eq_of_copy_eq same, ?_⟩
    · rw [← Expr.text_copy expr, same, Expr.text_copy]
    · rw [← same, Expr.encode_copy]
  · intro params rows place slot turn row asked served
    rw [all_answers, List.getElem?_map, asked, Expr.evaluateRows_fst probeFree reached.sound,
      List.getElem?_map, served]
    rfl

/-- The first instance is marked and then fails; a copy of one that was decoded from it answers as
the first one would. -/
theorem run_answers_recoded :
    let tree : Expr := .combine .and (.column 0 .boolean) (.parameter 0 .boolean)
    let row : Row := ⟨[.boolean true]⟩
    let params : Params := .positional [.boolean false]
    let actions : List Action := [⟨0, .evaluate .none row⟩, ⟨0, .recode { maxDepth := 2 }⟩,
      ⟨1, .copy⟩, ⟨2, .evaluate params row⟩, ⟨0, .encode⟩]
    ∃ answers last, ({ slots := [tree] } : Session).run? actions = some (answers, last) ∧
      answers = actions.map (fun action => action.request.expected tree) ∧
      answers[3]? = some (.outcome (.ok (.boolean false))) := by
  intro tree row params actions
  have reached : Expr.Reached tree := .fresh ⟨trivial, trivial, rfl, rfl⟩
  have admits : ∀ action ∈ actions, action.request.Admits tree := by
    simp only [actions, List.forall_mem_cons, Request.Admits]
    exact ⟨trivial, by decide, trivial, trivial, trivial, fun _ member => nomatch member⟩
  have possible : (({ slots := [tree] } : Session).run? actions).isSome = true := by decide
  obtain ⟨⟨answers, last⟩, run⟩ := Option.isSome_iff_exists.mp possible
  obtain ⟨all_answers, -, -, spread⟩ := run_answers reached ⟨trivial, trivial⟩ rfl admits run
  exact ⟨answers, last, run, all_answers, spread params [row] 3 2 0 row rfl rfl⟩

end RowLogic.Session
