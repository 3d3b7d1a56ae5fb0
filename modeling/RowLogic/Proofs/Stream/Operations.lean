/-
**A reader in use.**

Operations follow on one another in any order and go on after faults. Whatever they are, the reader
stays within its input and never goes back, and its depth is the number of levels that were entered
and not left (`run_within`). The step that carries it is `Within.perform`; the reads are all
composed (`Operation.composed`), so the step need not look into any of them.
-/

import RowLogic.Proofs.Stream.Fields

namespace RowLogic

namespace Read

variable {α : Type} {body : Read α} {reader after : Reader}

/-- The read gives a result. -/
def succeeds (body : Read α) (reader : Reader) : Bool :=
  match body reader with
  | .ok _ _ => true
  | .error _ _ => false

theorem succeeds_ok {result : α} (run : body reader = .ok result after) :
    body.succeeds reader = true := by
  unfold succeeds
  rw [run]

theorem succeeds_error {fault : Fault} (run : body reader = .error fault after) :
    body.succeeds reader = false := by
  unfold succeeds
  rw [run]

end Read

/-- What can be asked of a reader. -/
inductive Operation where
  | field (field : Field)
  | tag
  | constant
  | column
  | parameter
  | connective
  | operands
  | enter
  | leave
  | finish
deriving DecidableEq

namespace Operation

/-- What an operation gives. -/
@[reducible] def Content : Operation → Type
  | field kind => kind.Content
  | tag => ExprTag
  | constant | column | parameter | connective => Expr
  | operands => Expr × Expr
  | enter | leave | finish => Unit

/-- What an operation does with a reader. -/
def body : (operation : Operation) → Read operation.Content
  | field kind => kind.read
  | tag => Read.tag
  | constant => Read.constant
  | column => Read.column
  | parameter => Read.parameter
  | connective => Read.connective
  | operands => Read.operands
  | enter => Read.enter
  | leave => Read.leave
  | finish => Read.finish

/-- The operation reads; the other ones only change the depth or look for the end. -/
def Reads : Operation → Prop
  | enter | leave | finish => False
  | _ => True

theorem composed {operation : Operation} (reads : operation.Reads) :
    Read.Composed operation.body := by
  cases operation with
  | field kind => exact kind.composed
  | tag => exact Read.composed_tag
  | constant => exact Read.composed_constant
  | column => exact Read.composed_column
  | parameter => exact Read.composed_parameter
  | connective => exact Read.composed_connective
  | operands => exact Read.composed_operands
  | enter | leave | finish => exact absurd reads id

end Operation

/-! ### Runs -/

/-- A reader in use, and how many levels were entered and left since the beginning of its input. -/
structure Progress where
  reader : Reader
  entered : Nat := 0
  left : Nat := 0

namespace Progress

/-- The beginning of an input. -/
def start (input : List UInt8) (limits : DecodeLimits) : Progress :=
  { reader := { rest := input, limits := limits } }

/-- One operation, whether or not it fails. A level that is refused is not entered. -/
def perform (progress : Progress) (operation : Operation) : Progress where
  reader := operation.body.behind progress.reader
  entered := progress.entered +
    if operation = .enter ∧ operation.body.succeeds progress.reader = true then 1 else 0
  left := progress.left + if operation = .leave then 1 else 0

/-- Some operations in turn, each on the reader that the one before it left. -/
def run (progress : Progress) (operations : List Operation) : Progress :=
  operations.foldl perform progress

/-- Each level that is left was entered. -/
def Matched (progress : Progress) : List Operation → Prop
  | [] => True
  | operation :: operations =>
    (operation = .leave → progress.left < progress.entered) ∧
      (progress.perform operation).Matched operations

/-- The reader stands within the input, as deep as levels were entered and not left. -/
structure Within (input : List UInt8) (limits : DecodeLimits) (progress : Progress) : Prop where
  offset_le : progress.reader.offset ≤ input.length
  rest_eq : progress.reader.rest = input.drop progress.reader.offset
  limits_eq : progress.reader.limits = limits
  depth_eq : progress.reader.depth + progress.left = progress.entered
  depth_le : progress.reader.depth ≤ limits.maxDepth

variable {input : List UInt8} {limits : DecodeLimits} {progress : Progress}
  {operation : Operation}

theorem Within.start (input : List UInt8) (limits : DecodeLimits) :
    (start input limits).Within input limits :=
  ⟨Nat.zero_le _, rfl, rfl, rfl, Nat.zero_le _⟩

theorem Within.remaining_eq (within : progress.Within input limits) :
    progress.reader.remaining = input.length - progress.reader.offset := by
  rw [Reader.remaining, within.rest_eq, List.length_drop]

/-! ### One operation -/

theorem perform_of_reads (reads : operation.Reads) :
    progress.perform operation =
      { progress with reader := operation.body.behind progress.reader } := by
  cases operation <;> first | rfl | exact absurd reads id

theorem perform_enter_full (full : progress.reader.limits.maxDepth ≤ progress.reader.depth) :
    progress.perform .enter = progress := by
  have refused : Read.enter progress.reader = .error _ progress.reader := if_pos full
  have stay : Operation.enter.body.behind progress.reader = progress.reader :=
    Read.behind_error refused
  have failed : Operation.enter.body.succeeds progress.reader = false :=
    Read.succeeds_error refused
  unfold perform
  rw [stay, failed]
  rfl

theorem perform_enter_open (room : progress.reader.depth < progress.reader.limits.maxDepth) :
    progress.perform .enter =
      { progress with reader := progress.reader.inside, entered := progress.entered + 1 } := by
  have moved : Operation.enter.body.behind progress.reader = progress.reader.inside :=
    Read.behind_ok (Read.enter_ok room)
  have passed : Operation.enter.body.succeeds progress.reader = true :=
    Read.succeeds_ok (Read.enter_ok room)
  unfold perform
  rw [moved, passed]
  rfl

theorem perform_leave :
    progress.perform .leave =
      { progress with reader := progress.reader.leave, left := progress.left + 1 } :=
  rfl

theorem perform_finish : progress.perform .finish = progress := by
  have stay : Operation.finish.body.behind progress.reader = progress.reader := by
    show Read.finish.behind progress.reader = _
    unfold Read.behind Read.finish
    by_cases refused : (!progress.reader.limits.allowTrailing && !progress.reader.isEmpty) = true
    · rw [if_pos refused]
    · rw [if_neg refused]
  unfold perform
  rw [stay]
  rfl

/-- Bytes that are there can be passed. -/
theorem Within.advance {count : Nat} (within : progress.Within input limits)
    (room : count ≤ progress.reader.remaining) :
    Within input limits { progress with reader := progress.reader.advance count } := by
  rw [within.remaining_eq] at room
  have offset_le := within.offset_le
  refine ⟨?_, ?_, within.limits_eq, within.depth_eq, within.depth_le⟩
  · show progress.reader.offset + count ≤ input.length
    omega
  · show progress.reader.rest.drop count = input.drop (progress.reader.offset + count)
    rw [within.rest_eq, List.drop_drop]

/-- **One operation** keeps the reader within the input, and does not take it back. -/
theorem Within.perform (within : progress.Within input limits)
    (matched : operation = .leave → progress.left < progress.entered) :
    (progress.perform operation).Within input limits ∧
      progress.reader.offset ≤ (progress.perform operation).reader.offset := by
  have depth_eq := within.depth_eq
  by_cases reads : operation.Reads
  · obtain ⟨count, room, moved⟩ := (Operation.composed reads).advances progress.reader
    rw [perform_of_reads reads, moved]
    exact ⟨within.advance room, Nat.le_add_right _ _⟩
  cases operation with
  | enter =>
    by_cases full : progress.reader.limits.maxDepth ≤ progress.reader.depth
    · rw [perform_enter_full full]
      exact ⟨within, Nat.le_refl _⟩
    have room := Nat.lt_of_not_le full
    rw [perform_enter_open room]
    refine ⟨⟨within.offset_le, within.rest_eq, within.limits_eq, ?_, ?_⟩, Nat.le_refl _⟩
    · show progress.reader.depth + 1 + progress.left = progress.entered + 1
      omega
    · rw [← within.limits_eq]
      exact room
  | leave =>
    have outstanding := matched rfl
    rw [perform_leave]
    refine ⟨⟨within.offset_le, within.rest_eq, within.limits_eq, ?_, ?_⟩, Nat.le_refl _⟩
    · show progress.reader.depth - 1 + (progress.left + 1) = progress.entered
      omega
    · exact Nat.le_trans (Nat.sub_le _ _) within.depth_le
  | finish =>
    rw [perform_finish]
    exact ⟨within, Nat.le_refl _⟩
  | _ => exact absurd trivial reads

/-- **A run** keeps the reader within the input, as long as each level that is left was entered. -/
theorem Within.run {operations later : List Operation} (within : progress.Within input limits)
    (matched : progress.Matched (operations ++ later)) :
    (progress.run operations).Within input limits ∧ (progress.run operations).Matched later := by
  induction operations generalizing progress with
  | nil => exact ⟨within, matched⟩
  | cons operation operations ih => exact ih (within.perform matched.1).1 matched.2

/-! ### Single reads -/

/-- A field that is read is passed, and nothing else. -/
theorem field_advances {field : Field} {content : field.Content} {reader after : Reader}
    (run : field.read reader = .ok content after) :
    ∃ written, (field.write content).result = .ok written ∧
      after = reader.advance written.length := by
  obtain ⟨bytes, spelled, -, rfl⟩ := (field.recognises reader rfl _ _).mp run
  obtain ⟨written, complete, size⟩ := Field.exists_write_of_spells spelled
  exact ⟨written, complete, by rw [size]⟩

/-- A tag is passed also if it stands for no expression. -/
theorem behind_tag (reader : Reader) :
    Read.tag.behind reader = if reader.isEmpty then reader else reader.advance 1 := by
  have start : Read.offset reader = .ok reader.offset reader := rfl
  unfold Reader.isEmpty
  cases left : reader.rest with
  | nil =>
    have run : Read.byte reader = .error (.wire (.truncated "u8" 1 0)) reader :=
      Read.takeByte_short left
    have failed : Read.tag reader = .error (.wire (.truncated "u8" 1 0)) reader := by
      rw [Read.tag, Read.bind_ok start, Read.bind_error run]
    exact Read.behind_error failed
  | cons byte rest =>
    have run : Read.byte reader = .ok byte (reader.advance 1) := Read.takeByte_ok left
    -- the tag is behind the reader before it is looked at
    cases known : ExprTag.ofByte? byte with
    | some tag =>
      have passed : Read.tag reader = .ok tag (reader.advance 1) := by
        rw [Read.tag, Read.bind_ok start, Read.bind_ok run, known]
        rfl
      exact Read.behind_ok passed
    | none =>
      have failed : Read.tag reader =
          .error (.unknownExpressionTag byte reader.offset) (reader.advance 1) := by
        rw [Read.tag, Read.bind_ok start, Read.bind_ok run, known]
        rfl
      exact Read.behind_error failed

/-- **A reader stays within its input** and within its depth, whatever it is asked for and whatever
failed before. No operation takes it back; a field that cannot be read leaves it where it is, and
one that is read takes it as far as the field is written; a tag takes it one byte on, if there is
one. -/
theorem run_within (input : List UInt8) (limits : DecodeLimits) (earlier : List Operation)
    (operation : Operation) (matched : (start input limits).Matched (earlier ++ [operation])) :
    let before := (start input limits).run earlier
    let after := before.perform operation
    after.Within input limits ∧ before.reader.offset ≤ after.reader.offset ∧
      (∀ field, operation = .field field →
        (∀ fault reader, field.read before.reader = .error fault reader →
          reader = before.reader) ∧
        ∀ content reader, field.read before.reader = .ok content reader →
          ∃ written, (field.write content).result = .ok written ∧
            reader = before.reader.advance written.length) ∧
      (operation = .tag → after.reader =
        if before.reader.isEmpty then before.reader else before.reader.advance 1) := by
  intro before after
  obtain ⟨before_within, last_matched⟩ := (Within.start input limits).run matched
  obtain ⟨after_within, forward⟩ := before_within.perform last_matched.1
  refine ⟨after_within, forward, fun field _ => ⟨?_, fun content reader => field_advances⟩, ?_⟩
  · exact fun fault reader failed => field.restores _ _ _ failed
  · rintro rfl
    exact behind_tag before.reader

/-- A boolean that is none, a level too many, a tag that is none, an expression too deep, and then a
text that is cut short. -/
theorem run_within_faulty :
    let input : List UInt8 := [2, 9, 0xFF, 0, 0, 0, 0x61]
    let limits : DecodeLimits := { maxDepth := 1 }
    let earlier : List Operation :=
      [.field .bool, .enter, .enter, .tag, .tag, .connective, .leave, .finish]
    let before := (start input limits).run earlier
    (start input limits).Matched (earlier ++ [.field .text]) ∧ before.reader.offset = 2 ∧
      (before.perform (.field .text)).Within input limits ∧
      ∃ reader, Field.text.read before.reader =
        .error (.wire (.truncated "utf8" 255 1)) reader ∧ reader = before.reader := by
  intro input limits earlier before
  have matched : (start input limits).Matched (earlier ++ [.field .text]) := by
    refine ⟨nofun, nofun, nofun, nofun, nofun, nofun, fun _ => ?_, nofun, nofun, trivial⟩
    decide
  obtain ⟨within, -, fields, -⟩ := run_within input limits earlier (.field .text) matched
  have place : before.reader = ⟨[0xFF, 0, 0, 0, 0x61], 2, 0, limits⟩ := by decide
  have failed : Field.text.read before.reader =
      .error (.wire (.truncated "utf8" 255 1)) before.reader := by
    rw [place]
    rfl
  exact ⟨matched, by rw [place], within, _, failed, (fields .text rfl).1 _ _ failed⟩

end Progress

end RowLogic
