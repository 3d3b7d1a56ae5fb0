/-
**The place of a reader.**

A reader in use is a fresh reader of the bytes that it has left, displaced by the bytes it has
passed and the levels it is in (`Within.reader_eq`). So all that came before, faults included, is
of no account to what it reads next: the result is the same, or the fault is but for its place, and
the reader ends as much further on, in as many levels (`run_displaced`).
-/

import RowLogic.Proofs.Expr.Displacement
import RowLogic.Proofs.Expr.Refusal

namespace RowLogic

/-! ### Operations on displaced readers -/

theorem Field.corresponds (field : Field) {move : Displacement} :
    Read.Corresponds move field.read field.read := by
  cases field with
  | byte => exact Read.corresponds_byte
  | bool => exact Read.corresponds_bool
  | uint32 => exact Read.corresponds_word _ _ _
  | int32 => exact Read.corresponds_word _ _ _
  | int64 => exact Read.corresponds_word _ _ _
  | double => exact Read.corresponds_word _ _ _
  | text => exact Read.corresponds_text
  | dataType => exact Read.corresponds_dataType
  | value => exact Read.corresponds_value
  | connective => exact Read.corresponds_connectiveKind

theorem Operation.corresponds {operation : Operation} {move : Displacement}
    (reads : operation.Reads) : Read.Corresponds move operation.body operation.body := by
  cases operation with
  | field kind => exact kind.corresponds
  | tag => exact Read.corresponds_tag
  | constant => exact Read.corresponds_constant
  | column => exact Read.corresponds_positional Expr.column
  | parameter => exact Read.corresponds_positional Expr.parameter
  | connective => exact Read.corresponds_connective
  | operands => exact Read.corresponds_operands
  | enter | leave | finish => exact absurd reads id

/-! ### The faults of operations -/

/-- A fault of the read quotes the limit of the reader, or says of the input what is so. -/
def Read.Truthful {α : Type} (body : Read α) : Prop :=
  ∀ input reader fault after, reader.Over input → body reader = .error fault after →
    fault = .wire (.nestingTooDeep reader.limits.maxDepth) ∨
      ∃ start, fault.TrueAt input start fault.diagnostic

theorem Read.Truthful.of_breaksOff {α : Type} {body : Read α} {spelled : Nat → List UInt8 → Prop}
    (breaks : ∀ levels, BreaksOff levels levels body (spelled levels)) : Truthful body := by
  intro input reader fault after placed failed
  rcases breaks reader.levels reader rfl fault after failed with ⟨deep, _⟩ | ⟨part, count, broken⟩
  · exact Or.inl deep
  · obtain ⟨delay, _, holds⟩ := broken.holds placed
    exact Or.inr ⟨_, holds⟩

theorem Read.truthful_nested : Truthful nested :=
  .of_breaksOff breaksOff_nested

theorem Field.truthful (field : Field) : Read.Truthful field.read := by
  intro input reader fault after placed failed
  refine Or.inr ?_
  cases field with
  | byte => exact ⟨_, (Read.takeByte_error placed failed).2⟩
  | bool => exact ⟨_, (Read.bool_error placed failed).2⟩
  | uint32 => exact ⟨_, (Read.word_error placed failed).2⟩
  | int32 => exact ⟨_, (Read.word_error placed failed).2⟩
  | int64 => exact ⟨_, (Read.word_error placed failed).2⟩
  | double => exact ⟨_, (Read.word_error placed failed).2⟩
  | text =>
    rcases Read.text_error placed failed with ⟨_, holds⟩ | ⟨_, holds⟩
    · exact ⟨_, holds⟩
    · exact ⟨_, holds⟩
  | dataType => exact ⟨_, (Read.dataType_error placed failed).2⟩
  | value =>
    obtain ⟨delay, _, holds⟩ := Read.value_error placed failed
    exact ⟨_, holds⟩
  | connective => exact ⟨_, (Read.bool_error placed (Read.map_error_iff.mp failed)).2⟩

/-- **The faults of all reads** are true, or quote the limit of the reader. -/
theorem Operation.truthful {operation : Operation} (reads : operation.Reads) :
    Read.Truthful operation.body := by
  have of_part : operation.IsPart → Read.Truthful operation.body := by
    intro isPart input reader fault after placed failed
    obtain ⟨delay, _, holds⟩ := Operation.part_error isPart placed failed
    exact Or.inr ⟨_, holds⟩
  cases operation with
  | field kind => exact kind.truthful
  | tag | constant | column | parameter => exact of_part trivial
  | connective =>
    exact .of_breaksOff fun levels =>
      Read.breaksOff_connectiveBy (Read.recognises_nested levels) (Read.breaksOff_nested levels)
  | operands =>
    exact .of_breaksOff fun levels =>
      Read.breaksOff_operandsBy (Read.recognises_nested levels) (Read.breaksOff_nested levels)
  | enter | leave | finish => exact absurd reads id

namespace Progress

variable {input : List UInt8} {limits : DecodeLimits} {progress : Progress}
  {operation : Operation}

/-! ### Fresh readers -/

/-- A fresh reader of the bytes that are left, to which so many levels fewer are open. -/
def fresh (input : List UInt8) (limits : DecodeLimits) (offset levels : Nat) : Reader where
  rest := input.drop offset
  limits := { limits with maxDepth := limits.maxDepth - levels }

/-- A reader in use is a fresh one of the bytes that are left, displaced. -/
theorem Within.reader_eq (within : progress.Within input limits) :
    progress.reader = (fresh input limits progress.reader.offset progress.reader.depth).displace
      ⟨progress.reader.offset, progress.reader.depth, 0, limits.allowTrailing⟩ := by
  have whole : progress.reader.depth + 0 + (limits.maxDepth - progress.reader.depth) =
      limits.maxDepth := by
    have depth_le := within.depth_le
    omega
  unfold fresh Reader.displace
  dsimp only
  rw [whole, Nat.add_zero, Nat.add_zero, ← within.rest_eq, ← within.limits_eq]

/-- The end of a read, of a reader in use and of a fresh one. -/
theorem Within.body_eq (within : progress.Within input limits) (reads : operation.Reads) :
    operation.body progress.reader =
      Read.displaceEnd ⟨progress.reader.offset, progress.reader.depth, 0, limits.allowTrailing⟩
        (operation.body (fresh input limits progress.reader.offset progress.reader.depth)) := by
  let anew := fresh input limits progress.reader.offset progress.reader.depth
  let move : Displacement :=
    ⟨progress.reader.offset, progress.reader.depth, 0, limits.allowTrailing⟩
  have same : operation.body (anew.displace move) = Read.displaceEnd move (operation.body anew) :=
    (Operation.corresponds reads anew).resolve_left fun more => absurd more.1 (Nat.lt_irrefl 0)
  rw [← same, ← within.reader_eq]

/-- However many bytes the fresh reader passes, the reader in use stays in its levels. -/
theorem Within.displace_advance (within : progress.Within input limits) {count : Nat}
    {after : Reader}
    (moved : after =
      (fresh input limits progress.reader.offset progress.reader.depth).advance count) :
    after.displace ⟨progress.reader.offset, progress.reader.depth, 0, limits.allowTrailing⟩ =
      { progress.reader with
        rest := after.rest, offset := progress.reader.offset + after.offset } := by
  have rest_eq : after.rest = progress.reader.rest.drop count := by
    rw [moved, within.rest_eq]
    rfl
  have offset_eq : after.offset = count := by
    rw [moved]
    exact Nat.zero_add count
  rw [rest_eq, offset_eq, moved, ← Reader.advance_displace, ← within.reader_eq]
  rfl

/-- A tagged expression and its bare content, to which one level less is open, are read alike: as
the same expression, or with faults of the same code. -/
def TaggedAlike (tag : ExprTag) (bare : Read Expr) : Prop :=
  ∀ payload depth allowTrailing,
    (∃ expr, Expr.decode (tag.byte :: payload) ⟨depth + 1, allowTrailing⟩ = .ok expr ∧
      bare.whole payload ⟨depth, allowTrailing⟩ = .ok expr) ∨
    ∃ fault bareFault,
      Expr.decode (tag.byte :: payload) ⟨depth + 1, allowTrailing⟩ = .error fault ∧
      bare.whole payload ⟨depth, allowTrailing⟩ = .error bareFault ∧
      fault.notice.code = bareFault.notice.code

theorem taggedAlike (tag : ExprTag) : TaggedAlike tag (Read.contentBy Read.nested tag) := by
  intro payload depth allowTrailing
  have same := Read.whole_tagged tag payload depth allowTrailing
  cases bare : Read.whole (Read.contentBy Read.nested tag) payload ⟨depth, allowTrailing⟩ with
  | ok expr =>
    rw [bare] at same
    exact Or.inl ⟨expr, same, rfl⟩
  | error fault =>
    rw [bare] at same
    exact Or.inr ⟨_, fault, same, rfl, fault.code_displace⟩

/-- **What is read does not depend on the place.** Whatever a reader was asked for before, faults
included, it reads as a fresh reader of the bytes that are left does, to which the levels that were
entered and not left are closed: it comes to the same content, or to the same fault but for its
place and for the limit, which is the reader's own; it passes as many bytes, and is in as many
levels as before. In particular a tagged expression is read as its bare content is, to which one
level less is open. -/
theorem run_displaced (input : List UInt8) (limits : DecodeLimits) (earlier : List Operation)
    (operation : Operation) (matched : (start input limits).Matched earlier)
    (reads : operation.Reads) :
    let used := (start input limits).run earlier
    let levels := used.reader.depth
    let anew := fresh input limits used.reader.offset levels
    let move : Displacement := ⟨used.reader.offset, levels, 0, limits.allowTrailing⟩
    levels + used.left = used.entered ∧ levels ≤ limits.maxDepth ∧
      (∀ content after, operation.body anew = .ok content after →
        operation.body used.reader = .ok content
          { used.reader with rest := after.rest, offset := used.reader.offset + after.offset }) ∧
      (∀ fault after, operation.body anew = .error fault after →
        operation.body used.reader = .error (fault.displace move)
          { used.reader with rest := after.rest, offset := used.reader.offset + after.offset } ∧
        ∀ quoted, fault.displace move = .wire (.nestingTooDeep quoted) →
          quoted = limits.maxDepth) ∧
      TaggedAlike .constant Operation.constant.body ∧ TaggedAlike .column Operation.column.body ∧
      TaggedAlike .parameter Operation.parameter.body ∧
      TaggedAlike .connective Operation.connective.body := by
  intro used levels anew move
  have all : (start input limits).Matched (earlier ++ []) := by rwa [List.append_nil]
  obtain ⟨within, -⟩ := (Within.start input limits).run all
  have same : operation.body used.reader = Read.displaceEnd move (operation.body anew) :=
    within.body_eq reads
  obtain ⟨count, -, moved⟩ := (Operation.composed reads).advances anew
  refine ⟨within.depth_eq, within.depth_le, ?_, ?_, taggedAlike .constant, taggedAlike .column,
    taggedAlike .parameter, taggedAlike .connective⟩
  · intro content after run
    rw [Read.behind_ok run] at moved
    rw [same, run, Read.displaceEnd, within.displace_advance moved]
  · intro fault after failed
    rw [Read.behind_error failed] at moved
    rw [failed, Read.displaceEnd, within.displace_advance moved] at same
    refine ⟨same, fun quoted deep => ?_⟩
    -- the displaced fault is that of the reader in use, so it quotes that reader's limit
    have placed : used.reader.Over input := ⟨within.offset_le, within.rest_eq⟩
    rcases Operation.truthful reads input _ _ _ placed same with own | ⟨place, holds⟩
    · cases own.symm.trans deep
      rw [within.limits_eq]
    · rw [deep] at holds
      cases holds

/-- A boolean that is none, a byte that is no tag, a level, and the tag of a conjunction: the
operands behind it, of which the second one is a level too deep, are read as from a fresh reader
that quotes one level less. -/
theorem run_displaced_faulty :
    let input : List UInt8 := [9, 4, 1, 1, 1, 4, 1, 0]
    let limits : DecodeLimits := { maxDepth := 2 }
    let earlier : List Operation := [.field .bool, .tag, .enter, .tag]
    let used := (start input limits).run earlier
    (start input limits).Matched earlier ∧ Operation.operands.Reads ∧
      used.reader.offset = 2 ∧ used.reader.depth = 1 ∧
      ∃ after, Operation.operands.body (fresh input limits 2 1) =
          .error (.wire (.nestingTooDeep 1)) after ∧
        Operation.operands.body used.reader = .error (.wire (.nestingTooDeep 2))
          { used.reader with rest := after.rest, offset := 2 + after.offset } := by
  intro input limits earlier used
  have matched : (start input limits).Matched earlier := ⟨nofun, nofun, nofun, nofun, trivial⟩
  have place : used.reader = ⟨[1, 1, 1, 4, 1, 0], 2, 1, limits⟩ := by decide
  obtain ⟨-, -, -, faults, -⟩ := run_displaced input limits earlier .operands matched trivial
  have failed : Operation.operands.body (fresh input limits 2 1) =
      .error (.wire (.nestingTooDeep 1)) ⟨[1, 0], 4, 0, ⟨1, false⟩⟩ := rfl
  have offset_eq : used.reader.offset = 2 := by rw [place]
  have depth_eq : used.reader.depth = 1 := by rw [place]
  change ∀ fault after, Operation.operands.body
    (fresh input limits used.reader.offset used.reader.depth) = .error fault after → _ at faults
  rw [offset_eq, depth_eq] at faults
  exact ⟨matched, trivial, offset_eq, depth_eq, _, failed, (faults _ _ failed).1⟩

end Progress

end RowLogic
