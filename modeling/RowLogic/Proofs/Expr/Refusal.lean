/-
**Where a stream stops being an expression.**

An expression is read in parts: tags, the contents of leaves, and the connectives behind their
operands. A stream that is refused, other than for its depth or for what follows, is refused at one
of these parts. The part itself cannot be read, what its diagnostic says is so, and the bytes in
front of it are the beginning of an expression within the limits (`Broken`, `decode_refused`).

The reads of expressions are composed of those of the parts; where they break off is composed
accordingly (`BreaksOff.bind`, `BreaksOff.deeper`). A reader can run out of levels only if it has as
many bytes left, so each level beyond the length of the input is one too many.
-/

import RowLogic.Proofs.Stream.Operations
import RowLogic.Proofs.Wire.Refusal

namespace RowLogic

/-! ### Parts -/

namespace Operation

/-- The parts that an expression is read in. -/
def IsPart : Operation → Prop
  | tag | constant | column | parameter | field .connective => True
  | _ => False

/-- The faults of a part, and how far into it the field begins that they are about. -/
inductive Faults : Operation → Nat → Fault → Prop where
  | tagMissing : Faults .tag 0 (.wire (.truncated "u8" 1 0))
  | tagUnknown (tag : UInt8) (start : Nat) : Faults .tag 0 (.unknownExpressionTag tag start)
  | constant {delay : Nat} {fault : Fault} (inValue : fault.InValue delay) :
    Faults .constant delay fault
  | indexShort {part : Operation} (positional : part = .column ∨ part = .parameter)
    (remaining : Nat) : Faults part 0 (.wire (.truncated "u32" 4 remaining))
  | typeMissing {part : Operation} (positional : part = .column ∨ part = .parameter) :
    Faults part 4 (.wire (.truncated "u8" 1 0))
  | typeUnknown {part : Operation} (positional : part = .column ∨ part = .parameter) (tag : UInt8)
    (start : Nat) : Faults part 4 (.wire (.unknownTypeTag tag start))
  | connectiveMissing : Faults (.field .connective) 0 (.wire (.truncated "bool" 1 0))
  | connectiveInvalid (byte : UInt8) (start : Nat) :
    Faults (.field .connective) 0 (.wire (.invalidBoolean byte start))

/-- The part cannot be read from the bytes that are left at an offset. -/
def FailsAt (part : Operation) (rest : List UInt8) (offset : Nat) (fault : Fault) : Prop :=
  ∃ reader after, reader.rest = rest ∧ reader.offset = offset ∧
    part.body reader = .error fault after

end Operation

section Parts

variable {input : List UInt8} {reader after : Reader} {fault : Fault}

theorem Read.tag_error (placed : reader.Over input)
    (failed : Read.tag reader = .error fault after) :
    (fault = .wire (.truncated "u8" 1 0) ∨
        ∃ tag, fault = .unknownExpressionTag tag reader.offset) ∧
      fault.TrueAt input reader.offset fault.diagnostic := by
  rcases bind_error_iff.mp failed with impossible | ⟨start, place, begun, run⟩
  · cases impossible
  cases begun
  rcases bind_error_iff.mp run with short | ⟨byte, inner, taken, judged⟩
  · obtain ⟨same, holds⟩ := takeByte_error placed short
    exact ⟨Or.inl same, holds⟩
  obtain ⟨⟨rest, left⟩, rfl⟩ := takeByte_ok_iff.mp taken
  cases known : ExprTag.ofByte? byte with
  | some tag =>
    rw [known] at judged
    cases judged
  | none =>
    rw [known] at judged
    cases judged
    refine ⟨Or.inr ⟨byte, rfl⟩, .unknownExpressionTag ?_ (placed.getElem? left) ?_⟩
    · rw [← hexText_eq]
      exact Fault.tells _
    · rintro kind rfl
      rw [ExprTag.ofByte?_byte] at known
      cases known

/-- The content of a column or of a parameter: a position and a type. -/
theorem Read.positional_error {make : UInt32 → DataType → Expr} (placed : reader.Over input)
    (failed : (do let index ← uint32; let type ← dataType; pure (make index type) : Read Expr)
      reader = .error fault after) :
    (fault = .wire (.truncated "u32" 4 reader.remaining) ∧
        fault.TrueAt input reader.offset fault.diagnostic) ∨
      (fault = .wire (.truncated "u8" 1 0) ∨
          ∃ tag start, fault = .wire (.unknownTypeTag tag start)) ∧
        fault.TrueAt input (reader.offset + 4) fault.diagnostic := by
  rcases bind_error_iff.mp failed with short | ⟨index, inner, taken, run⟩
  · exact Or.inl (word_error placed short)
  obtain ⟨_, spelled, begins, rfl⟩ := (recognises_uint32 reader rfl index inner).mp taken
  cases spelled
  have inner_over := placed.advance begins.length_le
  rcases bind_error_iff.mp run with untyped | ⟨type, last, typed, impossible⟩
  · obtain ⟨same | ⟨tag, same⟩, holds⟩ := dataType_error inner_over untyped
    · exact Or.inr ⟨Or.inl same, holds⟩
    · exact Or.inr ⟨Or.inr ⟨tag, _, same⟩, holds⟩
  · cases impossible

/-- **All faults of a part**, where in it they arise, and that they are true. -/
theorem Operation.part_error {part : Operation} (isPart : part.IsPart) (placed : reader.Over input)
    (failed : part.body reader = .error fault after) :
    ∃ delay, part.Faults delay fault ∧
      fault.TrueAt input (reader.offset + delay) fault.diagnostic := by
  -- a column and a parameter differ only in what they make of position and type
  have positional : ∀ (part : Operation) (make : UInt32 → DataType → Expr),
      part = .column ∨ part = .parameter →
      (do let index ← Read.uint32; let type ← Read.dataType; pure (make index type) : Read Expr)
        reader = .error fault after →
      ∃ delay, part.Faults delay fault ∧
        fault.TrueAt input (reader.offset + delay) fault.diagnostic := by
    intro part make either failed
    rcases Read.positional_error placed failed with
      ⟨rfl, holds⟩ | ⟨rfl | ⟨tag, start, rfl⟩, holds⟩
    · exact ⟨0, .indexShort either _, holds⟩
    · exact ⟨4, .typeMissing either, holds⟩
    · exact ⟨4, .typeUnknown either _ _, holds⟩
  cases part with
  | tag =>
    obtain ⟨rfl | ⟨tag, rfl⟩, holds⟩ := Read.tag_error placed failed
    · exact ⟨0, .tagMissing, holds⟩
    · exact ⟨0, .tagUnknown _ _, holds⟩
  | constant =>
    obtain ⟨delay, inValue, holds⟩ := Read.value_error placed (Read.map_error_iff.mp failed)
    exact ⟨delay, .constant inValue, holds⟩
  | column => exact positional .column Expr.column (Or.inl rfl) failed
  | parameter => exact positional .parameter Expr.parameter (Or.inr rfl) failed
  | field kind =>
    cases kind with
    | connective =>
      obtain ⟨rfl | ⟨byte, rfl⟩, holds⟩ := Read.bool_error placed (Read.map_error_iff.mp failed)
      · exact ⟨0, .connectiveMissing, holds⟩
      · exact ⟨0, .connectiveInvalid _ _, holds⟩
    | _ => exact absurd isPart id
  | _ => exact absurd isPart id

end Parts

namespace Read

/-! ### Reads that break off -/

/-- Behind so many bytes a read is broken off at a part; until then, the bytes are the beginning of
something that is spelled. -/
structure Broken (spelled : List UInt8 → Prop) (reader : Reader) (fault : Fault)
    (part : Operation) (count : Nat) : Prop where
  isPart : part.IsPart
  within : count ≤ reader.remaining
  fails : part.FailsAt (reader.rest.drop count) (reader.offset + count) fault
  begun : ∃ back, back ≠ [] ∧ spelled (reader.rest.take count ++ back)

/-- A read that fails at so many open levels is broken off at a part, or runs out of levels, which
takes at least so many bytes. -/
def BreaksOff {α : Type} (levels bytes : Nat) (body : Read α) (spelled : List UInt8 → Prop) :
    Prop :=
  ∀ reader : Reader, reader.levels = levels → ∀ fault after, body reader = .error fault after →
    (fault = .wire (.nestingTooDeep reader.limits.maxDepth) ∧ bytes ≤ reader.remaining) ∨
      ∃ part count, Broken spelled reader fault part count

variable {α β : Type} {body : Read α} {levels bytes : Nat} {spelled spelled' : List UInt8 → Prop}
  {reader : Reader} {fault : Fault} {part : Operation} {count : Nat}

theorem Broken.mono (broken : Broken spelled reader fault part count)
    (extend : ∀ front, spelled front → ∃ more, spelled' (front ++ more)) :
    Broken spelled' reader fault part count := by
  obtain ⟨back, nonempty, begun⟩ := broken.begun
  obtain ⟨more, begun'⟩ := extend _ begun
  rw [List.append_assoc] at begun'
  have nonempty' := List.append_ne_nil_of_left_ne_nil nonempty more
  exact { broken with begun := ⟨back ++ more, nonempty', begun'⟩ }

/-- What is broken off behind some bytes is broken off behind these and the ones in front. -/
theorem Broken.behind {front : List UInt8} (begins : front <+: reader.rest)
    (broken : Broken spelled (reader.advance front.length) fault part count)
    (extend : ∀ back, spelled back → spelled' (front ++ back)) :
    Broken spelled' reader fault part (front.length + count) := by
  obtain ⟨back, nonempty, begun⟩ := broken.begun
  have size := begins.length_le
  have within := broken.within
  rw [Reader.remaining_advance] at within
  obtain ⟨stopped, after, rest, place, failed⟩ := broken.fails
  refine ⟨broken.isPart, ?_, ⟨stopped, after, ?_, ?_, failed⟩, back, nonempty, ?_⟩
  · show front.length + count ≤ reader.rest.length
    unfold Reader.remaining at within
    omega
  · rw [rest, Reader.rest_advance, List.drop_drop]
  · rw [place]
    exact Nat.add_assoc _ _ _
  · rw [List.take_add, ← List.prefix_iff_eq_take.mp begins, List.append_assoc]
    exact extend _ begun

/-- What the fault of a part says is so, also where the part is one of many. -/
theorem Broken.holds {input : List UInt8} (broken : Broken spelled reader fault part count)
    (placed : reader.Over input) : ∃ delay, part.Faults delay fault ∧
      fault.TrueAt input (reader.offset + count + delay) fault.diagnostic := by
  have inside := placed.advance broken.within
  obtain ⟨stopped, after, rest, place, failed⟩ := broken.fails
  have stopped_over : stopped.Over input := by
    refine ⟨place ▸ inside.offset_le, ?_⟩
    rw [rest, place]
    exact inside.rest_eq
  rw [← place]
  exact Operation.part_error broken.isPart stopped_over failed

theorem BreaksOff.mono (breaks : BreaksOff levels bytes body spelled) {bytes' : Nat}
    (fewer : bytes' ≤ bytes) (extend : ∀ front, spelled front → ∃ more, spelled' (front ++ more)) :
    BreaksOff levels bytes' body spelled' := by
  intro reader open_ fault after failed
  rcases breaks reader open_ fault after failed with ⟨same, enough⟩ | ⟨part, count, broken⟩
  · exact Or.inl ⟨same, Nat.le_trans fewer enough⟩
  · exact Or.inr ⟨part, count, broken.mono extend⟩

theorem BreaksOff.pure (result : α) : BreaksOff levels bytes (Pure.pure result) spelled :=
  fun _ _ _ _ impossible => nomatch impossible

/-- A part breaks off at once. -/
theorem breaksOff_part (part : Operation) (isPart : part.IsPart)
    (exists_spelled : ∃ back, back ≠ [] ∧ spelled back) :
    BreaksOff levels bytes part.body spelled := by
  intro reader _ fault after failed
  exact Or.inr ⟨part, 0, isPart, Nat.zero_le _, ⟨reader, after, rfl, rfl, failed⟩, exists_spelled⟩

/-- **A composed read breaks off** in its first part, if that can be completed, or in its second one
behind what the first one took. -/
theorem BreaksOff.bind {next : α → Read β} {spells : α → List UInt8 → Prop}
    (ends : α → List UInt8 → Prop) (recognises : Recognises levels body spells)
    (first : BreaksOff levels bytes body fun front =>
      ∃ middle back, spells middle front ∧ ends middle back)
    (second : ∀ middle front, spells middle front →
      BreaksOff levels (bytes - front.length) (next middle) (ends middle)) :
    BreaksOff levels bytes (body >>= next) fun whole =>
      ∃ middle front back, spells middle front ∧ ends middle back ∧ whole = front ++ back := by
  intro reader open_ fault after failed
  rcases bind_error_iff.mp failed with stopped | ⟨middle, between, run, failed'⟩
  · rcases first reader open_ fault after stopped with deep | ⟨part, count, broken⟩
    · exact Or.inl deep
    · refine Or.inr ⟨part, count, broken.mono ?_⟩
      rintro front ⟨middle, back, spelled, ended⟩
      exact ⟨back, middle, front, back, spelled, ended, rfl⟩
  · obtain ⟨front, spelled, begins, rfl⟩ := (recognises reader open_ middle between).mp run
    rcases second middle front spelled (reader.advance front.length) open_ fault after failed' with
      ⟨same, enough⟩ | ⟨part, count, broken⟩
    · have size : front.length ≤ reader.remaining := begins.length_le
      rw [Reader.remaining_advance] at enough
      exact Or.inl ⟨same, by omega⟩
    · exact Or.inr ⟨part, _, broken.behind begins fun back ended =>
        ⟨middle, front, back, spelled, ended, rfl⟩⟩

theorem BreaksOff.deeper (breaks : BreaksOff levels bytes body spelled) :
    BreaksOff (levels + 1) bytes (deeper body) spelled := by
  intro reader open_ fault after failed
  have room : reader.depth < reader.limits.maxDepth := by
    unfold Reader.levels at open_
    omega
  have inside_open : reader.inside.levels = levels := by
    rw [Reader.levels_inside, open_, Nat.add_sub_cancel]
  cases run : body reader.inside with
  | ok result behind =>
    rw [deeper_ok room run] at failed
    cases failed
  | error fault' behind =>
    rw [deeper_error room run] at failed
    cases failed
    rcases breaks reader.inside inside_open _ _ run with deep | ⟨part, count, broken⟩
    · exact Or.inl deep
    · exact Or.inr ⟨part, count, broken.isPart, broken.within, broken.fails, broken.begun⟩

/-! ### Broken expressions -/

/-- The spellings of the expressions that so many open levels allow. -/
def Allowed (levels : Nat) (bytes : List UInt8) : Prop :=
  ∃ expr, Readable levels expr bytes

/-- One level allows an undefined constant. -/
theorem readable_leaf {levels : Nat} (open_ : 0 < levels) :
    Readable levels (.constant .undefined) [ExprTag.constant.byte, 0] :=
  ⟨open_, trivial, .constant ⟨[], rfl, rfl⟩⟩

/-- Where one expression is allowed, so is a leaf. -/
theorem readable_leaf_of_readable {expr : Expr} {front : List UInt8}
    (readable : Readable levels expr front) :
    Readable levels (.constant .undefined) [ExprTag.constant.byte, 0] :=
  readable_leaf (Nat.lt_of_lt_of_le expr.depth_pos readable.1)

section Operand

variable {operand : Read Expr} (recognises : Recognises levels operand (Readable levels))
  (breaks : BreaksOff levels levels operand (Allowed levels))

include recognises breaks

theorem breaksOff_operandsBy :
    BreaksOff levels levels (operandsBy operand) fun whole => ∃ left right front back,
      Readable levels left front ∧ Readable levels right back ∧ whole = front ++ back := by
  refine BreaksOff.mono (.bind (fun _ back => Allowed levels back) recognises ?_
    fun left front _ => ?_) (Nat.le_refl _) ?_
  · refine breaks.mono (Nat.le_refl _) ?_
    rintro front ⟨left, readable⟩
    refine ⟨[], left, _, ?_, _, readable_leaf_of_readable readable⟩
    rwa [List.append_nil]
  · refine BreaksOff.mono (.bind (fun _ back => back = []) recognises ?_
      fun right back _ => .pure _) (Nat.sub_le _ _) ?_
    · refine breaks.mono (Nat.le_refl _) ?_
      rintro back ⟨right, readable⟩
      exact ⟨[], right, [], by rwa [List.append_nil], rfl⟩
    · rintro whole ⟨right, back, _, readable, rfl, rfl⟩
      exact ⟨[], right, by rwa [List.append_nil, List.append_nil]⟩
  · rintro whole ⟨left, front, back, readable, ⟨right, readable'⟩, rfl⟩
    exact ⟨[], left, right, front, back, readable, readable', List.append_nil _⟩

theorem breaksOff_connectiveBy :
    BreaksOff levels levels (connectiveBy operand) fun back =>
      Allowed (levels + 1) (ExprTag.connective.byte :: back) := by
  have kind_read : ∀ bytes left right, BreaksOff levels bytes
      (connectiveKind >>= fun kind => Pure.pure (Expr.combine kind left right))
      fun back => ∃ kind : Connective, back = [if kind.isOr then 1 else 0] := by
    intro bytes left right
    refine BreaksOff.mono (.bind (fun _ back => back = []) recognises_connectiveKind
      (breaksOff_part (.field .connective) trivial ?_) fun kind _ _ => .pure _)
      (Nat.le_refl _) ?_
    · exact ⟨[0], List.cons_ne_nil _ _, .and, [], rfl, rfl⟩
    · rintro whole ⟨kind, _, _, rfl, rfl, rfl⟩
      exact ⟨[], kind, by rw [List.append_nil, List.append_nil]⟩
  refine BreaksOff.mono (.bind
    (fun _ back => ∃ kind : Connective, back = [if kind.isOr then 1 else 0])
    (recognises_operandsBy recognises) ?_ fun pair _ _ => kind_read _ _ _) (Nat.le_refl _) ?_
  · refine (breaksOff_operandsBy recognises breaks).mono (Nat.le_refl _) ?_
    rintro whole ⟨left, right, front, back, readable, readable', rfl⟩
    exact ⟨[], (left, right), [0], ⟨front, back, readable, readable', List.append_nil _⟩, .and, rfl⟩
  · rintro whole ⟨⟨left, right⟩, _, _, ⟨front, back, readable, readable', rfl⟩, ⟨kind, rfl⟩, rfl⟩
    obtain ⟨left_fits, left_unmarked, left_spelled⟩ := readable
    obtain ⟨right_fits, right_unmarked, right_spelled⟩ := readable'
    refine ⟨[], .combine kind left right, Nat.succ_le_succ (Nat.max_le.mpr ⟨left_fits, right_fits⟩),
      ⟨left_unmarked, right_unmarked, rfl, rfl⟩, ?_⟩
    rw [List.append_nil, List.append_assoc]
    exact .connective left_spelled right_spelled

theorem breaksOff_contentBy (tag : ExprTag) :
    BreaksOff levels levels (contentBy operand tag) fun back =>
      Allowed (levels + 1) (tag.byte :: back) := by
  have leaf_fits : 1 ≤ levels + 1 := Nat.le_add_left 1 levels
  cases tag with
  | constant =>
    exact breaksOff_part .constant trivial
      ⟨[0], List.cons_ne_nil _ _, _, readable_leaf (Nat.succ_pos levels)⟩
  | column =>
    exact breaksOff_part .column trivial
      ⟨[0, 0, 0, 0, 0], List.cons_ne_nil _ _, .column 0 .undefined, leaf_fits, trivial, .column rfl⟩
  | parameter =>
    exact breaksOff_part .parameter trivial
      ⟨[0, 0, 0, 0, 0], List.cons_ne_nil _ _, .parameter 0 .undefined, leaf_fits, trivial,
        .parameter rfl⟩
  | connective => exact breaksOff_connectiveBy recognises breaks

theorem breaksOff_taggedBy :
    BreaksOff levels (levels + 1) (taggedBy operand) (Allowed (levels + 1)) := by
  refine BreaksOff.mono (.bind (fun tag back => Allowed (levels + 1) (tag.byte :: back))
    recognises_tag (breaksOff_part .tag trivial ?_) ?_) (Nat.le_refl _) ?_
  · exact ⟨[ExprTag.constant.byte], List.cons_ne_nil _ _, .constant, [0], rfl, _,
      readable_leaf (Nat.succ_pos levels)⟩
  · rintro tag _ rfl
    exact breaksOff_contentBy recognises breaks tag
  · rintro whole ⟨tag, _, back, rfl, allowed, rfl⟩
    exact ⟨[], by rwa [List.append_nil]⟩

end Operand

/-- **Where an expression breaks off**, at whatever depth. -/
theorem breaksOff_nestedWithin (levels : Nat) :
    BreaksOff levels levels (nestedWithin levels) (Allowed levels) := by
  induction levels with
  | zero =>
    intro reader _ fault after failed
    cases failed
    exact Or.inl ⟨rfl, Nat.zero_le _⟩
  | succ levels ih => exact (breaksOff_taggedBy (recognises_nestedWithin levels) ih).deeper

theorem breaksOff_nested (levels : Nat) : BreaksOff levels levels nested (Allowed levels) := by
  intro reader open_ fault after failed
  refine breaksOff_nestedWithin levels reader open_ fault after ?_
  rw [← failed, ← open_]
  rfl

end Read

/-! ### Whole streams -/

namespace Expr

open Read (Broken Allowed)

variable {input : List UInt8} {limits : DecodeLimits} {fault : Fault} {part : Operation}
  {start : Nat}

/-- A stream is refused at one of the parts of an expression: the part cannot be read, its fault is
true, and up to the part the stream could have been that of an expression within the limits, for
which it would just have been too short. -/
structure RefusedAt (input : List UInt8) (limits : DecodeLimits) (fault : Fault)
    (part : Operation) (start : Nat) : Prop where
  isPart : part.IsPart
  within : start ≤ input.length
  fails : part.FailsAt (input.drop start) start fault
  holds : ∃ delay, part.Faults delay fault ∧
    fault.TrueAt input (start + delay) fault.diagnostic
  continues : ∃ back expr, back ≠ [] ∧ decode (input.take start ++ back) limits = .ok expr
  cut : ∃ cutFault, decode (input.take start) limits = .error cutFault ∧
    cutFault.notice.code = "WIRE_001"

theorem refusedAt_of_broken (broken : Broken (Allowed limits.maxDepth)
    { rest := input, limits := limits } fault part start) :
    RefusedAt input limits fault part start := by
  have fails : part.FailsAt (input.drop start) (0 + start) fault := broken.fails
  have holds : ∃ delay, part.Faults delay fault ∧
      fault.TrueAt input (0 + start + delay) fault.diagnostic :=
    broken.holds (Reader.Over.start input limits)
  rw [Nat.zero_add] at fails holds
  obtain ⟨back, nonempty, expr, readable⟩ := broken.begun
  have cut : input.take start ≠ input.take start ++ back :=
    fun same => nonempty (List.self_eq_append_right.mp same)
  obtain ⟨field, needed, remaining, short⟩ := Read.composed_nested.whole_of_cut
    (Read.recognises_nested limits.maxDepth) readable (List.prefix_append _ back) cut
  exact {
    isPart := broken.isPart
    within := broken.within
    fails := fails
    holds := holds
    continues := ⟨back, expr, nonempty,
      decode_ok_iff.mpr ⟨_, readable, List.prefix_refl _, Or.inr rfl⟩⟩
    cut := ⟨_, short, rfl⟩ }

/-- **What a decoder says of a stream that it refuses is so.** Either the limit that its diagnostic
quotes is the one it was given, or the diagnostic counts the bytes behind an expression where none
may follow, or it is about a part at which the stream is refused, and what it says of that is true.
-/
theorem decode_refused (input : List UInt8) (limits : DecodeLimits) (fault : Fault)
    (failed : decode input limits = .error fault) :
    (fault = .wire (.nestingTooDeep limits.maxDepth) ∧
      fault.diagnostic.Tells "WIRE_005"
        ("Expression nesting exceeds the configured maximum depth of " ++
          toString limits.maxDepth)) ∨
    (∃ count, fault = .wire (.trailingBytes count) ∧
      fault.diagnostic.Tells "WIRE_006"
        (toString count ++ " unexpected trailing byte(s) after the encoded expression") ∧
      0 < count ∧ count ≤ input.length ∧ limits.allowTrailing = false ∧
      ∃ expr, decode (input.take (input.length - count)) limits = .ok expr) ∨
    ∃ part start, RefusedAt input limits fault part start := by
  rcases Read.whole_error_cases failed with ⟨after, run⟩ | ⟨expr, after, run, closed, left, rfl⟩
  · rcases Read.breaksOff_nested limits.maxDepth _ rfl _ _ run with
      ⟨rfl, -⟩ | ⟨part, count, broken⟩
    · exact Or.inl ⟨rfl, Fault.tells _⟩
    · exact Or.inr (Or.inr ⟨part, count, refusedAt_of_broken broken⟩)
  · obtain ⟨front, readable, ⟨behind, rfl⟩, rfl⟩ :=
      (Read.recognises_nested limits.maxDepth _ rfl expr after).mp run
    have behind_eq : (front ++ behind).drop front.length = behind := List.drop_left
    have front_eq :
        (front ++ behind).take ((front ++ behind).length - behind.length) = front := by
      rw [List.length_append, Nat.add_sub_cancel, List.take_left]
    simp only [Reader.remaining, Reader.isEmpty, Reader.advance, behind_eq] at left ⊢
    refine Or.inr (Or.inl ⟨behind.length, rfl, Fault.tells _, ?_, ?_, closed, expr, ?_⟩)
    · exact List.length_pos_iff.mpr (List.isEmpty_eq_false_iff.mp left)
    · rw [List.length_append]
      exact Nat.le_add_left _ _
    · rw [front_eq]
      exact decode_ok_iff.mpr ⟨front, readable, List.prefix_refl front, Or.inr rfl⟩

/-- A boolean that is none, in the right operand of a conjunction: the part at fault is the content
of the constant, and the byte is one further on. -/
theorem decode_refused_boolean :
    let input : List UInt8 := [4, 1, 1, 1, 1, 1, 7, 0]
    let fault : Fault := .wire (.invalidBoolean 7 6)
    decode input {} = .error fault ∧
      fault.diagnostic.Tells "WIRE_002"
        "Invalid boolean byte 0x07 at offset 6, expected 0x00 or 0x01" ∧
      ∃ part start, RefusedAt input {} fault part start ∧
        ∃ delay, part.Faults delay fault ∧ start + delay = 6 := by
  intro input fault
  have failed : decode input {} = .error fault := rfl
  rcases decode_refused input {} fault failed with
    ⟨impossible, -⟩ | ⟨count, impossible, -⟩ | ⟨part, start, refused⟩
  · exact nomatch (show Fault.wire (.invalidBoolean 7 6) = _ from impossible)
  · exact nomatch (show Fault.wire (.invalidBoolean 7 6) = _ from impossible)
  · obtain ⟨delay, among, holds⟩ := refused.holds
    have placed : fault.diagnostic.Tells "WIRE_002" ("Invalid boolean byte " ++ hexadecimal 7 ++
        " at offset " ++ toString 6 ++ ", expected 0x00 or 0x01") ∧ start + delay = 6 := by
      change Fault.TrueAt input (start + delay) fault.diagnostic (.wire (.invalidBoolean 7 6))
        at holds
      generalize start + delay = place at holds ⊢
      cases holds with
      | invalidBoolean tells => exact ⟨tells, rfl⟩
    exact ⟨failed, placed.1, part, start, refused, delay, among, placed.2⟩

end Expr

end RowLogic
