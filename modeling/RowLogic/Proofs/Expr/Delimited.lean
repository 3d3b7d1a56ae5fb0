/-
**Expressions delimit themselves.**

Where an expression ends is decided by its own bytes. So every stream that is cut short is refused
for missing bytes, what follows an expression changes nothing but whether it may follow, and a
stream that is refused for something within it is refused for the same however it goes on
(`decode_self_delimiting`).
-/

import RowLogic.Proofs.Expr.Grammar
import RowLogic.Proofs.Wire.Composition

namespace RowLogic

/-! ### The reads of expressions -/

namespace Read

theorem composed_tag : Composed tag := by
  refine .bind .offset fun start => .bind composed_byte fun byte => ?_
  cases ExprTag.ofByte? byte with
  | some tag => exact .pure tag
  | none => exact .throw _

theorem composed_connectiveKind : Composed connectiveKind :=
  composed_bool.map _

theorem composed_constant : Composed constant :=
  composed_value.map _

theorem composed_column : Composed column :=
  .bind composed_uint32 fun _ => .bind composed_dataType fun _ => .pure _

theorem composed_parameter : Composed parameter :=
  .bind composed_uint32 fun _ => .bind composed_dataType fun _ => .pure _

section

variable {operand : Read Expr}

theorem composed_operandsBy (composed : Composed operand) : Composed (operandsBy operand) :=
  .bind composed fun _ => .bind composed fun _ => .pure _

theorem composed_connectiveBy (composed : Composed operand) : Composed (connectiveBy operand) :=
  .bind (composed_operandsBy composed) fun _ => .bind composed_connectiveKind fun _ => .pure _

theorem composed_contentBy (composed : Composed operand) (tag : ExprTag) :
    Composed (contentBy operand tag) := by
  cases tag with
  | constant => exact composed_constant
  | column => exact composed_column
  | parameter => exact composed_parameter
  | connective => exact composed_connectiveBy composed

theorem composed_taggedBy (composed : Composed operand) : Composed (taggedBy operand) :=
  .bind composed_tag (composed_contentBy composed)

end

theorem composed_nestedWithin (levels : Nat) : Composed (nestedWithin levels) := by
  induction levels with
  | zero => exact .tooDeep
  | succ levels ih => exact .deeper (composed_taggedBy ih)

theorem composed_nested : Composed nested :=
  .byLevels composed_nestedWithin

theorem composed_operands : Composed operands :=
  composed_operandsBy composed_nested

theorem composed_connective : Composed connective :=
  composed_connectiveBy composed_nested

end Read

/-! ### Whole streams -/

namespace Expr

open Read (Readable)

/-- What is decoded where no bytes may follow is read to its last byte. -/
theorem readable_of_decode {bytes : List UInt8} {limits : DecodeLimits} {expr : Expr}
    (decoded : decode bytes { limits with allowTrailing := false } = .ok expr) :
    Readable limits.maxDepth expr bytes := by
  obtain ⟨front, readable, _, ended⟩ := decode_ok_iff.mp decoded
  rcases ended with trailing | rfl
  · cases trailing
  · exact readable

/-- **Expressions delimit themselves.** If a stream is one, then it is refused for missing bytes
wherever it is cut; with more bytes behind, it is read to the same expression where bytes may
follow, and refused for just these bytes where they may not. And a fault that is neither of missing
bytes nor of bytes behind is the fault of every longer stream. -/
theorem decode_self_delimiting (bytes : List UInt8) (limits : DecodeLimits) :
    (∀ expr, decode bytes { limits with allowTrailing := false } = .ok expr →
      (∀ front, front <+: bytes → front ≠ bytes → ∀ allowed, ∃ fault,
        decode front { limits with allowTrailing := allowed } = .error fault ∧
          fault.notice.code = "WIRE_001") ∧
      ∀ more, more ≠ [] →
        decode (bytes ++ more) { limits with allowTrailing := true } = .ok expr ∧
        ∃ fault, decode (bytes ++ more) { limits with allowTrailing := false } = .error fault ∧
          fault = .wire (.trailingBytes more.length) ∧ fault.notice.code = "WIRE_006") ∧
    ∀ fault, decode bytes limits = .error fault → fault.notice.code ≠ "WIRE_001" →
      fault.notice.code ≠ "WIRE_006" → ∀ more, decode (bytes ++ more) limits = .error fault := by
  refine ⟨fun expr decoded => ?_, fun fault failed long inside more => ?_⟩
  · have readable := readable_of_decode decoded
    have recognises := Read.recognises_nested limits.maxDepth
    refine ⟨fun front begins cut allowed => ?_, fun more behind => ⟨?_, ?_⟩⟩
    · obtain ⟨field, needed, remaining, refused⟩ : ∃ field needed remaining,
          decode front { limits with allowTrailing := allowed } =
            .error (.wire (.truncated field needed remaining)) :=
        Read.composed_nested.whole_of_cut recognises readable begins cut
      exact ⟨_, refused, rfl⟩
    · exact decode_ok_iff.mpr ⟨bytes, readable, List.prefix_append _ _, Or.inl rfl⟩
    · have refused : decode (bytes ++ more) { limits with allowTrailing := false } =
          .error (.wire (.trailingBytes more.length)) :=
        Read.Recognises.whole_of_trailing recognises readable behind rfl
      exact ⟨_, refused, rfl, rfl⟩
  · refine Read.composed_nested.whole_error_of_extend failed ?_ ?_ more
    · rintro field needed remaining rfl
      exact long rfl
    · rintro count rfl
      exact inside rfl

/-- A conjunction cut within the text of its left operand, and with a byte behind it; and a stream
whose first operand has no kind. -/
theorem decode_self_delimiting_conjunction :
    let bytes : List UInt8 := [4, 1, 5, 2, 0, 0, 0, 0x68, 0x69, 2, 3, 0, 0, 0, 1, 0]
    let expr := combine .and (constant (.utf8 "hi")) (column 3 .boolean)
    (decode bytes {} = .ok expr ∧
      decode [4, 9] {} = .error (.unknownExpressionTag 9 1)) ∧
    (∃ fault, decode (bytes.take 8) {} = .error fault ∧ fault.notice.code = "WIRE_001") ∧
    (∃ fault, decode (bytes ++ [7]) {} = .error fault ∧ fault = .wire (.trailingBytes 1)) ∧
    decode ([4, 9] ++ bytes) {} = .error (.unknownExpressionTag 9 1) := by
  intro bytes expr
  have decoded : decode bytes {} = .ok expr := rfl
  have failed : decode [4, 9] {} = .error (.unknownExpressionTag 9 1) := rfl
  obtain ⟨short, long⟩ := (decode_self_delimiting bytes {}).1 expr decoded
  obtain ⟨-, fault, refused, trailing, -⟩ := long [7] (by decide)
  refine ⟨⟨decoded, failed⟩, short (bytes.take 8) (List.take_prefix 8 bytes) (by decide) false,
    ⟨fault, refused, trailing⟩, ?_⟩
  exact (decode_self_delimiting [4, 9] {}).2 _ failed (by decide) (by decide) bytes

end Expr

end RowLogic
