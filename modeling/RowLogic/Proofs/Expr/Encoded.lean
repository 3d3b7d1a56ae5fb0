/-
**Encodings and spellings.**

An expression without probes whose texts fit their length prefixes has an encoding
(`exists_encode`), and the encoding spells it (`spells_of_encode`). The other spellings are as long
and differ from it in the sign of zeros alone: they settle to it at the places of its floating-point
constants (`spells_iff`).
-/

import RowLogic.Proofs.Expr.Grammar
import RowLogic.Proofs.Wire.Zeros

namespace RowLogic

theorem Emission.result_ofTag_append_iff {tag : ExprTag} {content : Emission}
    {bytes : List UInt8} :
    (ofTag tag ++ content).result = .ok bytes ↔
      ∃ payload, content.result = .ok payload ∧ bytes = tag.byte :: payload := by
  rw [result_append_iff]
  refine ⟨?_, fun ⟨payload, written, same⟩ => ⟨_, payload, rfl, written, same⟩⟩
  intro given
  obtain ⟨_, payload, front, written, rfl⟩ := given
  cases front
  exact ⟨payload, written, rfl⟩

namespace Expr

variable {bytes : List UInt8}

/-! ### Encodings, taken apart -/

theorem encode_constant_iff {value : Value} :
    (constant value).encode = .ok bytes ↔
      ∃ payload, (Emission.ofValue value).result = .ok payload ∧
        bytes = ExprTag.constant.byte :: payload :=
  Emission.result_ofTag_append_iff

theorem encode_column_iff {index : UInt32} {type : DataType} :
    (column index type).encode = .ok bytes ↔
      ∃ payload, (Emission.ofUInt32 index ++ Emission.ofDataType type).result = .ok payload ∧
        bytes = ExprTag.column.byte :: payload :=
  Emission.result_ofTag_append_iff

theorem encode_parameter_iff {index : UInt32} {type : DataType} :
    (parameter index type).encode = .ok bytes ↔
      ∃ payload, (Emission.ofUInt32 index ++ Emission.ofDataType type).result = .ok payload ∧
        bytes = ExprTag.parameter.byte :: payload :=
  Emission.result_ofTag_append_iff

theorem encode_connective_iff {left right : Expr} {kind : Connective}
    {leftChecked rightChecked : Bool} :
    (connective left right kind leftChecked rightChecked).encode = .ok bytes ↔
      ∃ front back, left.encode = .ok front ∧ right.encode = .ok back ∧
        bytes = ExprTag.connective.byte :: (front ++ (back ++ [if kind.isOr then 1 else 0])) := by
  unfold encode
  rw [Emission.ofExpr, Emission.result_ofTag_append_iff]
  simp only [Emission.result_append_iff, Emission.ofConnective, Emission.result_ofBool_iff]
  refine ⟨?_, ?_⟩
  · intro given
    obtain ⟨_, ⟨front, _, left_written, ⟨back, _, right_written, rfl, rfl⟩, rfl⟩, rfl⟩ := given
    exact ⟨front, back, left_written, right_written, rfl⟩
  · intro given
    obtain ⟨front, back, left_written, right_written, rfl⟩ := given
    exact ⟨_, ⟨front, _, left_written, ⟨back, _, right_written, rfl, rfl⟩, rfl⟩, rfl⟩

/-- A text needs a length that four bytes hold; every other expression without probes can be
encoded as it is. -/
theorem exists_encode {expr : Expr} (probeFree : expr.ProbeFree) (fits : expr.TextsFit) :
    ∃ bytes, expr.encode = .ok bytes := by
  induction expr with
  | constant value =>
    have value_fits : value.Fits := by cases value <;> exact fits
    obtain ⟨payload, written⟩ := Value.exists_write value_fits
    exact ⟨_, encode_constant_iff.mpr ⟨payload, written, rfl⟩⟩
  | column index type => exact ⟨_, rfl⟩
  | parameter index type => exact ⟨_, rfl⟩
  | probe leaf => exact absurd probeFree id
  | connective left right kind _ _ left_ih right_ih =>
    obtain ⟨front, left_written⟩ := left_ih probeFree.1 fits.1
    obtain ⟨back, right_written⟩ := right_ih probeFree.2 fits.2
    exact ⟨_, encode_connective_iff.mpr ⟨front, back, left_written, right_written, rfl⟩⟩

/-- **An encoding is a spelling.** -/
theorem spells_of_encode {expr : Expr} (encoded : expr.encode = .ok bytes) : expr.Spells bytes := by
  induction expr generalizing bytes with
  | constant value =>
    obtain ⟨payload, written, rfl⟩ := encode_constant_iff.mp encoded
    exact .constant (Value.spells_of_result written)
  | column index type =>
    obtain ⟨payload, written, rfl⟩ := encode_column_iff.mp encoded
    exact .column written
  | parameter index type =>
    obtain ⟨payload, written, rfl⟩ := encode_parameter_iff.mp encoded
    exact .parameter written
  | probe leaf => cases encoded
  | connective left right kind _ _ left_ih right_ih =>
    obtain ⟨front, back, left_written, right_written, rfl⟩ := encode_connective_iff.mp encoded
    exact .connective (left_ih left_written) (right_ih right_written)

/-! ### Spellings that settle -/

/-- Where the bits of floating-point constants stand in the encoding. -/
def floatOffsets : Expr → List Nat
  | constant value => value.floatOffsets.map (1 + ·)
  | connective left right .. =>
    (left.floatOffsets ++ right.floatOffsets.map ((Emission.ofExpr left).bytes.length + ·)).map
      (1 + ·)
  | _ => []

theorem bytes_of_encode {expr : Expr} (encoded : expr.encode = .ok bytes) :
    (Emission.ofExpr expr).bytes = bytes :=
  (Emission.result_eq_ok_iff.mp encoded).2

theorem floatOffsets_within {expr : Expr} (encoded : expr.encode = .ok bytes) :
    ∀ offset ∈ expr.floatOffsets, offset + 8 ≤ bytes.length := by
  induction expr generalizing bytes with
  | constant value =>
    obtain ⟨payload, written, rfl⟩ := encode_constant_iff.mp encoded
    intro offset member
    obtain ⟨inner, member', rfl⟩ := List.mem_map.mp member
    have within := Value.floatOffsets_within written inner member'
    rw [List.length_cons]
    omega
  | connective left right kind _ _ left_ih right_ih =>
    obtain ⟨front, back, left_written, right_written, rfl⟩ := encode_connective_iff.mp encoded
    intro offset member
    obtain ⟨inner, member', rfl⟩ := List.mem_map.mp member
    rw [List.length_cons, List.length_append, List.length_append]
    rcases List.mem_append.mp member' with in_left | in_right
    · have within := left_ih left_written inner in_left
      omega
    · obtain ⟨deep, member'', rfl⟩ := List.mem_map.mp in_right
      have within := right_ih right_written deep member''
      rw [bytes_of_encode left_written]
      omega
  | _ => exact fun offset member => nomatch member

/-- What has a spelling has an encoding. -/
theorem exists_of_spells {expr : Expr} (spelled : expr.Spells bytes) :
    ∃ encoded, expr.encode = .ok encoded := by
  induction spelled with
  | constant spelled =>
    obtain ⟨payload, written⟩ := Value.exists_of_spells spelled
    exact ⟨_, encode_constant_iff.mpr ⟨payload, written, rfl⟩⟩
  | column spelled => exact ⟨_, encode_column_iff.mpr ⟨_, spelled, rfl⟩⟩
  | parameter spelled => exact ⟨_, encode_parameter_iff.mpr ⟨_, spelled, rfl⟩⟩
  | connective _ _ left_ih right_ih =>
    obtain ⟨front, left_written⟩ := left_ih
    obtain ⟨back, right_written⟩ := right_ih
    exact ⟨_, encode_connective_iff.mpr ⟨front, back, left_written, right_written, rfl⟩⟩

/-- The operands of a connective settle by themselves. -/
theorem settles_connective_iff {left right : Expr} {kind : Connective}
    {leftChecked rightChecked : Bool} {front back : List UInt8}
    (left_written : left.encode = .ok front) (right_written : right.encode = .ok back) :
    Settles (connective left right kind leftChecked rightChecked).floatOffsets bytes
        (ExprTag.connective.byte :: (front ++ (back ++ [if kind.isOr then 1 else 0]))) ↔
      ∃ front' back', Settles left.floatOffsets front' front ∧
        Settles right.floatOffsets back' back ∧
        bytes = ExprTag.connective.byte :: (front' ++ (back' ++ [if kind.isOr then 1 else 0])) := by
  rw [floatOffsets, settles_cons_iff, bytes_of_encode left_written]
  simp only [settles_append_iff (floatOffsets_within left_written),
    settles_append_tail_iff (floatOffsets_within right_written)]
  refine ⟨?_, ?_⟩
  · intro given
    obtain ⟨_, rfl, front', _, rfl, left_settled, back', rfl, right_settled⟩ := given
    exact ⟨front', back', left_settled, right_settled, rfl⟩
  · intro given
    obtain ⟨front', back', left_settled, right_settled, rfl⟩ := given
    exact ⟨_, rfl, front', _, rfl, left_settled, back', rfl, right_settled⟩

/-- **A stream spells an expression** when it settles to its encoding. -/
theorem spells_iff {expr : Expr} {encoded : List UInt8} (complete : expr.encode = .ok encoded) :
    expr.Spells bytes ↔ Settles expr.floatOffsets bytes encoded := by
  induction expr generalizing bytes encoded with
  | constant value =>
    obtain ⟨payload, written, rfl⟩ := encode_constant_iff.mp complete
    rw [floatOffsets, settles_cons_iff]
    simp only [← Value.spells_iff written]
    refine ⟨fun spelled => ?_, ?_⟩
    · cases spelled with
      | constant spelled' => exact ⟨_, rfl, spelled'⟩
    · intro given
      obtain ⟨payload', rfl, spelled⟩ := given
      exact .constant spelled
  | column index type =>
    obtain ⟨payload, written, rfl⟩ := encode_column_iff.mp complete
    show _ ↔ Settles [] bytes _
    rw [settles_nil_iff]
    refine ⟨fun spelled => ?_, ?_⟩
    · cases spelled with
      | column spelled' => rw [Except.ok.inj (written.symm.trans spelled')]
    · rintro rfl
      exact .column written
  | parameter index type =>
    obtain ⟨payload, written, rfl⟩ := encode_parameter_iff.mp complete
    show _ ↔ Settles [] bytes _
    rw [settles_nil_iff]
    refine ⟨fun spelled => ?_, ?_⟩
    · cases spelled with
      | parameter spelled' => rw [Except.ok.inj (written.symm.trans spelled')]
    · rintro rfl
      exact .parameter written
  | probe leaf => cases complete
  | connective left right kind _ _ left_ih right_ih =>
    obtain ⟨front, back, left_written, right_written, rfl⟩ := encode_connective_iff.mp complete
    rw [spells_connective_iff, settles_connective_iff left_written right_written]
    simp only [left_ih left_written, right_ih right_written]

end Expr

end RowLogic
