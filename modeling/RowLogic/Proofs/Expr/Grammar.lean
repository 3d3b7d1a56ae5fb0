/-
**The grammar of encoded expressions.**

`Expr.Spells` gives the byte strings that stand for an expression. They are its encoding, except
that a zero among its floating-point constants may have either sign (`Value.Spells`); marks play no
part.

* `Expr.decode_ok_iff`: what is decoded are the spellings of the unmarked expressions that are not
  deeper than the limit, and nothing else;
* `Expr.decode_too_deep`: a spelling of a deeper expression, with anything behind it, is refused
  because of its depth.
-/

import RowLogic.Expr.Decoding
import RowLogic.Proofs.Expr.Shape
import RowLogic.Proofs.Wire.Fields

namespace RowLogic

theorem ExprTag.byte_injective {first second : ExprTag} (same : first.byte = second.byte) :
    first = second := by
  have known := ExprTag.ofByte?_byte first
  rw [same, ExprTag.ofByte?_byte] at known
  exact (Option.some.inj known).symm

namespace Expr

/-- The kind of an expression that has an encoding. -/
def tag? : Expr → Option ExprTag
  | constant _ => some .constant
  | column .. => some .column
  | parameter .. => some .parameter
  | probe _ => none
  | connective .. => some .connective

/-- The byte strings that stand for an expression. -/
inductive Spells : Expr → List UInt8 → Prop where
  | constant {value : Value} {payload : List UInt8} (spelled : value.Spells payload) :
    Spells (.constant value) (ExprTag.constant.byte :: payload)
  | column {index : UInt32} {type : DataType} {payload : List UInt8}
    (spelled : (Emission.ofUInt32 index ++ Emission.ofDataType type).result = .ok payload) :
    Spells (.column index type) (ExprTag.column.byte :: payload)
  | parameter {index : UInt32} {type : DataType} {payload : List UInt8}
    (spelled : (Emission.ofUInt32 index ++ Emission.ofDataType type).result = .ok payload) :
    Spells (.parameter index type) (ExprTag.parameter.byte :: payload)
  | connective {left right : Expr} {kind : Connective} {leftChecked rightChecked : Bool}
    {front back : List UInt8} (left_spelled : Spells left front)
    (right_spelled : Spells right back) :
    Spells (.connective left right kind leftChecked rightChecked)
      (ExprTag.connective.byte :: (front ++ (back ++ [if kind.isOr then 1 else 0])))

theorem Spells.exists_tag {expr : Expr} {bytes : List UInt8} (spelled : expr.Spells bytes) :
    ∃ tag payload, bytes = ExprTag.byte tag :: payload := by
  cases spelled <;> exact ⟨_, _, rfl⟩

theorem Spells.tag?_eq {expr : Expr} {tag : ExprTag} {payload : List UInt8}
    (spelled : expr.Spells (tag.byte :: payload)) : expr.tag? = some tag := by
  generalize same : tag.byte :: payload = bytes at spelled
  cases spelled <;> exact congrArg some (ExprTag.byte_injective (List.cons.inj same).1.symm)

theorem Spells.copy {expr : Expr} {bytes : List UInt8} (spelled : expr.Spells bytes) :
    expr.copy.Spells bytes := by
  induction spelled with
  | constant spelled => exact .constant spelled
  | column spelled => exact .column spelled
  | parameter spelled => exact .parameter spelled
  | connective _ _ left_ih right_ih => exact .connective left_ih right_ih

theorem spells_connective_iff {left right : Expr} {kind : Connective}
    {leftChecked rightChecked : Bool} {bytes : List UInt8} :
    (connective left right kind leftChecked rightChecked).Spells bytes ↔
      ∃ front back, left.Spells front ∧ right.Spells back ∧
        bytes = ExprTag.connective.byte :: (front ++ (back ++ [if kind.isOr then 1 else 0])) := by
  refine ⟨?_, ?_⟩
  · intro spelled
    cases spelled with
    | connective left_spelled right_spelled => exact ⟨_, _, left_spelled, right_spelled, rfl⟩
  · intro given
    obtain ⟨front, back, left_spelled, right_spelled, rfl⟩ := given
    exact .connective left_spelled right_spelled

end Expr

namespace Read

variable {levels : Nat}

/-! ### The parts of an expression -/

theorem recognises_tag :
    Recognises levels tag fun tag bytes => bytes = [tag.byte] := by
  refine (Recognises.fromOffset fun start => recognises_byte.bind fun byte =>
    recognises_checked (ExprTag.ofByte? byte) (fun tag known => by rw [known])
      (fun unknown => ⟨.unknownExpressionTag byte start, by rw [unknown]⟩)).congr
    fun tag bytes => ?_
  refine ⟨?_, fun spelled => ⟨tag.byte, bytes, [], by rw [spelled]; rfl,
    ⟨ExprTag.ofByte?_byte tag, rfl⟩, (List.append_nil bytes).symm⟩⟩
  intro given
  obtain ⟨byte, _, _, front, ⟨known, rfl⟩, rfl⟩ := given
  cases front
  rw [ExprTag.byte_of_ofByte? known]
  rfl

theorem recognises_connectiveKind :
    Recognises levels connectiveKind fun kind bytes => bytes = [if kind.isOr then 1 else 0] := by
  refine (recognises_bool.map Connective.ofFlag).congr fun kind bytes => ?_
  simp only [Emission.result_ofBool_iff]
  refine ⟨?_, fun spelled => ⟨kind.isOr, spelled, Connective.ofFlag_isOr kind⟩⟩
  intro given
  obtain ⟨flag, rfl, rfl⟩ := given
  rw [Connective.isOr_ofFlag]

theorem recognises_constant :
    Recognises levels constant fun expr bytes =>
      ∃ value, value.Spells bytes ∧ .constant value = expr :=
  recognises_value.map Expr.constant

/-- The content of a column or of a parameter: a position and a type. -/
theorem recognises_positional (make : UInt32 → DataType → Expr) :
    Recognises levels (do let index ← uint32; let type ← dataType; pure (make index type))
      fun expr bytes => ∃ index type,
        (Emission.ofUInt32 index ++ Emission.ofDataType type).result = .ok bytes ∧
          make index type = expr := by
  refine (recognises_uint32.bind fun index => recognises_dataType.bind fun type =>
    Recognises.pure (make index type)).congr fun expr bytes => ?_
  simp only [Emission.result_append_iff]
  refine ⟨?_, ?_⟩
  · intro given
    obtain ⟨index, front, _, word, ⟨type, back, _, tag, ⟨rfl, rfl⟩, rfl⟩, rfl⟩ := given
    exact ⟨index, type, ⟨front, back, word, tag, by rw [List.append_nil]⟩, rfl⟩
  · intro given
    obtain ⟨index, type, ⟨front, back, word, tag, rfl⟩, rfl⟩ := given
    exact ⟨index, front, back, word, ⟨type, back, [], tag, ⟨rfl, rfl⟩, (List.append_nil back).symm⟩,
      rfl⟩

theorem recognises_operandsBy {operand : Read Expr} {spells : Expr → List UInt8 → Prop}
    (recognises : Recognises levels operand spells) :
    Recognises levels (operandsBy operand) fun pair bytes => ∃ front back,
      spells pair.1 front ∧ spells pair.2 back ∧ bytes = front ++ back := by
  refine (recognises.bind fun left => recognises.bind fun right =>
    Recognises.pure (left, right)).congr fun pair bytes => ?_
  refine ⟨?_, ?_⟩
  · intro given
    obtain ⟨left, front, _, left_spelled, others, rfl⟩ := given
    obtain ⟨right, back, _, right_spelled, ⟨rfl, rfl⟩, rfl⟩ := others
    exact ⟨front, back, left_spelled, right_spelled, by rw [List.append_nil]⟩
  · intro given
    obtain ⟨front, back, left_spelled, right_spelled, rfl⟩ := given
    exact ⟨pair.1, front, back, left_spelled,
      ⟨pair.2, back, [], right_spelled, ⟨rfl, rfl⟩, (List.append_nil back).symm⟩, rfl⟩

theorem recognises_connectiveBy {operand : Read Expr} {spells : Expr → List UInt8 → Prop}
    (recognises : Recognises levels operand spells) :
    Recognises levels (connectiveBy operand) fun expr bytes => ∃ left right kind front back,
      spells left front ∧ spells right back ∧
        bytes = front ++ (back ++ [if kind.isOr then 1 else 0]) ∧
        .combine kind left right = expr := by
  refine ((recognises_operandsBy recognises).bind fun pair => recognises_connectiveKind.bind
    fun kind => Recognises.pure (Expr.combine kind pair.1 pair.2)).congr fun expr bytes => ?_
  refine ⟨?_, ?_⟩
  · rintro ⟨⟨left, right⟩, _, _, ⟨front, back, left_spelled, right_spelled, rfl⟩,
      ⟨kind, _, _, rfl, ⟨rfl, rfl⟩, rfl⟩, rfl⟩
    exact ⟨left, right, kind, front, back, left_spelled, right_spelled,
      by rw [List.append_nil, List.append_assoc], rfl⟩
  · intro given
    obtain ⟨left, right, kind, front, back, left_spelled, right_spelled, rfl, rfl⟩ := given
    exact ⟨(left, right), front ++ back, _, ⟨front, back, left_spelled, right_spelled, rfl⟩,
      ⟨kind, _, [], rfl, ⟨rfl, rfl⟩, rfl⟩, by rw [List.append_nil, List.append_assoc]⟩

/-! ### Expressions within their depth -/

/-- What a reader takes for an expression where so many levels are open. -/
def Readable (levels : Nat) (expr : Expr) (bytes : List UInt8) : Prop :=
  expr.depth ≤ levels ∧ expr.Unmarked ∧ expr.Spells bytes

theorem recognises_contentBy {operand : Read Expr}
    (recognises : Recognises levels operand (Readable levels)) (tag : ExprTag) :
    Recognises levels (contentBy operand tag) fun expr bytes =>
      Readable (levels + 1) expr (tag.byte :: bytes) := by
  have leaf_fits : 1 ≤ levels + 1 := Nat.le_add_left 1 levels
  cases tag with
  | constant =>
    refine recognises_constant.congr fun expr bytes => ⟨?_, ?_⟩
    · intro given
      obtain ⟨value, spelled, rfl⟩ := given
      exact ⟨leaf_fits, trivial, .constant spelled⟩
    · intro given
      obtain ⟨_, _, spelled⟩ := given
      cases expr <;> cases spelled.tag?_eq
      cases spelled with
      | constant spelled' => exact ⟨_, spelled', rfl⟩
  | column =>
    refine (recognises_positional Expr.column).congr fun expr bytes => ⟨?_, ?_⟩
    · intro given
      obtain ⟨index, type, spelled, rfl⟩ := given
      exact ⟨leaf_fits, trivial, .column spelled⟩
    · intro given
      obtain ⟨_, _, spelled⟩ := given
      cases expr <;> cases spelled.tag?_eq
      cases spelled with
      | column spelled' => exact ⟨_, _, spelled', rfl⟩
  | parameter =>
    refine (recognises_positional Expr.parameter).congr fun expr bytes => ⟨?_, ?_⟩
    · intro given
      obtain ⟨index, type, spelled, rfl⟩ := given
      exact ⟨leaf_fits, trivial, .parameter spelled⟩
    · intro given
      obtain ⟨_, _, spelled⟩ := given
      cases expr <;> cases spelled.tag?_eq
      cases spelled with
      | parameter spelled' => exact ⟨_, _, spelled', rfl⟩
  | connective =>
    refine (recognises_connectiveBy recognises).congr fun expr bytes => ⟨?_, ?_⟩
    · rintro ⟨left, right, kind, front, back, ⟨left_fits, left_unmarked, left_spelled⟩,
        ⟨right_fits, right_unmarked, right_spelled⟩, rfl, rfl⟩
      exact ⟨Nat.succ_le_succ (Nat.max_le.mpr ⟨left_fits, right_fits⟩),
        ⟨left_unmarked, right_unmarked, rfl, rfl⟩, .connective left_spelled right_spelled⟩
    · intro given
      obtain ⟨fits, unmarked, spelled⟩ := given
      cases expr <;> cases spelled.tag?_eq
      obtain ⟨left_unmarked, right_unmarked, rfl, rfl⟩ := unmarked
      obtain ⟨front, back, left_spelled, right_spelled, same⟩ :=
        Expr.spells_connective_iff.mp spelled
      obtain rfl := (List.cons.inj same).2
      obtain ⟨left_fits, right_fits⟩ := Nat.max_le.mp (Nat.le_of_succ_le_succ fits)
      exact ⟨_, _, _, front, back, ⟨left_fits, left_unmarked, left_spelled⟩,
        ⟨right_fits, right_unmarked, right_spelled⟩, rfl, rfl⟩

theorem recognises_taggedBy {operand : Read Expr}
    (recognises : Recognises levels operand (Readable levels)) :
    Recognises levels (taggedBy operand) (Readable (levels + 1)) := by
  refine (recognises_tag.bind (recognises_contentBy recognises)).congr fun expr bytes => ⟨?_, ?_⟩
  · intro given
    obtain ⟨tag, _, payload, rfl, readable, rfl⟩ := given
    exact readable
  · intro readable
    obtain ⟨tag, payload, rfl⟩ := readable.2.2.exists_tag
    exact ⟨tag, [tag.byte], payload, rfl, readable, rfl⟩

/-- **A reader takes the spellings of the expressions that its open levels allow**, and gives the
expression without marks. -/
theorem recognises_nestedWithin (levels : Nat) :
    Recognises levels (nestedWithin levels) (Readable levels) := by
  induction levels with
  | zero =>
    intro reader _ expr after
    refine ⟨(fun run => nomatch run), ?_⟩
    intro given
    obtain ⟨bytes, ⟨fits, _⟩, _⟩ := given
    exact absurd fits (Nat.not_le_of_lt expr.depth_pos)
  | succ levels ih => exact (recognises_taggedBy ih).deeper

theorem recognises_nested (levels : Nat) : Recognises levels nested (Readable levels) := by
  intro reader open_ expr after
  rw [← recognises_nestedWithin levels reader open_ expr after, ← open_]
  rfl

/-- A fault of the operands is a fault of the connective. -/
theorem taggedBy_error {operand : Read Expr} {reader after : Reader} {fault : Fault}
    (first : [ExprTag.connective.byte] <+: reader.rest)
    (fails : operandsBy operand (reader.advance 1) = .error fault after) :
    taggedBy operand reader = .error fault after := by
  have tag_run : tag reader = .ok .connective (reader.advance 1) :=
    (recognises_tag reader rfl .connective _).mpr ⟨_, rfl, first, rfl⟩
  unfold taggedBy
  rw [bind_ok tag_run]
  exact bind_error fails

/-- **An expression that is too deep** is refused for it, whatever follows its spelling. -/
theorem nestedWithin_too_deep {expr : Expr} {bytes : List UInt8} (spelled : expr.Spells bytes)
    (deep : levels < expr.depth) (reader : Reader) (open_ : reader.levels = levels)
    (first : bytes <+: reader.rest) :
    ∃ after, nestedWithin levels reader =
      .error (.wire (.nestingTooDeep reader.limits.maxDepth)) after := by
  induction levels generalizing expr bytes reader with
  | zero => exact ⟨reader, rfl⟩
  | succ levels ih =>
    cases spelled with
    | constant _ | column _ | parameter _ =>
      exact absurd deep (Nat.not_lt_of_le (Nat.succ_le_succ (Nat.zero_le levels)))
    | @connective left right kind _ _ front back left_spelled right_spelled =>
      have room : reader.depth < reader.limits.maxDepth := by
        unfold Reader.levels at open_
        omega
      have inside_open : reader.inside.levels = levels := by
        rw [Reader.levels_inside, open_, Nat.add_sub_cancel]
      have deeper_operand : levels < max left.depth right.depth := Nat.lt_of_succ_lt_succ deep
      rw [← List.singleton_append, append_prefix_iff] at first
      obtain ⟨tag_first, operands_first⟩ := first
      rw [append_prefix_iff] at operands_first
      obtain ⟨left_first, right_first⟩ := operands_first
      -- the fault comes from the left operand if that one is too deep, and else from the right one
      suffices fails : ∃ after, operandsBy (nestedWithin levels) (reader.inside.advance 1) =
          .error (.wire (.nestingTooDeep reader.limits.maxDepth)) after by
        obtain ⟨after, fails⟩ := fails
        exact ⟨after.leave, deeper_error room (taggedBy_error tag_first fails)⟩
      by_cases left_deep : levels < left.depth
      · obtain ⟨after, fails⟩ := ih left_spelled left_deep (reader.inside.advance 1) inside_open
          left_first
        exact ⟨after, bind_error fails⟩
      · have right_deep : levels < right.depth := by omega
        have left_run := (recognises_nestedWithin levels (reader.inside.advance 1) inside_open
          left.copy _).mpr ⟨front, ⟨by rw [Expr.depth_copy]; omega, Expr.unmarked_copy left,
            left_spelled.copy⟩, left_first, rfl⟩
        obtain ⟨after, fails⟩ := ih right_spelled right_deep
          ((reader.inside.advance 1).advance front.length) inside_open
          ((List.prefix_append back _).trans right_first)
        refine ⟨after, ?_⟩
        unfold operandsBy
        rw [bind_ok left_run]
        exact bind_error fails

end Read

/-! ### Whole streams -/

namespace Expr

open Read (Readable)

/-- **The expressions that are decoded**, and from which streams. -/
theorem decode_ok_iff {expr : Expr} {bytes : List UInt8} {limits : DecodeLimits} :
    decode bytes limits = .ok expr ↔
      ∃ front, Readable limits.maxDepth expr front ∧ front <+: bytes ∧
        (limits.allowTrailing = true ∨ front = bytes) :=
  (Read.recognises_nested limits.maxDepth).whole_ok_iff

theorem decode_too_deep {expr : Expr} {front bytes : List UInt8} {limits : DecodeLimits}
    (spelled : expr.Spells front) (first : front <+: bytes) (deep : limits.maxDepth < expr.depth) :
    decode bytes limits = .error (.wire (.nestingTooDeep limits.maxDepth)) := by
  obtain ⟨after, fails⟩ := Read.nestedWithin_too_deep spelled deep
    { rest := bytes, limits := limits } rfl first
  exact Read.whole_error fails

end Expr

end RowLogic
