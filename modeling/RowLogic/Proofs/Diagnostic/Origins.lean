/-
**What a fault is told to be.**

Decoding, leaves, connectives and encoding have codes of their own (`Fault.code_mem`), and the two
questions that are asked of a diagnostic go by them: it is about the encoding if its code is one of
decoding, and about types if its code is one of a connective (`isMalformedEncoding_iff`,
`isTypeMismatch_iff`). So the answers tell what was done when the fault arose (`told_apart`): the
bytes of a stream were read, an operand was refused, or neither.
-/

import RowLogic.Proofs.Evaluation.Faults
import RowLogic.Proofs.Stream.Position

namespace RowLogic

/-! ### Codes -/

namespace Fault

/-- The codes of what is wrong with a stream of bytes. -/
def decodingCodes : List String :=
  ["WIRE_001", "WIRE_002", "WIRE_003", "WIRE_004", "WIRE_005", "WIRE_006", "WIRE_007", "WIRE_008"]

/-- The codes of leaves that have no value. -/
def leafCodes : List String :=
  ["EVAL_001", "EVAL_002", "PROBE_001"]

/-- The codes of operands that are refused. -/
def operandCodes : List String :=
  ["LOGICAL_001", "LOGICAL_002", "LOGICAL_003"]

/-- The codes of what has no encoding. -/
def encodingCodes : List String :=
  ["ENCODE_001", "ENCODE_002"]

/-- All codes. -/
def codes : List String :=
  decodingCodes ++ leafCodes ++ operandCodes ++ encodingCodes

theorem code_mem (fault : Fault) : fault.notice.code ∈ codes := by
  cases fault with
  | wire fault => cases fault <;> exact List.mem_of_elem_eq_true rfl
  | operandNotBoolean side => cases side <;> exact List.mem_of_elem_eq_true rfl
  | _ => exact List.mem_of_elem_eq_true rfl

/-- **A fault is about the encoding** if and only if it is one of decoding. -/
theorem isMalformedEncoding_iff (fault : Fault) :
    fault.diagnostic.isMalformedEncoding = true ↔ fault.notice.code ∈ decodingCodes := by
  have by_code : ∀ code ∈ codes,
      ("WIRE_".toList.isPrefixOf code.toList = true ↔ code ∈ decodingCodes) := by decide
  exact by_code _ fault.code_mem

/-- **A fault is about types** if and only if it is one of a refused operand. -/
theorem isTypeMismatch_iff (fault : Fault) :
    fault.diagnostic.isTypeMismatch = true ↔ fault.notice.code ∈ operandCodes := by
  have by_code : ∀ code ∈ codes,
      ("LOGICAL_".toList.isPrefixOf code.toList = true ↔ code ∈ operandCodes) := by decide
  exact by_code _ fault.code_mem

variable {fault : Fault}

theorem isMalformedEncoding_eq_false (other : fault.notice.code ∉ decodingCodes) :
    fault.diagnostic.isMalformedEncoding = false :=
  Bool.eq_false_iff.mpr fun malformed => other (fault.isMalformedEncoding_iff.mp malformed)

theorem isTypeMismatch_eq_false (other : fault.notice.code ∉ operandCodes) :
    fault.diagnostic.isTypeMismatch = false :=
  Bool.eq_false_iff.mpr fun mismatch => other (fault.isTypeMismatch_iff.mp mismatch)

end Fault

open Fault

variable {fault : Fault}

/-! ### Decoding -/

theorem Read.Truthful.code_mem {α : Type} {body : Read α} {bytes : List UInt8}
    {limits : DecodeLimits} (truthful : Truthful body)
    (failed : whole body bytes limits = .error fault) : fault.notice.code ∈ decodingCodes := by
  rcases whole_error_cases failed with ⟨after, run⟩ | ⟨_, after, _, _, _, rfl⟩
  · rcases truthful bytes _ _ _ (Reader.Over.start bytes limits) run with rfl | ⟨start, holds⟩
    · exact List.mem_of_elem_eq_true rfl
    · have among : ∀ code ∈ ["WIRE_001", "WIRE_002", "WIRE_003", "WIRE_004", "WIRE_007",
        "WIRE_008"], code ∈ decodingCodes := by decide
      exact among _ holds.code_mem
  · exact List.mem_of_elem_eq_true rfl

/-! ### Evaluation -/

theorem Connective.Refuses.code_mem {kind : Connective} {side : Side}
    {checked : Bool} {operand : Evaluated} (refuses : kind.Refuses side checked operand fault) :
    fault.notice.code ∈ operandCodes := by
  cases refuses with
  | undeclared => cases side <;> exact List.mem_of_elem_eq_true rfl
  | mistyped => exact List.mem_of_elem_eq_true rfl

namespace Expr

variable {params : Params} {row : Row} {node : Expr} {earlier : Tallies}

theorem IsLeaf.code_mem (isLeaf : node.IsLeaf)
    (failed : (node.evaluate params row earlier).outcome = .error fault) :
    fault.notice.code ∈ leafCodes := by
  cases node with
  | connective => exact absurd isLeaf id
  | constant value => cases failed
  | column index type =>
    rw [evaluate] at failed
    dsimp only at failed
    split at failed <;> cases failed
    exact List.mem_of_elem_eq_true rfl
  | parameter index type =>
    rw [evaluate] at failed
    dsimp only at failed
    split at failed <;> cases failed
    exact List.mem_of_elem_eq_true rfl
  | probe leaf =>
    rw [evaluate] at failed
    dsimp only at failed
    unfold Probe.outcome at failed
    split at failed <;> cases failed
    exact List.mem_of_elem_eq_true rfl

theorem Complains.code_mem (complains : Complains params row node earlier fault) :
    fault.notice.code ∈ operandCodes := by
  cases complains with
  | ofLeft refuses => exact refuses.code_mem
  | ofRight _ _ refuses => exact refuses.code_mem

end Expr

/-! ### Encoding -/

namespace Emission

theorem fault_append {first second : Emission} (stopped : (first ++ second).fault = some fault) :
    first.fault = some fault ∨ second.fault = some fault := by
  cases before : first.fault with
  | some fault' =>
    rw [append_of_fault before, before] at stopped
    exact Or.inl stopped
  | none =>
    rw [append_of_complete before] at stopped
    exact Or.inr stopped

theorem fault_ofValue {value : Value} (stopped : (ofValue value).fault = some fault) :
    fault.notice.code ∈ encodingCodes := by
  rcases fault_append stopped with impossible | stopped
  · cases impossible
  cases value with
  | utf8 text =>
    rcases fault_append stopped with stopped | impossible
    · unfold ofLength at stopped
      split at stopped <;> cases stopped
      exact List.mem_of_elem_eq_true rfl
    · cases impossible
  | _ => cases stopped

theorem fault_ofExpr {expr : Expr} (stopped : (ofExpr expr).fault = some fault) :
    fault.notice.code ∈ encodingCodes := by
  induction expr with
  | constant value =>
    rcases fault_append stopped with impossible | stopped
    · cases impossible
    · exact fault_ofValue stopped
  | column index type => cases stopped
  | parameter index type => cases stopped
  | probe leaf =>
    cases stopped
    exact List.mem_of_elem_eq_true rfl
  | connective left right kind _ _ left_ih right_ih =>
    rcases fault_append stopped with impossible | stopped
    · cases impossible
    rcases fault_append stopped with stopped | stopped
    · exact left_ih stopped
    rcases fault_append stopped with stopped | impossible
    · exact right_ih stopped
    · cases impossible

end Emission

theorem Expr.code_mem_of_encode {expr : Expr} (failed : expr.encode = .error fault) :
    fault.notice.code ∈ encodingCodes := by
  exact Emission.fault_ofExpr (Emission.result_eq_error_iff.mp failed)

/-! ### Faults told apart -/

/-- **What was done is told by the fault.** What cannot be decoded gives a diagnostic of the
encoding and none of types. An evaluation gives none of the encoding; it gives one of types if and
only if a connective that it came to refused an operand, that is, if the fault is not the one with
which a leaf that it came to had failed. What cannot be encoded gives neither. -/
theorem Fault.told_apart :
    (∀ bytes limits fault, (Expr.decode bytes limits = .error fault ∨
        ∃ operation : Operation, operation.Reads ∧
          Read.whole operation.body bytes limits = .error fault) →
      fault.notice.code ∈ decodingCodes ∧ fault.diagnostic.isMalformedEncoding = true ∧
        fault.diagnostic.isTypeMismatch = false) ∧
    (∀ (expr : Expr) params row tallies fault,
      (expr.evaluate params row tallies).outcome = .error fault →
      fault.diagnostic.isMalformedEncoding = false ∧
      (fault.diagnostic.isTypeMismatch = true ↔
        ∃ node earlier, Expr.Involves params row expr tallies node earlier ∧
          Expr.Complains params row node earlier fault) ∧
      (fault.diagnostic.isTypeMismatch = true ↔
        ¬∃ leaf earlier, Expr.Involves params row expr tallies leaf earlier ∧ leaf.IsLeaf ∧
          (leaf.evaluate params row earlier).outcome = .error fault ∧
          fault.notice.code ∈ leafCodes)) ∧
    ∀ (expr : Expr) fault, expr.encode = .error fault →
      fault.diagnostic.isMalformedEncoding = false ∧ fault.diagnostic.isTypeMismatch = false := by
  have apart : (∀ code ∈ decodingCodes, code ∉ operandCodes) ∧
      (∀ code ∈ leafCodes, code ∉ decodingCodes ∧ code ∉ operandCodes) ∧
      (∀ code ∈ operandCodes, code ∉ decodingCodes) ∧
      ∀ code ∈ encodingCodes, code ∉ decodingCodes ∧ code ∉ operandCodes := by decide
  obtain ⟨decoding_apart, leaf_apart, operand_apart, encoding_apart⟩ := apart
  refine ⟨?decoding, ?evaluation, ?encoding⟩
  case decoding =>
    intro bytes limits fault failed
    have code : fault.notice.code ∈ decodingCodes := by
      rcases failed with failed | ⟨operation, reads, failed⟩
      · exact Read.truthful_nested.code_mem failed
      · exact (Operation.truthful reads).code_mem failed
    exact ⟨code, fault.isMalformedEncoding_iff.mpr code,
      isTypeMismatch_eq_false (decoding_apart _ code)⟩
  case evaluation =>
    intro expr params row tallies fault failed
    rcases Expr.evaluate_error_iff.mp failed with
      ⟨leaf, earlier, inside, isLeaf, leaf_failed⟩ | ⟨node, earlier, inside, complains⟩
    · have code : fault.notice.code ∈ leafCodes := isLeaf.code_mem leaf_failed
      obtain ⟨not_decoding, not_operand⟩ := leaf_apart _ code
      have sound : ¬fault.diagnostic.isTypeMismatch = true :=
        fun mismatch => not_operand (fault.isTypeMismatch_iff.mp mismatch)
      refine ⟨isMalformedEncoding_eq_false not_decoding, iff_of_false sound ?_,
        iff_of_false sound fun none => none ⟨leaf, earlier, inside, isLeaf, leaf_failed, code⟩⟩
      rintro ⟨node, earlier, _, complains⟩
      exact not_operand complains.code_mem
    · have code : fault.notice.code ∈ operandCodes := complains.code_mem
      have mismatch := fault.isTypeMismatch_iff.mpr code
      refine ⟨isMalformedEncoding_eq_false (operand_apart _ code),
        iff_of_true mismatch ⟨node, earlier, inside, complains⟩, iff_of_true mismatch ?_⟩
      rintro ⟨leaf, earlier, _, _, _, leaf_code⟩
      exact (leaf_apart _ leaf_code).2 code
  case encoding =>
    intro expr fault failed
    obtain ⟨not_decoding, not_operand⟩ := encoding_apart _ (Expr.code_mem_of_encode failed)
    exact ⟨isMalformedEncoding_eq_false not_decoding, isTypeMismatch_eq_false not_operand⟩

/-- A conjunction of a column and a probe: too many levels in its encoding, a column that declares
no boolean, a column that is missing, and the probe, which has no encoding. -/
theorem Fault.told_apart_conjunction :
    let expr (declared : DataType) : Expr :=
      .combine .and (.column 0 declared) (.probe ⟨"p", .boolean, []⟩)
    let row : Row := ⟨[.boolean true]⟩
    let deep : Fault := .wire (.nestingTooDeep 1)
    let refused : Fault := .operandNotBoolean .left "and" .int4
    let missing : Fault := .columnNotFound 0 0
    (Expr.decode [4, 2] ⟨1, false⟩ = .error deep ∧ deep.diagnostic.isMalformedEncoding = true) ∧
    (((expr .int4).evaluate .none row []).outcome = .error refused ∧
      ∃ node earlier, Expr.Involves .none row (expr .int4) [] node earlier ∧
        Expr.Complains .none row node earlier refused) ∧
    (((expr .boolean).evaluate .none .empty []).outcome = .error missing ∧
      ¬∃ node earlier, Expr.Involves .none .empty (expr .boolean) [] node earlier ∧
        Expr.Complains .none .empty node earlier missing) ∧
    (expr .boolean).encode = .error (.notEncodable "probe") ∧
      (Fault.notEncodable "probe").diagnostic.isMalformedEncoding = false := by
  intro expr row deep refused missing
  obtain ⟨decoding, evaluation, encoding⟩ := told_apart
  have too_deep : Expr.decode [4, 2] ⟨1, false⟩ = .error deep := rfl
  have mistyped : ((expr .int4).evaluate .none row []).outcome = .error refused := rfl
  have failed : ((expr .boolean).evaluate .none .empty []).outcome = .error missing := rfl
  have unwritten : (expr .boolean).encode = .error (.notEncodable "probe") := rfl
  refine ⟨⟨too_deep, (decoding _ _ _ (Or.inl too_deep)).2.1⟩, ⟨mistyped, ?_⟩, ⟨failed, ?_⟩,
    unwritten, (encoding _ _ unwritten).1⟩
  · have mismatch : refused.diagnostic.isTypeMismatch = true := by decide
    exact (evaluation _ _ _ _ _ mistyped).2.1.mp mismatch
  · have other : missing.diagnostic.isTypeMismatch = false := by decide
    intro complains
    rw [(evaluation _ _ _ _ _ failed).2.1.mpr complains] at other
    cases other

end RowLogic
