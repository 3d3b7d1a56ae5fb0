/-
**Round trips.**

What was encoded is decoded to a fresh copy, whatever marks the encoded expression carried, and the
depth limit decides whether it is decoded at all (`decode_encode_of_reached`). In evaluations the
decoded expression cannot be told from the one that was encoded.
-/

import RowLogic.Proofs.Evaluation.Outcomes
import RowLogic.Proofs.Expr.Encoded

namespace RowLogic.Expr

variable {bytes : List UInt8} {limits : DecodeLimits} {expr : Expr}

/-- Within the depth limit, an encoding is decoded to a copy. -/
theorem decode_of_encode (encoded : expr.encode = .ok bytes)
    (shallow : expr.depth ≤ limits.maxDepth) : decode bytes limits = .ok expr.copy := by
  have readable : Read.Readable limits.maxDepth expr.copy bytes :=
    ⟨by rwa [depth_copy], unmarked_copy expr, (spells_of_encode encoded).copy⟩
  exact decode_ok_iff.mpr ⟨bytes, readable, List.prefix_refl bytes, Or.inr rfl⟩

/-- **Encoding and decoding are symmetric up to the depth limit.** An expression without probes
whose texts fit, in whatever state evaluations left it, is encoded; the bytes are decoded exactly if
it is not deeper than the limit, to an expression of the same tree that carries no marks and has the
same outcomes in any sequence of evaluations. -/
theorem decode_encode_of_reached (reached : Reached expr) (probeFree : expr.ProbeFree)
    (fits : expr.TextsFit) (limits : DecodeLimits) :
    ∃ bytes, expr.encode = .ok bytes ∧
      (expr.depth ≤ limits.maxDepth → ∃ decoded, decode bytes limits = .ok decoded ∧
        decoded.SameTree expr ∧ decoded.Unmarked ∧
        ∀ calls tallies tallies', decoded.outcomes calls tallies = expr.outcomes calls tallies') ∧
      (limits.maxDepth < expr.depth → ∃ fault, decode bytes limits = .error fault ∧
        fault = .wire (.nestingTooDeep limits.maxDepth) ∧ fault.notice.code = "WIRE_005") := by
  obtain ⟨bytes, encoded⟩ := exists_encode probeFree fits
  refine ⟨bytes, encoded, fun shallow => ?_, fun deep => ?_⟩
  · refine ⟨expr.copy, decode_of_encode encoded shallow, sameTree_copy expr, unmarked_copy expr, ?_⟩
    intro calls tallies tallies'
    have copy_probeFree : expr.copy.ProbeFree := (probeFree_copy expr).mpr probeFree
    rw [outcomes_eq_map copy_probeFree (unmarked_copy expr).sound,
      outcomes_eq_map probeFree reached.sound]
    simp only [reference_of_copy_eq (copy_copy expr)]
  · exact ⟨_, decode_too_deep (spells_of_encode encoded) (List.prefix_refl bytes) deep, rfl, rfl⟩

/-- A disjunction whose evaluation marked the left operand and then failed at the right one. -/
theorem decode_encode_of_reached_marked :
    let expr := connective (column 0 .boolean) (constant (.utf8 "é")) .or true false
    (Reached expr ∧ expr.ProbeFree ∧ expr.TextsFit) ∧
      ∃ bytes, expr.encode = .ok bytes ∧
        (∃ decoded, decode bytes { maxDepth := 2 } = .ok decoded ∧ decoded.SameTree expr ∧
          decoded.Unmarked) ∧
        ∃ fault, decode bytes { maxDepth := 1 } = .error fault ∧
          fault.notice.code = "WIRE_005" := by
  intro expr
  have fresh : Reached (combine .or (column 0 .boolean) (constant (.utf8 "é"))) :=
    .fresh ⟨trivial, trivial, rfl, rfl⟩
  have reached : Reached expr := fresh.evolves (.whole _ .none ⟨[.boolean true]⟩ [])
  have short : (Utf8.encode "é").length < 0x100000000 := by decide
  have fits : expr.TextsFit := ⟨trivial, short⟩
  obtain ⟨bytes, encoded, accepted, -⟩ :=
    decode_encode_of_reached reached ⟨trivial, trivial⟩ fits { maxDepth := 2 }
  obtain ⟨bytes', encoded', -, refused⟩ :=
    decode_encode_of_reached reached ⟨trivial, trivial⟩ fits { maxDepth := 1 }
  obtain rfl : bytes = bytes' := Except.ok.inj (encoded.symm.trans encoded')
  obtain ⟨decoded, read, same, unmarked, -⟩ := accepted (by decide)
  obtain ⟨fault, failed, -, code⟩ := refused (by decide)
  exact ⟨⟨reached, ⟨trivial, trivial⟩, fits⟩, bytes, encoded, ⟨decoded, read, same, unmarked⟩,
    fault, failed, code⟩

end RowLogic.Expr
