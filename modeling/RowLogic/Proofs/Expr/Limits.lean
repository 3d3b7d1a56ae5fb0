/-
**The limits of a decoder.**

A limit decides nothing but whether a stream is refused for it. Each stream has one threshold: below
it the stream is refused for its depth, and from it on the answer is always the same
(`existsUnique_threshold`); for an expression the threshold is its depth (`isThreshold_depth`).
Whether bytes may follow decides only what becomes of an expression that bytes do follow
(`decode_closed_of_error`, `decode_closed_of_ok`).
-/

import Mathlib.Data.Nat.Find
import Mathlib.Logic.ExistsUnique
import RowLogic.Proofs.Expr.Displacement
import RowLogic.Proofs.Expr.Refusal

namespace RowLogic.Expr

variable {bytes : List UInt8} {limit limit' : Nat} {allowTrailing : Bool} {fault : Fault}
  {expr : Expr}

/-- The stream is refused for its depth. -/
def TooDeep (bytes : List UInt8) (limits : DecodeLimits) : Prop :=
  ∃ fault, decode bytes limits = .error fault ∧ fault.notice.code = "WIRE_005"

/-- Below the threshold a stream is refused for its depth, and from it on never; there the answer is
always the same. -/
structure IsThreshold (bytes : List UInt8) (allowTrailing : Bool) (threshold : Nat) : Prop where
  below : ∀ limit < threshold, TooDeep bytes ⟨limit, allowTrailing⟩
  above : ∀ limit, threshold ≤ limit → ¬TooDeep bytes ⟨limit, allowTrailing⟩ ∧
    decode bytes ⟨limit, allowTrailing⟩ = decode bytes ⟨threshold, allowTrailing⟩

/-! ### More levels -/

/-- A decoder with a higher limit fails as the first one did, unless that one ran out of levels. -/
theorem decode_error_of_le {limits limits' : DecodeLimits} {after : Reader}
    (higher : limits.maxDepth ≤ limits'.maxDepth)
    (failed : Read.nested { rest := bytes, limits := limits } = .error fault after)
    (other : fault.notice.code ≠ "WIRE_005" ∨ limits'.maxDepth = limits.maxDepth) :
    decode bytes limits' = .error fault := by
  let move : Displacement :=
    { levels := limits'.maxDepth - limits.maxDepth, allowTrailing := limits'.allowTrailing }
  let reader : Reader := { rest := bytes, limits := limits }
  let reader' : Reader := { rest := bytes, limits := limits' }
  have displaced : reader.displace move = reader' := by
    simp only [Reader.displace, move, reader, reader', Nat.zero_add, Nat.sub_add_cancel higher]
  have correspond : Read.CorrespondAt move Read.nested Read.nested reader :=
    Read.corresponds_nested reader
  rw [Read.CorrespondAt, displaced, failed] at correspond
  rcases correspond with ⟨more, quoted, after', run⟩ | same
  · cases failed.symm.trans run
    have more : 0 < limits'.maxDepth - limits.maxDepth := more
    exact absurd (other.resolve_left fun distinct => distinct rfl) (by omega)
  · have shallow : fault.notice.code ≠ "WIRE_005" ∨ move.depth + move.levels = 0 := by
      refine other.imp_right fun equal => ?_
      show 0 + (limits'.maxDepth - limits.maxDepth) = 0
      omega
    rw [Read.displaceEnd, Fault.displace_eq rfl shallow] at same
    exact Read.whole_error same

/-- **A higher limit changes no answer** but a refusal for depth. -/
theorem decode_of_le (higher : limit ≤ limit') (enough : ¬TooDeep bytes ⟨limit, allowTrailing⟩) :
    decode bytes ⟨limit', allowTrailing⟩ = decode bytes ⟨limit, allowTrailing⟩ := by
  cases run : Read.nested { rest := bytes, limits := ⟨limit, allowTrailing⟩ } with
  | error fault after =>
    have failed : decode bytes ⟨limit, allowTrailing⟩ = .error fault := Read.whole_error run
    rw [failed]
    exact decode_error_of_le higher run (Or.inl fun code => enough ⟨_, failed, code⟩)
  | ok expr after =>
    obtain ⟨front, ⟨fits, readable⟩, begins, rfl⟩ :=
      (Read.recognises_nested limit _ rfl expr after).mp run
    have run' : Read.nested { rest := bytes, limits := ⟨limit', allowTrailing⟩ } = .ok expr _ :=
      (Read.recognises_nested limit' _ rfl expr _).mpr
        ⟨front, ⟨Nat.le_trans fits higher, readable⟩, begins, rfl⟩
    exact (Read.whole_after run').trans (Read.whole_after run).symm

/-- Only as many levels as there are bytes can be too few. -/
theorem le_length_of_tooDeep (deep : TooDeep bytes ⟨limit, allowTrailing⟩) :
    limit ≤ bytes.length := by
  obtain ⟨fault, failed, code⟩ := deep
  rcases Read.whole_error_cases failed with ⟨after, run⟩ | ⟨_, after, _, _, _, rfl⟩
  · rcases Read.breaksOff_nested limit _ rfl _ _ run with ⟨-, enough⟩ | ⟨part, count, broken⟩
    · exact enough
    · -- the fault of a part is never about the depth
      obtain ⟨delay, -, holds⟩ := broken.holds (Reader.Over.start bytes ⟨limit, allowTrailing⟩)
      have listed : fault.notice.code ∈ _ := holds.code_mem
      rw [code] at listed
      exact absurd listed (by decide)
  · have trailing : "WIRE_006" = "WIRE_005" := code
    exact absurd trailing (by decide)

theorem IsThreshold.unique {threshold threshold' : Nat}
    (first : IsThreshold bytes allowTrailing threshold)
    (second : IsThreshold bytes allowTrailing threshold') : threshold = threshold' := by
  refine Nat.le_antisymm (Nat.le_of_not_lt fun less => ?_) (Nat.le_of_not_lt fun less => ?_)
  · exact (second.above threshold' (Nat.le_refl _)).1 (first.below threshold' less)
  · exact (first.above threshold (Nat.le_refl _)).1 (second.below threshold less)

open Classical in
/-- **Each stream has one threshold.** -/
theorem existsUnique_threshold (bytes : List UInt8) (allowTrailing : Bool) :
    ∃! threshold, IsThreshold bytes allowTrailing threshold := by
  have enough : ∃ limit, ¬TooDeep bytes ⟨limit, allowTrailing⟩ :=
    ⟨bytes.length + 1, fun deep => Nat.not_succ_le_self _ (le_length_of_tooDeep deep)⟩
  have threshold : IsThreshold bytes allowTrailing (Nat.find enough) := by
    refine ⟨fun limit less => not_not.mp (Nat.find_min enough less), fun limit higher => ?_⟩
    have same := decode_of_le higher (Nat.find_spec enough)
    refine ⟨fun deep => Nat.find_spec enough ?_, same⟩
    obtain ⟨fault, failed, code⟩ := deep
    exact ⟨fault, same.symm.trans failed, code⟩
  exact ⟨Nat.find enough, threshold, fun _ other => other.unique threshold⟩

/-- The threshold of an expression is its depth. -/
theorem isThreshold_depth (decoded : decode bytes ⟨limit, allowTrailing⟩ = .ok expr) :
    IsThreshold bytes allowTrailing expr.depth := by
  obtain ⟨front, ⟨_, unmarked, spelled⟩, begins, ended⟩ := decode_ok_iff.mp decoded
  have accepted : ∀ limit, expr.depth ≤ limit → decode bytes ⟨limit, allowTrailing⟩ = .ok expr :=
    fun limit fits => decode_ok_iff.mpr ⟨front, ⟨fits, unmarked, spelled⟩, begins, ended⟩
  refine ⟨fun limit less => ⟨_, decode_too_deep spelled begins less, rfl⟩, fun limit fits => ?_⟩
  refine ⟨?_, (accepted limit fits).trans (accepted _ (Nat.le_refl _)).symm⟩
  rintro ⟨fault, failed, -⟩
  rw [accepted limit fits] at failed
  cases failed

/-! ### Bytes behind an expression -/

/-- What is refused where bytes may follow is refused alike where they may not. -/
theorem decode_closed_of_error (failed : decode bytes ⟨limit, true⟩ = .error fault) :
    decode bytes ⟨limit, false⟩ = .error fault := by
  rcases Read.whole_error_cases failed with ⟨after, run⟩ | ⟨expr, after, run, closed, _⟩
  · exact decode_error_of_le (Nat.le_refl limit) run (Or.inr rfl)
  · obtain ⟨front, _, _, rfl⟩ := (Read.recognises_nested limit _ rfl expr after).mp run
    cases closed

/-- What is read where bytes may follow is read alike where they may not, unless they do. -/
theorem decode_closed_of_ok (decoded : decode bytes ⟨limit, true⟩ = .ok expr) :
    ∃ front rest, bytes = front ++ rest ∧ decode front ⟨limit, false⟩ = .ok expr ∧
      decode bytes ⟨limit, false⟩ =
        if rest = [] then .ok expr else .error (.wire (.trailingBytes rest.length)) := by
  obtain ⟨front, readable, ⟨rest, rfl⟩, -⟩ := decode_ok_iff.mp decoded
  have exact_ : decode front ⟨limit, false⟩ = .ok expr :=
    decode_ok_iff.mpr ⟨front, readable, List.prefix_refl front, Or.inr rfl⟩
  refine ⟨front, rest, rfl, exact_, ?_⟩
  by_cases ended : rest = []
  · rw [if_pos ended, ended, List.append_nil, exact_]
  · rw [if_neg ended]
    exact Read.Recognises.whole_of_trailing (Read.recognises_nested limit) readable ended rfl

/-! ### All limits -/

/-- **Limits only ever turn answers into refusals for them.** A higher limit changes nothing but a
refusal for depth; each stream has one threshold, which is the depth of the expression if it is one;
and where no bytes may follow, a stream is refused as it is where they may, or read as it is there,
or refused for the bytes that do follow. -/
theorem decode_limits (bytes : List UInt8) :
    (∀ limit limit' allowTrailing, limit ≤ limit' → ¬TooDeep bytes ⟨limit, allowTrailing⟩ →
      decode bytes ⟨limit', allowTrailing⟩ = decode bytes ⟨limit, allowTrailing⟩) ∧
    (∀ allowTrailing, ∃! threshold, IsThreshold bytes allowTrailing threshold) ∧
    (∀ limit allowTrailing expr, decode bytes ⟨limit, allowTrailing⟩ = .ok expr →
      IsThreshold bytes allowTrailing expr.depth) ∧
    (∀ limit fault, decode bytes ⟨limit, true⟩ = .error fault →
      decode bytes ⟨limit, false⟩ = .error fault) ∧
    ∀ limit expr, decode bytes ⟨limit, true⟩ = .ok expr →
      ∃ front rest, bytes = front ++ rest ∧ decode front ⟨limit, false⟩ = .ok expr ∧
        decode bytes ⟨limit, false⟩ =
          if rest = [] then .ok expr else .error (.wire (.trailingBytes rest.length)) :=
  ⟨fun _ _ _ => decode_of_le, existsUnique_threshold bytes, fun _ _ _ => isThreshold_depth,
    fun _ _ => decode_closed_of_error, fun _ _ => decode_closed_of_ok⟩

/-- A conjunction of two leaves and a byte behind it, and the same cut short. -/
theorem decode_limits_conjunction :
    let bytes : List UInt8 := [4, 1, 1, 1, 2, 3, 0, 0, 0, 1, 0, 9]
    let expr := combine .and (constant (.boolean true)) (column 3 .boolean)
    let fault : Fault := .wire (.truncated "bool" 1 0)
    (decode bytes ⟨2, true⟩ = .ok expr ∧ ¬TooDeep bytes ⟨2, true⟩ ∧
      decode (bytes.take 3) ⟨2, true⟩ = .error fault) ∧
    decode bytes ⟨128, true⟩ = decode bytes ⟨2, true⟩ ∧ IsThreshold bytes true 2 ∧
    decode (bytes.take 3) ⟨2, false⟩ = .error fault ∧
    ∃ front rest, bytes = front ++ rest ∧ decode front ⟨2, false⟩ = .ok expr ∧
      decode bytes ⟨2, false⟩ =
        if rest = [] then .ok expr else .error (.wire (.trailingBytes rest.length)) := by
  intro bytes expr fault
  have decoded : decode bytes ⟨2, true⟩ = .ok expr := rfl
  have failed : decode (bytes.take 3) ⟨2, true⟩ = .error fault := rfl
  have shallow : ¬TooDeep bytes ⟨2, true⟩ := by
    rintro ⟨fault, deep, -⟩
    rw [decoded] at deep
    cases deep
  obtain ⟨higher, -, threshold, -, closed⟩ := decode_limits bytes
  exact ⟨⟨decoded, shallow, failed⟩, higher 2 128 true (by decide) shallow,
    threshold 2 true expr decoded, (decode_limits (bytes.take 3)).2.2.2.1 2 fault failed,
    closed 2 expr decoded⟩

end RowLogic.Expr
