/-
**Decoded streams and their encodings.**

Decoding accepts the encodings of expressions within the depth limit and, besides these, only what
differs from one of them in the sign of zeros. So whatever is decoded is written again as it came,
except that each zero is positive (`decode_canonical`).
-/

import RowLogic.Proofs.Expr.Encoded

namespace RowLogic.Expr

variable {bytes encoded spelled : List UInt8} {limits : DecodeLimits} {expr : Expr}

/-- What is decoded is encoded again in as many bytes. -/
theorem settles_of_decode (decoded : decode bytes limits = .ok expr) :
    ∃ encoded, expr.encode = .ok encoded ∧ encoded.length ≤ bytes.length ∧
      (limits.allowTrailing = false → encoded.length = bytes.length) ∧
      Settles expr.floatOffsets (bytes.take encoded.length) encoded := by
  obtain ⟨front, ⟨_, _, spelled⟩, first, ended⟩ := decode_ok_iff.mp decoded
  obtain ⟨encoded, complete⟩ := exists_of_spells spelled
  have settled := (spells_iff complete).mp spelled
  refine ⟨encoded, complete, settled.1 ▸ first.length_le, ?_, ?_⟩
  · intro closed
    rcases ended with trailing | same
    · rw [closed] at trailing
      cases trailing
    · rw [← settled.1, same]
  · rw [← settled.1, ← List.prefix_iff_eq_take.mp first]
    exact settled

/-- A stream that settles to an encoding within the limits is decoded. -/
theorem decode_of_settles (complete : expr.encode = .ok encoded)
    (shallow : expr.depth ≤ limits.maxDepth) (settled : Settles expr.floatOffsets spelled encoded)
    (begins : spelled = bytes ∨ limits.allowTrailing = true ∧ spelled <+: bytes) :
    decode bytes limits = .ok expr.copy := by
  have spells : expr.copy.Spells spelled := ((spells_iff complete).mpr settled).copy
  have readable : Read.Readable limits.maxDepth expr.copy spelled :=
    ⟨by rwa [depth_copy], unmarked_copy expr, spells⟩
  rcases begins with rfl | ⟨trailing, first⟩
  · exact decode_ok_iff.mpr ⟨spelled, readable, List.prefix_refl _, Or.inr rfl⟩
  · exact decode_ok_iff.mpr ⟨spelled, readable, first, Or.inl trailing⟩

/-- **The decoder accepts the encodings, up to the sign of zeros, and nothing else.** What it
accepts is written again in the same bytes with each negative zero settled; and every stream that
settles to the encoding of an expression within the depth limit, or begins with one if bytes may
follow, is accepted. -/
theorem decode_canonical (bytes : List UInt8) (limits : DecodeLimits) :
    (∀ expr, decode bytes limits = .ok expr →
      ∃ encoded, expr.encode = .ok encoded ∧ encoded.length ≤ bytes.length ∧
        (limits.allowTrailing = false → encoded.length = bytes.length) ∧
        Settles expr.floatOffsets (bytes.take encoded.length) encoded) ∧
    (∀ (expr : Expr) (encoded spelled : List UInt8), expr.encode = .ok encoded →
      expr.depth ≤ limits.maxDepth → Settles expr.floatOffsets spelled encoded →
      (spelled = bytes ∨ limits.allowTrailing = true ∧ spelled <+: bytes) →
      decode bytes limits = .ok expr.copy) :=
  ⟨fun _ => settles_of_decode, fun _ _ _ => decode_of_settles⟩

/-- A conjunction of the negative zero and a column, and more bytes behind it. -/
theorem decode_canonical_negative_zero :
    let limits : DecodeLimits := { maxDepth := 2, allowTrailing := true }
    let spelled : List UInt8 := [4, 1, 4, 0, 0, 0, 0, 0, 0, 0, 0x80, 2, 3, 0, 0, 0, 1, 0]
    let encoded : List UInt8 := [4, 1, 4, 0, 0, 0, 0, 0, 0, 0, 0, 2, 3, 0, 0, 0, 1, 0]
    let expr := combine .and (constant (.float8 .zero)) (column 3 .boolean)
    (expr.encode = .ok encoded ∧ Settles expr.floatOffsets spelled encoded ∧
      decode (spelled ++ [9]) limits = .ok expr) ∧
    ∃ encoded, expr.encode = .ok encoded ∧ encoded.length ≤ 19 ∧
      Settles expr.floatOffsets ((spelled ++ [9]).take encoded.length) encoded := by
  intro limits spelled encoded expr
  have complete : expr.encode = .ok encoded := rfl
  have settled : Settles expr.floatOffsets spelled encoded := ⟨rfl, rfl⟩
  have accepted := (decode_canonical (spelled ++ [9]) limits).2 expr encoded spelled complete
    (Nat.le_refl 2) settled (Or.inr ⟨rfl, List.prefix_append _ _⟩)
  obtain ⟨again, complete', size, -, settled'⟩ :=
    (decode_canonical (spelled ++ [9]) limits).1 expr accepted
  exact ⟨⟨complete, settled, accepted⟩, again, complete', size, settled'⟩

end RowLogic.Expr
