/-
**Equal values are written alike.**

Values are compared part by part, and numbers as floating-point numbers are (`Value.equal`). On the
bit patterns alone this would be no equality of bytes: a NaN differs from itself, and zero has two
patterns. A value holds neither a NaN nor the negative zero, wherever it comes from, and so

* `Value.equal_iff`: equal values are the same value;
* `Value.hashInput_eq_iff`: they are fed alike to a hash function;
* `Value.eq_of_begins`: they have one encoding, and no encoding is the beginning of that of another
  value;
* `Expr.leafEq?_iff`: the same for two constants, two columns or two parameters.
-/

import RowLogic.Proofs.Expr.RoundTrip
import RowLogic.Proofs.Real64.Order

namespace RowLogic

/-! ### Bit patterns -/

namespace Double

/-- The negative zero is equal to whatever the positive one is equal to. -/
theorem equal_negative_zero (other : Double) :
    equal ⟨0x8000000000000000⟩ other = equal ⟨0⟩ other := by
  have own : (⟨0x8000000000000000⟩ : Double).magnitude = 0 := by decide
  have own' : (⟨0⟩ : Double).magnitude = 0 := by decide
  have known : (⟨0x8000000000000000⟩ : Double).isNaN = (⟨0⟩ : Double).isNaN := by decide
  unfold equal
  rw [known, own, own']
  by_cases empty : other.magnitude = 0
  · rw [empty, beq_self_eq_true, Bool.and_self, Bool.or_true, Bool.or_true]
  -- a pattern with a magnitude is neither of the zeros
  have positive : (0 : UInt64) ≠ other.bits := fun same => empty (by rw [magnitude, ← same]; rfl)
  have negative : (0x8000000000000000 : UInt64) ≠ other.bits :=
    fun same => empty (by rw [magnitude, ← same]; rfl)
  rw [beq_false_of_ne positive, beq_false_of_ne negative]

theorem equal_comm (first second : Double) : equal first second = equal second first := by
  unfold equal
  rw [Bool.and_comm (!first.isNaN), Bool.beq_comm, Bool.and_comm (first.magnitude == 0)]

end Double

namespace Real64

variable {double double' : Double} {number number' : Real64}

/-- A pattern and its number are equal to the same patterns. -/
theorem equal_of_ofDouble? (known : ofDouble? double = some number) (other : Double) :
    Double.equal double other = Double.equal number.double other := by
  rcases ofDouble?_eq_some_iff.mp known with rfl | ⟨rfl, rfl⟩
  · rfl
  · exact Double.equal_negative_zero other

/-- **Numbers are equal when the patterns they were made from are.** -/
theorem eq_iff_equal_of_ofDouble? (known : ofDouble? double = some number)
    (known' : ofDouble? double' = some number') :
    number = number' ↔ Double.equal double double' = true := by
  rw [equal_of_ofDouble? known, Double.equal_comm, equal_of_ofDouble? known', Double.equal_comm]
  exact eq_iff_equal

end Real64

/-! ### Values -/

namespace Value

variable {first second : Value} {bytes bytes' : List UInt8}

/-- Values of one kind with equal contents; numbers are compared as floating-point numbers. -/
def equal : Value → Value → Bool
  | undefined, undefined => true
  | boolean truth, boolean truth' => truth == truth'
  | int4 number, int4 number' => number == number'
  | int8 number, int8 number' => number == number'
  | float8 number, float8 number' => Double.equal number.double number'.double
  | utf8 text, utf8 text' => text == text'
  | _, _ => false

/-- **Equal values are the same value.** -/
theorem equal_iff : first.equal second = true ↔ first = second := by
  cases first <;> cases second <;> simp [equal, ← Real64.eq_iff_equal]

theorem equal_equivalence : Equivalence fun first second : Value => first.equal second = true where
  refl _ := equal_iff.mpr rfl
  symm same := equal_iff.mpr (equal_iff.mp same).symm
  trans same same' := equal_iff.mpr ((equal_iff.mp same).trans (equal_iff.mp same'))

/-- Values made from bit patterns that are no NaNs are equal when the patterns are. -/
theorem equal_ofDouble {double double' : Double} (known : double.isNaN = false)
    (known' : double'.isNaN = false) :
    (ofDouble double).equal (ofDouble double') = Double.equal double double' := by
  have made : ∀ {double : Double}, double.isNaN = false →
      ∃ number, Real64.ofDouble? double = some number := by
    intro double known
    refine Option.ne_none_iff_exists'.mp fun missing => ?_
    rw [Real64.ofDouble?_eq_none_iff.mp missing] at known
    cases known
  obtain ⟨number, own⟩ := made known
  obtain ⟨number', own'⟩ := made known'
  rw [ofDouble, own, ofDouble, own']
  exact Bool.eq_iff_iff.mpr
    (Real64.eq_iff_equal.symm.trans (Real64.eq_iff_equal_of_ofDouble? own own'))

/-- The words of two types differ. -/
theorem dataType_of_hashInput (same : first.hashInput = second.hashInput) :
    first.dataType = second.dataType := by
  have words := (List.append_inj same
    (by rw [LittleEndian.length_encode, LittleEndian.length_encode])).1
  have tags : first.dataType.tag.toNat = second.dataType.tag.toNat := by
    have small : ∀ type : DataType, type.tag.toNat < 256 ^ 8 := fun type =>
      Nat.lt_trans type.tag.toNat_lt (by decide)
    rw [← LittleEndian.decode_encode 8 _ (small first.dataType), words,
      LittleEndian.decode_encode 8 _ (small second.dataType)]
  refine Option.some.inj ?_
  rw [← DataType.ofTag?_tag, UInt8.toNat_inj.mp tags, DataType.ofTag?_tag]

/-- **Equal values are fed alike to a hash function**, and others are not. -/
theorem hashInput_eq_iff : first.hashInput = second.hashInput ↔ first = second := by
  refine ⟨fun same => ?_, congrArg hashInput⟩
  have kinds := dataType_of_hashInput same
  have contents := List.append_inj_right same
    (by rw [LittleEndian.length_encode, LittleEndian.length_encode])
  cases first <;> cases second <;> cases kinds
  case undefined.undefined => rfl
  case boolean.boolean truth truth' =>
    revert contents
    cases truth <;> cases truth' <;> decide
  case int4.int4 number number' =>
    have own := ((int32_word_iff number _).mp contents).2
    rw [← own, ((int32_word_iff number' _).mp rfl).2]
  case int8.int8 number number' =>
    have own := ((int64_word_iff number _).mp contents).2
    rw [← own, ((int64_word_iff number' _).mp rfl).2]
  case float8.float8 number number' =>
    rw [Real64.hashInput_injective contents]
  case utf8.utf8 text text' =>
    have bytes : Utf8.encode text = Utf8.encode text' := List.append_cancel_right contents
    have read := Utf8.decode_eq_ok_iff.mpr bytes
    rw [Utf8.decode_eq_ok_iff.mpr rfl] at read
    rw [Except.ok.inj read]

/-- **No encoding is the beginning of that of another value.** -/
theorem eq_of_begins (written : (Emission.ofValue first).result = .ok bytes)
    (written' : (Emission.ofValue second).result = .ok bytes') (begins : bytes <+: bytes') :
    first = second := by
  have recognises : Read.Recognises 0 Read.value Value.Spells := Read.recognises_value
  exact (recognises.unique (spells_of_result written) (spells_of_result written') begins
    (List.prefix_refl bytes')).1

theorem eq_iff_bytes (written : (Emission.ofValue first).result = .ok bytes)
    (written' : (Emission.ofValue second).result = .ok bytes') :
    first = second ↔ bytes = bytes' := by
  constructor
  · rintro rfl
    exact Except.ok.inj (written.symm.trans written')
  · rintro rfl
    exact eq_of_begins written written' (List.prefix_refl bytes)

end Value

/-! ### Leaves -/

namespace Expr

variable {first second : Expr} {bytes bytes' : List UInt8}

/-- **An encoding belongs to one expression**, apart from its marks. -/
theorem copy_eq_of_encode (encoded : first.encode = .ok bytes)
    (encoded' : second.encode = .ok bytes) : first.copy = second.copy := by
  let limits : DecodeLimits := { maxDepth := max first.depth second.depth }
  have read : decode bytes limits = .ok first.copy :=
    decode_of_encode encoded (Nat.le_max_left _ _)
  have read' : decode bytes limits = .ok second.copy :=
    decode_of_encode encoded' (Nat.le_max_right _ _)
  exact Except.ok.inj (read.symm.trans read')

theorem leafEq?_constant (first second : Value) :
    (constant first).leafEq? (constant second) = some (first.equal second) := by
  rw [leafEq?, Option.some_inj, Bool.eq_iff_iff, Value.equal_iff, decide_eq_true_iff]

/-- Where two leaves are compared, they are equal when they are the same; and they have no marks. -/
theorem leafEq?_iff {same : Bool} (compared : first.leafEq? second = some same) :
    same = true ↔ first.copy = second.copy := by
  cases first <;> cases second <;> cases compared <;> simp [copy]

theorem leafEq?_iff_bytes {same : Bool} (compared : first.leafEq? second = some same)
    (encoded : first.encode = .ok bytes) (encoded' : second.encode = .ok bytes') :
    same = true ↔ bytes = bytes' := by
  rw [leafEq?_iff compared]
  constructor
  · intro copies
    rw [← encode_copy, copies, encode_copy] at encoded
    exact Except.ok.inj (encoded.symm.trans encoded')
  · rintro rfl
    exact copy_eq_of_encode encoded encoded'

/-- Only leaves with an encoding are compared. -/
theorem probeFree_of_leafEq? {same : Bool} (compared : first.leafEq? second = some same) :
    first.ProbeFree ∧ second.ProbeFree := by
  cases first <;> cases second <;> cases compared <;> exact ⟨trivial, trivial⟩

end Expr

/-! ### Values and leaves on the wire -/

/-- **Equality is equality of the bytes.** Equality of values is an equivalence, on the values of
bit patterns it is floating-point equality of the patterns, and equal values are fed alike to a hash
function. Values whose texts fit are equal exactly when they are written in the same bytes, and of
two that are not equal neither encoding is the beginning of the other. Constants are compared by
their values, and two constants, two columns or two parameters are equal exactly when they are
encoded in the same bytes. -/
theorem Value.equal_as_written :
    (Equivalence fun first second : Value => first.equal second = true) ∧
    (∀ double double' : Double, double.isNaN = false → double'.isNaN = false →
      (ofDouble double).equal (ofDouble double') = Double.equal double double') ∧
    (∀ first second : Value, first.equal second = true ↔ first.hashInput = second.hashInput) ∧
    (∀ first second : Value, first.Fits → second.Fits →
      ∃ bytes bytes', (Emission.ofValue first).result = .ok bytes ∧
        (Emission.ofValue second).result = .ok bytes' ∧
        (first.equal second = true ↔ bytes = bytes') ∧
        (first.equal second = false → ¬ bytes <+: bytes' ∧ ¬ bytes' <+: bytes)) ∧
    (∀ first second : Value,
      (Expr.constant first).leafEq? (.constant second) = some (first.equal second)) ∧
    ∀ (first second : Expr) (same : Bool), first.leafEq? second = some same →
      first.TextsFit → second.TextsFit →
      ∃ bytes bytes', first.encode = .ok bytes ∧ second.encode = .ok bytes' ∧
        (same = true ↔ bytes = bytes') := by
  refine ⟨equal_equivalence, fun _ _ => equal_ofDouble,
    fun first second => equal_iff.trans hashInput_eq_iff.symm, ?_, Expr.leafEq?_constant, ?_⟩
  · intro first second fits fits'
    obtain ⟨bytes, written⟩ := exists_write fits
    obtain ⟨bytes', written'⟩ := exists_write fits'
    refine ⟨bytes, bytes', written, written', equal_iff.trans (eq_iff_bytes written written'), ?_⟩
    intro different
    have other : first ≠ second := fun same => by
      rw [equal_iff.mpr same] at different
      cases different
    exact ⟨fun begins => other (eq_of_begins written written' begins),
      fun begins => other (eq_of_begins written' written begins).symm⟩
  · intro first second same compared fits fits'
    obtain ⟨probeFree, probeFree'⟩ := Expr.probeFree_of_leafEq? compared
    obtain ⟨bytes, encoded⟩ := Expr.exists_encode probeFree fits
    obtain ⟨bytes', encoded'⟩ := Expr.exists_encode probeFree' fits'
    exact ⟨bytes, bytes', encoded, encoded', Expr.leafEq?_iff_bytes compared encoded encoded'⟩

/-- The two zeros make equal values; two texts of which one begins the other are told apart by
their bytes, and so are the columns of one position and different types. -/
theorem Value.equal_as_written_alike :
    let short : Value := utf8 "a"
    let long : Value := utf8 "ab"
    ((⟨0x8000000000000000⟩ : Double).isNaN = false ∧ (⟨0⟩ : Double).isNaN = false ∧
      (ofDouble ⟨0x8000000000000000⟩).equal (ofDouble ⟨0⟩) = true) ∧
    (short.Fits ∧ long.Fits ∧ ∃ bytes bytes', (Emission.ofValue short).result = .ok bytes ∧
      (Emission.ofValue long).result = .ok bytes' ∧ bytes ≠ bytes' ∧ ¬ bytes <+: bytes') ∧
    ∃ bytes bytes', (Expr.column 1 .boolean).encode = .ok bytes ∧
      (Expr.column 1 .int4).encode = .ok bytes' ∧ bytes ≠ bytes' := by
  intro short long
  obtain ⟨-, patterns, -, wire, -, leaves⟩ := equal_as_written
  have fits : (Utf8.encode "a").length < 0x100000000 := by decide
  have fits' : (Utf8.encode "ab").length < 0x100000000 := by decide
  have different : short.equal long = false := by decide
  obtain ⟨bytes, bytes', written, written', same, apart⟩ := wire short long fits fits'
  obtain ⟨column, column', encoded, encoded', same'⟩ :=
    leaves (.column 1 .boolean) (.column 1 .int4) false rfl trivial trivial
  refine ⟨⟨by decide, by decide, ?_⟩, ⟨fits, fits', bytes, bytes', written, written', ?_,
    (apart different).1⟩, column, column', encoded, encoded', ?_⟩
  · rw [patterns _ _ (by decide) (by decide)]
    decide
  · exact fun equal => absurd (same.mpr equal) (by rw [different]; decide)
  · exact fun equal => absurd (same'.mpr equal) (by decide)

end RowLogic
