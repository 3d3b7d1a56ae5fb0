/-
**The two spellings of zero.**

A reader takes the bits of either zero for zero, and a writer puts the bits of the positive one.
`settleZeros` makes up for it: it replaces, at given places of a stream, the bits of the negative
zero by those of the positive one. So a stream spells a number, or a value, exactly when it settles
to the encoding (`Real64.spells_iff`, `Value.spells_iff`); and a stream in two parts settles when
its parts do (`settles_append_iff`).
-/

import RowLogic.Proofs.Real64.Patterns
import RowLogic.Proofs.Wire.Fields

namespace RowLogic

/-! ### Settled streams -/

/-- The eight bytes of the negative zero. -/
def negativeZero : List UInt8 :=
  LittleEndian.encode 8 0x8000000000000000

/-- The eight bytes of the positive zero. -/
def positiveZero : List UInt8 :=
  LittleEndian.encode 8 0

/-- The bytes with the positive zero in place of the negative one, if that stands at the offset. -/
def settleZero (bytes : List UInt8) (offset : Nat) : List UInt8 :=
  if (bytes.drop offset).take 8 = negativeZero then
    bytes.take offset ++ (positiveZero ++ bytes.drop (offset + 8))
  else bytes

/-- The bytes with the positive zero in place of the negative one at each of some offsets. -/
def settleZeros (offsets : List Nat) (bytes : List UInt8) : List UInt8 :=
  offsets.foldl settleZero bytes

variable {front back bytes : List UInt8} {offsets : List Nat}

@[simp] theorem length_settleZero (bytes : List UInt8) (offset : Nat) :
    (settleZero bytes offset).length = bytes.length := by
  unfold settleZero
  by_cases negative : (bytes.drop offset).take 8 = negativeZero
  · have width := congrArg List.length negative
    rw [negativeZero, LittleEndian.length_encode, List.length_take, List.length_drop] at width
    rw [if_pos negative, List.length_append, List.length_append, positiveZero,
      LittleEndian.length_encode, List.length_take, List.length_drop]
    omega
  · rw [if_neg negative]

theorem settleZero_append_left {offset : Nat} (within : offset + 8 ≤ front.length) :
    settleZero (front ++ back) offset = settleZero front offset ++ back := by
  have before : offset ≤ front.length := by omega
  have room : 8 ≤ (front.drop offset).length := by
    rw [List.length_drop]
    omega
  unfold settleZero
  rw [List.drop_append_of_le_length before, List.take_append_of_le_length room,
    List.take_append_of_le_length before, List.drop_append_of_le_length within]
  by_cases negative : (front.drop offset).take 8 = negativeZero
  · rw [if_pos negative, if_pos negative, List.append_assoc, List.append_assoc]
  · rw [if_neg negative, if_neg negative]

theorem settleZero_append_right (front back : List UInt8) (offset : Nat) :
    settleZero (front ++ back) (front.length + offset) = front ++ settleZero back offset := by
  unfold settleZero
  rw [Nat.add_assoc, List.drop_length_add_append, List.drop_length_add_append,
    List.take_length_add_append]
  by_cases negative : (back.drop offset).take 8 = negativeZero
  · rw [if_pos negative, if_pos negative, List.append_assoc]
  · rw [if_neg negative, if_neg negative]

theorem settleZeros_append_left (within : ∀ offset ∈ offsets, offset + 8 ≤ front.length) :
    settleZeros offsets (front ++ back) = settleZeros offsets front ++ back := by
  induction offsets generalizing front with
  | nil => rfl
  | cons offset offsets ih =>
    unfold settleZeros at ih ⊢
    rw [List.foldl_cons, List.foldl_cons,
      settleZero_append_left (within offset List.mem_cons_self), ih]
    intro other member
    rw [length_settleZero]
    exact within other (List.mem_cons_of_mem _ member)

theorem settleZeros_append_right (offsets : List Nat) (front back : List UInt8) :
    settleZeros (offsets.map (front.length + ·)) (front ++ back) =
      front ++ settleZeros offsets back := by
  induction offsets generalizing back with
  | nil => rfl
  | cons offset offsets ih =>
    unfold settleZeros at ih ⊢
    rw [List.map_cons, List.foldl_cons, List.foldl_cons, settleZero_append_right, ih]

@[simp] theorem length_settleZeros (offsets : List Nat) (bytes : List UInt8) :
    (settleZeros offsets bytes).length = bytes.length := by
  induction offsets generalizing bytes with
  | nil => rfl
  | cons offset offsets ih =>
    unfold settleZeros at ih ⊢
    rw [List.foldl_cons, ih, length_settleZero]

theorem settleZeros_append {offsets' : List Nat}
    (within : ∀ offset ∈ offsets, offset + 8 ≤ front.length) :
    settleZeros (offsets ++ offsets'.map (front.length + ·)) (front ++ back) =
      settleZeros offsets front ++ settleZeros offsets' back := by
  have first : settleZeros offsets (front ++ back) = settleZeros offsets front ++ back :=
    settleZeros_append_left within
  have second := settleZeros_append_right offsets' (settleZeros offsets front) back
  rw [length_settleZeros] at second
  rw [← second, ← first]
  exact List.foldl_append

/-- The bytes are an encoding but for negative zeros at some offsets. -/
def Settles (offsets : List Nat) (bytes encoded : List UInt8) : Prop :=
  bytes.length = encoded.length ∧ settleZeros offsets bytes = encoded

theorem settles_nil_iff {encoded : List UInt8} : Settles [] bytes encoded ↔ bytes = encoded :=
  ⟨fun settled => settled.2, fun same => ⟨congrArg List.length same, same⟩⟩

/-- **The parts of a stream settle by themselves.** -/
theorem settles_append_iff {offsets' : List Nat}
    (within : ∀ offset ∈ offsets, offset + 8 ≤ front.length) :
    Settles (offsets ++ offsets'.map (front.length + ·)) bytes (front ++ back) ↔
      ∃ front' back', bytes = front' ++ back' ∧ Settles offsets front' front ∧
        Settles offsets' back' back := by
  refine ⟨?_, ?_⟩
  · intro given
    obtain ⟨size, settled⟩ := given
    rw [List.length_append] at size
    have front_size : (bytes.take front.length).length = front.length := by
      rw [List.length_take]
      omega
    have back_size : (bytes.drop front.length).length = back.length := by
      rw [List.length_drop]
      omega
    have parts : settleZeros (offsets ++ offsets'.map (front.length + ·)) bytes =
        settleZeros offsets (bytes.take front.length) ++
          settleZeros offsets' (bytes.drop front.length) := by
      rw [← settleZeros_append (by rwa [front_size]), front_size, List.take_append_drop]
    rw [parts] at settled
    obtain ⟨front_settled, back_settled⟩ :=
      List.append_inj settled (by rw [length_settleZeros, front_size])
    exact ⟨bytes.take front.length, bytes.drop front.length, (List.take_append_drop _ _).symm,
      ⟨front_size, front_settled⟩, ⟨back_size, back_settled⟩⟩
  · intro given
    obtain ⟨front', back', rfl, ⟨front_size, front_settled⟩, ⟨back_size, back_settled⟩⟩ := given
    refine ⟨by rw [List.length_append, List.length_append, front_size, back_size], ?_⟩
    rw [← front_size, settleZeros_append (by rwa [front_size]), front_settled, back_settled]

/-- Nothing is settled behind the last offset. -/
theorem settles_append_tail_iff (within : ∀ offset ∈ offsets, offset + 8 ≤ front.length) :
    Settles offsets bytes (front ++ back) ↔
      ∃ front', bytes = front' ++ back ∧ Settles offsets front' front := by
  have parts : Settles (offsets ++ [].map (front.length + ·)) bytes (front ++ back) ↔ _ :=
    settles_append_iff within
  simp only [List.map_nil, List.append_nil, settles_nil_iff] at parts
  refine parts.trans ⟨?_, ?_⟩
  · intro given
    obtain ⟨front', _, rfl, settled, rfl⟩ := given
    exact ⟨front', rfl, settled⟩
  · intro given
    obtain ⟨front', rfl, settled⟩ := given
    exact ⟨front', back, rfl, settled, rfl⟩

theorem settles_cons_iff {byte : UInt8} {encoded : List UInt8} :
    Settles (offsets.map (1 + ·)) bytes (byte :: encoded) ↔
      ∃ rest, bytes = byte :: rest ∧ Settles offsets rest encoded := by
  have parts : Settles ([] ++ offsets.map ([byte].length + ·)) bytes ([byte] ++ encoded) ↔ _ :=
    settles_append_iff (fun _ member => nomatch member)
  simp only [settles_nil_iff] at parts
  refine parts.trans ⟨?_, ?_⟩
  · intro given
    obtain ⟨_, rest, rfl, rfl, settled⟩ := given
    exact ⟨rest, rfl, settled⟩
  · intro given
    obtain ⟨rest, rfl, settled⟩ := given
    exact ⟨[byte], rest, rfl, rfl, settled⟩

/-- Eight bytes that stand alone. -/
theorem settleZero_word (width : bytes.length = 8) :
    settleZero bytes 0 = if bytes = negativeZero then positiveZero else bytes := by
  have whole : (bytes.drop 0).take 8 = bytes := by
    rw [List.drop_zero, ← width, List.take_length]
  unfold settleZero
  rw [whole, List.take_zero, Nat.zero_add, ← width, List.drop_length, List.append_nil,
    List.nil_append]

/-! ### Numbers -/

namespace Real64

/-- The word of a bit pattern stands for no other pattern. -/
theorem word_injective {first second : Double}
    (same : LittleEndian.encode 8 first.bits.toNat = LittleEndian.encode 8 second.bits.toNat) :
    first = second := by
  have read := ((double_word_iff first _).mp same).2
  rw [← read]
  exact ((double_word_iff second _).mp rfl).2

theorem word_ne_negativeZero (number : Real64) :
    LittleEndian.encode 8 number.double.bits.toNat ≠ negativeZero := by
  intro same
  have negative : number.double = ⟨0x8000000000000000⟩ := word_injective same
  exact number.double_ne_negative negative

/-- **Eight bytes spell a number** when they settle to the bytes that are written for it. -/
theorem spells_iff {number : Real64} :
    number.Spells bytes ↔
      Settles [0] bytes (LittleEndian.encode 8 number.double.bits.toNat) := by
  show _ ↔ _ = _ ∧ settleZero bytes 0 = _
  unfold Spells
  simp only [ofDouble?_eq_some_iff, Emission.ofDouble, Emission.result_mk, Except.ok.injEq]
  rw [LittleEndian.length_encode]
  refine ⟨?_, ?_⟩
  · intro given
    obtain ⟨double, stands, rfl⟩ := given
    have width := LittleEndian.length_encode 8 double.bits.toNat
    refine ⟨width, ?_⟩
    rw [settleZero_word width]
    rcases stands with rfl | ⟨rfl, rfl⟩
    · rw [if_neg number.word_ne_negativeZero]
    · rfl
  · intro given
    obtain ⟨width, settled⟩ := given
    rw [settleZero_word width] at settled
    by_cases negative : bytes = negativeZero
    · rw [if_pos negative] at settled
      have zero_number : zero.double = number.double := word_injective settled
      exact ⟨⟨0x8000000000000000⟩, Or.inr ⟨rfl, (double_injective zero_number).symm⟩, negative.symm⟩
    · rw [if_neg negative] at settled
      exact ⟨number.double, Or.inl rfl, settled.symm⟩

end Real64

/-! ### Values -/

namespace Value

/-- Where the bits of a number stand in the encoding of a value. -/
def floatOffsets : Value → List Nat
  | float8 _ => [1]
  | _ => []

/-- The encoding of a value, taken apart. -/
theorem result_ofValue_iff {value : Value} :
    (Emission.ofValue value).result = .ok bytes ↔
      ∃ content, (Emission.ofContent value).result = .ok content ∧
        bytes = value.dataType.tag :: content := by
  unfold Emission.ofValue
  rw [Emission.result_append_iff]
  refine ⟨?_, fun ⟨content, written, same⟩ => ⟨_, content, rfl, written, same⟩⟩
  intro given
  obtain ⟨_, content, tag, written, rfl⟩ := given
  cases tag
  exact ⟨content, written, rfl⟩

/-- A text has a length that four bytes hold. -/
def Fits : Value → Prop
  | utf8 text => (Utf8.encode text).length < 0x100000000
  | _ => True

/-- Only a text that is too long cannot be written. -/
theorem exists_write {value : Value} (fits : value.Fits) :
    ∃ bytes, (Emission.ofValue value).result = .ok bytes := by
  have content : ∃ content, (Emission.ofContent value).result = .ok content := by
    cases value with
    | utf8 text => exact ⟨_, Emission.result_ofText_iff.mpr ⟨fits, rfl⟩⟩
    | _ => exact ⟨_, rfl⟩
  obtain ⟨content, written⟩ := content
  exact ⟨_, result_ofValue_iff.mpr ⟨content, written, rfl⟩⟩

/-- The encoding of a number as a value. -/
theorem result_ofValue_float8_iff {number : Real64} :
    (Emission.ofValue (float8 number)).result = .ok bytes ↔
      bytes = DataType.float8.tag :: LittleEndian.encode 8 number.double.bits.toNat := by
  rw [result_ofValue_iff]
  refine ⟨?_, fun same => ⟨_, rfl, same⟩⟩
  intro given
  obtain ⟨content, written, rfl⟩ := given
  cases written
  rfl

theorem floatOffsets_within {value : Value} {encoded : List UInt8}
    (complete : (Emission.ofValue value).result = .ok encoded) :
    ∀ offset ∈ value.floatOffsets, offset + 8 ≤ encoded.length := by
  intro offset member
  cases value with
  | float8 number =>
    have size : encoded.length = 9 := by
      rw [result_ofValue_float8_iff.mp complete, List.length_cons, LittleEndian.length_encode]
    have first : offset = 1 := List.mem_singleton.mp member
    omega
  | _ => cases member

theorem exists_of_spells {value : Value} (spelled : value.Spells bytes) :
    ∃ encoded, (Emission.ofValue value).result = .ok encoded := by
  obtain ⟨content, spelled, _⟩ := spelled
  cases value with
  | float8 number => exact ⟨_, result_ofValue_float8_iff.mpr rfl⟩
  | _ => exact ⟨_, result_ofValue_iff.mpr ⟨content, spelled, rfl⟩⟩

/-- What is written for a value spells it. -/
theorem spells_of_result {value : Value} (complete : (Emission.ofValue value).result = .ok bytes) :
    value.Spells bytes := by
  obtain ⟨content, written, same⟩ := result_ofValue_iff.mp complete
  cases value with
  | float8 number =>
    exact ⟨content, ⟨number.double, Real64.ofDouble?_eq_some_iff.mpr (Or.inl rfl), written⟩, same⟩
  | _ => exact ⟨content, written, same⟩

/-- **A stream spells a value** when it settles to its encoding. -/
theorem spells_iff {value : Value} {encoded : List UInt8}
    (complete : (Emission.ofValue value).result = .ok encoded) :
    value.Spells bytes ↔ Settles value.floatOffsets bytes encoded := by
  cases value with
  | float8 number =>
    rw [result_ofValue_float8_iff.mp complete]
    show (float8 number).Spells bytes ↔ Settles ([0].map (1 + ·)) bytes (_ :: _)
    rw [settles_cons_iff]
    simp only [← Real64.spells_iff]
    exact ⟨fun ⟨payload, spelled, same⟩ => ⟨payload, same, spelled⟩,
      fun ⟨payload, same, spelled⟩ => ⟨payload, spelled, same⟩⟩
  | _ =>
    obtain ⟨content, written, rfl⟩ := result_ofValue_iff.mp complete
    refine Iff.trans ?_ settles_nil_iff.symm
    refine ⟨?_, fun same => ⟨content, written, same⟩⟩
    intro given
    obtain ⟨other, spelled, rfl⟩ := given
    have same : other = content := Except.ok.inj (spelled.symm.trans written)
    rw [same]

end Value

end RowLogic
