/-
**The fields of the wire format.**

What a reader takes for a field is what a writer puts there. The one exception are floating-point
numbers: eight bytes that are no NaN spell a number, and zero is spelled by the bits of either sign,
while it is always written with the positive one (`Real64.Spells`).

Each `recognises_*` gives the spellings of one kind of field in terms of its emission, so that they
carry the round trip and the refusal of everything else at once.
-/

import RowLogic.Proofs.Bytes.Text
import RowLogic.Proofs.Bytes.Words
import RowLogic.Proofs.Wire.Recognition

namespace RowLogic

/-! ### Complete emissions -/

namespace Emission

theorem result_mk (bytes : List UInt8) : (⟨bytes, none⟩ : Emission).result = .ok bytes := rfl

@[simp] theorem result_ofByte (byte : UInt8) : (ofByte byte).result = .ok [byte] := rfl

/-- An emission that is complete is all that it has written. -/
theorem result_eq_ok_iff {emission : Emission} {bytes : List UInt8} :
    emission.result = .ok bytes ↔ emission.fault = none ∧ emission.bytes = bytes := by
  obtain ⟨written, stopped⟩ := emission
  cases stopped with
  | none => exact ⟨fun same => ⟨rfl, Except.ok.inj same⟩, fun given => congrArg Except.ok given.2⟩
  | some fault => exact iff_of_false nofun fun given => nomatch given.1

theorem result_eq_error_iff {emission : Emission} {fault : Fault} :
    emission.result = .error fault ↔ emission.fault = some fault := by
  obtain ⟨written, stopped⟩ := emission
  cases stopped with
  | none => exact iff_of_false nofun nofun
  | some other =>
    exact ⟨fun same => congrArg some (Except.error.inj same),
      fun same => congrArg Except.error (Option.some.inj same)⟩

/-- An emission in two parts is complete when both parts are. -/
theorem result_append_iff {first second : Emission} {bytes : List UInt8} :
    (first ++ second).result = .ok bytes ↔
      ∃ front back, first.result = .ok front ∧ second.result = .ok back ∧
        bytes = front ++ back := by
  obtain ⟨front, stopped⟩ := first
  cases stopped with
  | some fault =>
    rw [append_of_fault rfl]
    constructor
    · exact fun complete => nomatch complete
    · intro given
      obtain ⟨_, _, complete, _⟩ := given
      cases complete
  | none =>
    rw [append_of_complete rfl]
    obtain ⟨back, stopped'⟩ := second
    cases stopped' with
    | some fault =>
      constructor
      · exact fun complete => nomatch complete
      · intro given
        obtain ⟨_, _, _, complete, _⟩ := given
        cases complete
    | none =>
      constructor
      · intro complete
        cases complete
        exact ⟨front, back, rfl, rfl, rfl⟩
      · intro given
        obtain ⟨_, _, first_complete, second_complete, rfl⟩ := given
        cases first_complete
        cases second_complete
        rfl

theorem result_ofBool_iff {truth : Bool} {bytes : List UInt8} :
    (ofBool truth).result = .ok bytes ↔ bytes = [if truth then 1 else 0] := by
  rw [ofBool, result_ofByte, Except.ok.injEq, eq_comm]

/-- A text is written as its length, which four bytes can hold, and its bytes. -/
theorem result_ofText_iff {text : String} {bytes : List UInt8} :
    (ofText text).result = .ok bytes ↔
      (Utf8.encode text).length < 0x100000000 ∧
        bytes = LittleEndian.encode 4 (Utf8.encode text).length ++ Utf8.encode text := by
  rw [ofText, result_append_iff]
  unfold ofLength
  by_cases short : (Utf8.encode text).length < 0x100000000
  · have size : (UInt32.ofNat (Utf8.encode text).length).toNat = (Utf8.encode text).length :=
      UInt32.toNat_ofNat_of_lt' short
    rw [if_pos short, ofUInt32, size]
    constructor
    · intro given
      obtain ⟨_, _, front, back, rfl⟩ := given
      cases front
      cases back
      exact ⟨short, rfl⟩
    · intro given
      obtain ⟨_, rfl⟩ := given
      exact ⟨_, _, rfl, rfl, rfl⟩
  · rw [if_neg short]
    constructor
    · intro given
      obtain ⟨_, _, front, _⟩ := given
      cases front
    · exact fun ⟨short', _⟩ => absurd short' short

end Emission

/-! ### Spellings of numbers and values -/

/-- Eight bytes spell the number that they are read as. A zero has two spellings, every other
number one. -/
def Real64.Spells (number : Real64) (bytes : List UInt8) : Prop :=
  ∃ double, Real64.ofDouble? double = some number ∧ (Emission.ofDouble double).result = .ok bytes

/-- The spellings of the content of a value. -/
def Value.ContentSpells : Value → List UInt8 → Prop
  | .float8 number, bytes => number.Spells bytes
  | value, bytes => (Emission.ofContent value).result = .ok bytes

/-- The spellings of a value: the byte of its type, and then its content. -/
def Value.Spells (value : Value) (bytes : List UInt8) : Prop :=
  ∃ content, value.ContentSpells content ∧ bytes = value.dataType.tag :: content

namespace Read

variable {levels : Nat}

/-! ### Bytes and words -/

theorem recognises_takeByte (field : String) :
    Recognises levels (takeByte field) fun byte bytes => bytes = [byte] := by
  intro reader _ result after
  unfold takeByte
  cases left : reader.rest with
  | nil =>
    refine ⟨(fun run => nomatch run), ?_⟩
    intro given
    obtain ⟨_, rfl, first, _⟩ := given
    exact absurd (List.prefix_nil.mp first) (List.cons_ne_nil _ _)
  | cons byte rest =>
    refine ⟨fun run => ?_, ?_⟩
    · cases run
      exact ⟨_, rfl, ⟨rest, rfl⟩, rfl⟩
    · intro given
      obtain ⟨_, rfl, first, rfl⟩ := given
      rw [(List.cons_prefix_cons.mp first).1]
      rfl

theorem recognises_take (field : String) (count : Nat) :
    Recognises levels (take field count) fun result bytes =>
      bytes = result ∧ bytes.length = count := by
  intro reader _ result after
  unfold take
  by_cases short : (reader.rest.take count).length < count
  · rw [if_pos short]
    refine ⟨(fun run => nomatch run), ?_⟩
    intro given
    obtain ⟨bytes, ⟨_, width⟩, first, _⟩ := given
    have room := first.length_le
    rw [List.length_take] at short
    omega
  · have width : (reader.rest.take count).length = count := by
      rw [List.length_take] at short ⊢
      omega
    rw [if_neg short]
    refine ⟨fun run => ?_, ?_⟩
    · cases run
      exact ⟨_, ⟨rfl, width⟩, List.take_prefix _ _, by rw [width]⟩
    · intro given
      obtain ⟨bytes, ⟨rfl, rfl⟩, first, rfl⟩ := given
      rw [← List.prefix_iff_eq_take.mp first]

theorem recognises_takeWord (field : String) (width : Nat) :
    Recognises levels (takeWord field width) fun word bytes =>
      bytes.length = width ∧ LittleEndian.decode bytes = word := by
  refine ((recognises_take field width).map LittleEndian.decode).congr fun word bytes => ?_
  refine ⟨?_, fun ⟨size, same⟩ => ⟨bytes, ⟨rfl, size⟩, same⟩⟩
  intro given
  obtain ⟨_, ⟨rfl, size⟩, same⟩ := given
  exact ⟨size, same⟩

/-! ### The fields, as they are written -/

theorem recognises_byte :
    Recognises levels byte fun byte bytes => (Emission.ofByte byte).result = .ok bytes :=
  (recognises_takeByte "u8").congr fun byte bytes => by
    rw [Emission.result_ofByte, Except.ok.injEq, eq_comm]

theorem recognises_bool :
    Recognises levels bool fun truth bytes => (Emission.ofBool truth).result = .ok bytes := by
  have judged : ∀ start byte, Recognises levels
      (if byte = 0 then pure false else if byte = 1 then pure true
        else malformed (.invalidBoolean byte start) : Read Bool)
      fun truth bytes => byte = (if truth then 1 else 0) ∧ bytes = [] := by
    intro start byte
    by_cases zero : byte = 0
    · rw [if_pos zero]
      refine (Recognises.pure false).congr fun truth bytes => and_congr_left fun _ => ?_
      cases truth <;> simp [zero]
    rw [if_neg zero]
    by_cases one : byte = 1
    · rw [if_pos one]
      refine (Recognises.pure true).congr fun truth bytes => and_congr_left fun _ => ?_
      cases truth <;> simp [one]
    · rw [if_neg one]
      refine (Recognises.throw _).congr fun truth bytes => ?_
      cases truth <;> simp [zero, one]
  refine (Recognises.atomic (Recognises.fromOffset fun start =>
    (recognises_takeByte "bool").bind (judged start))).congr fun truth bytes => ?_
  rw [Emission.result_ofBool_iff]
  refine ⟨?_, fun spelled => ⟨_, _, [], rfl, ⟨rfl, rfl⟩, spelled⟩⟩
  intro given
  obtain ⟨_, _, _, rfl, ⟨rfl, rfl⟩, rfl⟩ := given
  rfl

/-- A number of fixed width is read as it is written, if each word of this width is the word of one
number. -/
theorem recognises_word {α : Type} (field : String) {width : Nat} {read : Nat → α}
    {emit : α → Emission} (word_iff : ∀ number bytes, (emit number).result = .ok bytes ↔
      bytes.length = width ∧ read (LittleEndian.decode bytes) = number) :
    Recognises levels (read <$> takeWord field width) fun number bytes =>
      (emit number).result = .ok bytes :=
  ((recognises_takeWord field width).map read).congr fun number bytes => by
    rw [word_iff]
    simp only [and_assoc, exists_and_left, exists_eq_left']

theorem recognises_uint32 :
    Recognises levels uint32 fun number bytes => (Emission.ofUInt32 number).result = .ok bytes :=
  recognises_word "u32" fun number bytes => by
    rw [Emission.ofUInt32, Emission.result_mk, Except.ok.injEq, uint32_word_iff]

theorem recognises_int32 :
    Recognises levels int32 fun number bytes => (Emission.ofInt32 number).result = .ok bytes :=
  recognises_word "i32" fun number bytes => by
    rw [Emission.ofInt32, Emission.result_mk, Except.ok.injEq, int32_word_iff]

theorem recognises_int64 :
    Recognises levels int64 fun number bytes => (Emission.ofInt64 number).result = .ok bytes :=
  recognises_word "i64" fun number bytes => by
    rw [Emission.ofInt64, Emission.result_mk, Except.ok.injEq, int64_word_iff]

theorem recognises_double :
    Recognises levels double fun double bytes => (Emission.ofDouble double).result = .ok bytes :=
  recognises_word "f64" fun double bytes => by
    rw [Emission.ofDouble, Emission.result_mk, Except.ok.injEq, double_word_iff]

/-- The end of a field that a check decides: what it found is the result, or else there is a
fault. -/
theorem recognises_checked {α : Type} {body : Read α} (found : Option α)
    (accepted : ∀ result, found = some result → body = pure result)
    (refused : found = none → ∃ fault, body = throw fault) :
    Recognises levels body fun result bytes => found = some result ∧ bytes = [] := by
  cases found with
  | none =>
    obtain ⟨fault, thrown⟩ := refused rfl
    rw [thrown]
    exact (Recognises.throw fault).congr fun result bytes => by simp
  | some found =>
    rw [accepted found rfl]
    exact (Recognises.pure found).congr fun result bytes => by rw [Option.some.injEq, eq_comm]

theorem recognises_text :
    Recognises levels text fun text bytes => (Emission.ofText text).result = .ok bytes := by
  have found_iff : ∀ bytes text, (Utf8.decode bytes).toOption = some text ↔
      Utf8.decode bytes = .ok text := by
    intro bytes text
    cases Utf8.decode bytes <;> simp [Except.toOption]
  have refused : ∀ bytes, (Utf8.decode bytes).toOption = none →
      ∃ defect, Utf8.decode bytes = .error defect := by
    intro bytes missing
    cases decoded : Utf8.decode bytes with
    | ok text =>
      rw [decoded] at missing
      cases missing
    | error defect => exact ⟨defect, rfl⟩
  refine (Recognises.atomic (Recognises.fromOffset fun start => recognises_uint32.bind fun length =>
    (recognises_take "utf8" length.toNat).bind fun bytes =>
      recognises_checked (Utf8.decode bytes).toOption
        (fun text found => by rw [(found_iff bytes text).mp found])
        (fun missing => by
          obtain ⟨defect, failed⟩ := refused bytes missing
          exact ⟨.wire (.invalidUtf8 start defect.message), by rw [failed]; rfl⟩))).congr
    fun text bytes => ?_
  simp only [found_iff, Utf8.decode_eq_ok_iff]
  rw [Emission.result_ofText_iff]
  refine ⟨?_, ?_⟩
  · intro given
    obtain ⟨length, front, _, word, ⟨_, _, _, ⟨rfl, size⟩, ⟨rfl, rfl⟩, rfl⟩, rfl⟩ := given
    cases word
    rw [size, List.append_nil]
    exact ⟨length.toNat_lt, rfl⟩
  · intro given
    obtain ⟨short, rfl⟩ := given
    have size : (UInt32.ofNat (Utf8.encode text).length).toNat = (Utf8.encode text).length :=
      UInt32.toNat_ofNat_of_lt' short
    refine ⟨UInt32.ofNat (Utf8.encode text).length, _, _, rfl,
      ⟨_, _, [], ⟨rfl, size.symm⟩, ⟨rfl, rfl⟩, rfl⟩, ?_⟩
    rw [Emission.ofUInt32, size, List.append_nil]

theorem recognises_dataType :
    Recognises levels dataType fun type bytes => (Emission.ofDataType type).result = .ok bytes := by
  refine (Recognises.atomic (Recognises.fromOffset fun start => recognises_byte.bind fun tag =>
    recognises_checked (DataType.ofTag? tag) (fun type known => by rw [known])
      (fun unknown => ⟨.wire (.unknownTypeTag tag start), by rw [unknown]; rfl⟩))).congr
    fun type bytes => ?_
  refine ⟨?_, ?_⟩
  · intro given
    obtain ⟨tag, _, _, front, ⟨known, rfl⟩, rfl⟩ := given
    rw [Emission.ofDataType, DataType.tag_of_ofTag? known, List.append_nil]
    exact front
  · intro spelled
    exact ⟨type.tag, bytes, [], spelled, ⟨DataType.ofTag?_tag type, rfl⟩,
      (List.append_nil bytes).symm⟩

theorem recognises_real64 : Recognises levels real64 Real64.Spells := by
  refine (Recognises.fromOffset fun start => recognises_double.bind fun raw =>
    recognises_checked (Real64.ofDouble? raw) (fun number known => by rw [known])
      (fun nan => ⟨.wire (.invalidFloat start), by rw [nan]; rfl⟩)).congr fun number bytes => ?_
  refine ⟨?_, fun ⟨raw, known, spelled⟩ =>
    ⟨raw, bytes, [], spelled, ⟨known, rfl⟩, (List.append_nil bytes).symm⟩⟩
  intro given
  obtain ⟨raw, _, _, front, ⟨known, rfl⟩, rfl⟩ := given
  exact ⟨raw, known, by rwa [List.append_nil]⟩

/-- The content of a value of a type is recognised among the values of this type. -/
theorem recognises_content (type : DataType) :
    Recognises levels (content type) fun value bytes =>
      value.dataType = type ∧ value.ContentSpells bytes := by
  cases type with
  | undefined =>
    refine (Recognises.pure Value.undefined).congr fun value bytes => ?_
    cases value <;>
      simp [Value.dataType, Value.ContentSpells, Emission.ofContent, Emission.nil,
        Emission.result_mk, eq_comm]
  | boolean =>
    refine (recognises_bool.map Value.boolean).congr fun value bytes => ?_
    cases value <;> simp [Value.dataType, Value.ContentSpells, Emission.ofContent]
  | int4 =>
    refine (recognises_int32.map Value.int4).congr fun value bytes => ?_
    cases value <;> simp [Value.dataType, Value.ContentSpells, Emission.ofContent]
  | int8 =>
    refine (recognises_int64.map Value.int8).congr fun value bytes => ?_
    cases value <;> simp [Value.dataType, Value.ContentSpells, Emission.ofContent]
  | float8 =>
    refine (recognises_real64.map Value.float8).congr fun value bytes => ?_
    cases value <;> simp [Value.dataType, Value.ContentSpells]
  | utf8 =>
    refine (recognises_text.map Value.utf8).congr fun value bytes => ?_
    cases value <;> simp [Value.dataType, Value.ContentSpells, Emission.ofContent]

theorem recognises_value : Recognises levels value Value.Spells := by
  refine (Recognises.atomic (recognises_dataType.bind recognises_content)).congr
    fun value bytes => ?_
  refine ⟨?_, ?_⟩
  · intro given
    obtain ⟨type, front, back, tag, ⟨rfl, spelled⟩, rfl⟩ := given
    cases tag
    exact ⟨back, spelled, rfl⟩
  · intro given
    obtain ⟨content, spelled, rfl⟩ := given
    exact ⟨value.dataType, [value.dataType.tag], content, rfl, ⟨rfl, spelled⟩, rfl⟩

end Read

end RowLogic
