/-
**What a fault says.**

A fault of a decoder names bytes, a place, or how many bytes are missing. What its diagnostic says
of them is so: `Fault.TrueAt` compares the message, word for word, with the input and the place
where the field at fault begins. The place is the reader's own, except that a value has its content
behind its type, and a text its bytes behind their number (`Fault.InValue`).

* `bool_error`, `dataType_error`, `real64_error`, `text_error`, `value_error`: all faults of a
  field, and their truth.
-/

import RowLogic.Expr.Encoding
import RowLogic.Proofs.Bytes.Defects
import RowLogic.Proofs.Diagnostic.Messages
import RowLogic.Proofs.Real64.Patterns
import RowLogic.Proofs.Wire.Composition
import RowLogic.Proofs.Wire.Fields

namespace RowLogic

/-- **What the diagnostic of a fault says is so** of the field that begins at `start`. -/
inductive Fault.TrueAt (input : List UInt8) (start : Nat) (diagnostic : Diagnostic) : Fault → Prop
  /-- Just so many bytes are left from the field on, and it needs more. -/
  | truncated {field : String} {needed remaining : Nat}
    (tells : diagnostic.Tells "WIRE_001" ("Unexpected end of input while reading " ++ field ++
      ": needed " ++ toString needed ++ " byte(s), " ++ toString remaining ++ " remaining"))
    (left : start + remaining = input.length) (short : remaining < needed) :
    TrueAt input start diagnostic (.wire (.truncated field needed remaining))
  /-- The byte is there, and it is neither zero nor one. -/
  | invalidBoolean {byte : UInt8}
    (tells : diagnostic.Tells "WIRE_002" ("Invalid boolean byte " ++ hexadecimal byte ++
      " at offset " ++ toString start ++ ", expected 0x00 or 0x01"))
    (found : input[start]? = some byte) (not_zero : byte ≠ 0) (not_one : byte ≠ 1) :
    TrueAt input start diagnostic (.wire (.invalidBoolean byte start))
  /-- The byte is there, and it stands for no type. -/
  | unknownTypeTag {tag : UInt8}
    (tells : diagnostic.Tells "WIRE_003" ("Unknown type tag " ++ hexadecimal tag ++
      " at offset " ++ toString start))
    (found : input[start]? = some tag) (unknown : ∀ type : DataType, type.tag ≠ tag) :
    TrueAt input start diagnostic (.wire (.unknownTypeTag tag start))
  /-- A length and so many bytes are there, and the bytes are those of no text, for the reason that
  is given. -/
  | invalidUtf8 {bytes : List UInt8} {index : Nat} {reason : String}
    (tells : diagnostic.Tells "WIRE_004" ("Invalid UTF-8 text at offset " ++ toString start ++
      ": " ++ reason))
    (short : bytes.length < 0x100000000)
    (found : LittleEndian.encode 4 bytes.length ++ bytes <+: input.drop start)
    (invalid : ∀ text, Utf8.encode text ≠ bytes) (explained : Utf8.Explains bytes index reason) :
    TrueAt input start diagnostic (.wire (.invalidUtf8 start reason))
  /-- The byte is there, and it stands for no kind of expression. -/
  | unknownExpressionTag {tag : UInt8}
    (tells : diagnostic.Tells "WIRE_007" ("Unknown expression tag " ++ hexadecimal tag ++
      " at offset " ++ toString start))
    (found : input[start]? = some tag) (unknown : ∀ kind : ExprTag, kind.byte ≠ tag) :
    TrueAt input start diagnostic (.unknownExpressionTag tag start)
  /-- The bits of a NaN are there. -/
  | invalidFloat {double : Double}
    (tells : diagnostic.Tells "WIRE_008" ("NaN float at offset " ++ toString start))
    (found : LittleEndian.encode 8 double.bits.toNat <+: input.drop start)
    (nan : double.isNaN = true) : TrueAt input start diagnostic (.wire (.invalidFloat start))

/-- The faults of a value, and how far into it the field begins that they are about. -/
inductive Fault.InValue : Nat → Fault → Prop where
  | typeMissing : InValue 0 (.wire (.truncated "u8" 1 0))
  | typeUnknown (tag : UInt8) (start : Nat) : InValue 0 (.wire (.unknownTypeTag tag start))
  | booleanMissing : InValue 1 (.wire (.truncated "bool" 1 0))
  | booleanInvalid (byte : UInt8) (start : Nat) : InValue 1 (.wire (.invalidBoolean byte start))
  | int4Short (remaining : Nat) : InValue 1 (.wire (.truncated "i32" 4 remaining))
  | int8Short (remaining : Nat) : InValue 1 (.wire (.truncated "i64" 8 remaining))
  | float8Short (remaining : Nat) : InValue 1 (.wire (.truncated "f64" 8 remaining))
  | float8Invalid (start : Nat) : InValue 1 (.wire (.invalidFloat start))
  | lengthShort (remaining : Nat) : InValue 1 (.wire (.truncated "u32" 4 remaining))
  | textInvalid (start : Nat) (reason : String) : InValue 1 (.wire (.invalidUtf8 start reason))
  | textShort (needed remaining : Nat) : InValue 5 (.wire (.truncated "utf8" needed remaining))

/-- The codes of what can be said of a field. -/
theorem Fault.TrueAt.code_mem {input : List UInt8} {start : Nat} {diagnostic : Diagnostic}
    {fault : Fault} (holds : fault.TrueAt input start diagnostic) :
    diagnostic.head.code ∈
      ["WIRE_001", "WIRE_002", "WIRE_003", "WIRE_004", "WIRE_007", "WIRE_008"] := by
  cases holds with
  | truncated tells | invalidBoolean tells | unknownTypeTag tells | invalidUtf8 tells
  | unknownExpressionTag tells | invalidFloat tells =>
    rw [tells.code_eq]
    decide

/-! ### Readers of an input -/

/-- The reader stands within an input. -/
structure Reader.Over (input : List UInt8) (reader : Reader) : Prop where
  offset_le : reader.offset ≤ input.length
  rest_eq : reader.rest = input.drop reader.offset

namespace Reader

variable {input : List UInt8} {reader : Reader}

theorem Over.start (input : List UInt8) (limits : DecodeLimits) :
    Over input { rest := input, limits := limits } :=
  ⟨Nat.zero_le _, rfl⟩

theorem Over.offset_add_remaining (placed : reader.Over input) :
    reader.offset + reader.remaining = input.length := by
  rw [remaining, placed.rest_eq, List.length_drop]
  exact Nat.add_sub_of_le placed.offset_le

theorem Over.advance {count : Nat} (placed : reader.Over input)
    (within : count ≤ reader.remaining) :
    (reader.advance count).Over input := by
  have size := placed.offset_add_remaining
  refine ⟨?_, ?_⟩
  · show reader.offset + count ≤ input.length
    omega
  · show reader.rest.drop count = input.drop (reader.offset + count)
    rw [placed.rest_eq, List.drop_drop]

theorem Over.getElem? {byte : UInt8} {rest : List UInt8} (placed : reader.Over input)
    (left : reader.rest = byte :: rest) : input[reader.offset]? = some byte := by
  rw [← List.head?_drop, ← placed.rest_eq, left]
  rfl

end Reader

namespace Read

variable {α β : Type} {body : Read α} {input : List UInt8} {reader after : Reader} {fault : Fault}

/-! ### Failed reads, taken apart -/

theorem bind_error_iff {next : α → Read β} :
    (body >>= next) reader = .error fault after ↔
      body reader = .error fault after ∨
        ∃ middle between, body reader = .ok middle between ∧
          next middle between = .error fault after := by
  cases run : body reader with
  | ok middle between =>
    rw [bind_ok run]
    constructor
    · exact fun failed => Or.inr ⟨middle, between, rfl, failed⟩
    · intro given
      rcases given with impossible | ⟨_, _, same, failed⟩
      · cases impossible
      · cases same
        exact failed
  | error fault' between =>
    rw [bind_error run]
    constructor
    · intro failed
      cases failed
      exact Or.inl rfl
    · intro given
      rcases given with same | ⟨_, _, impossible, _⟩
      · cases same
        rfl
      · cases impossible

theorem map_error_iff {change : α → β} :
    (change <$> body) reader = .error fault after ↔ body reader = .error fault after := by
  rw [map_eq_bind, bind_error_iff]
  refine ⟨?_, Or.inl⟩
  intro given
  rcases given with failed | ⟨_, _, _, impossible⟩
  · exact failed
  · cases impossible

theorem exists_of_atomic_error (failed : atomic body reader = .error fault after) :
    ∃ between, body reader = .error fault between := by
  cases run : body reader with
  | ok result between =>
    rw [atomic_ok run] at failed
    cases failed
  | error fault' between =>
    rw [atomic_error run] at failed
    cases failed
    exact ⟨between, rfl⟩

theorem takeByte_ok_iff {field : String} {byte : UInt8} :
    takeByte field reader = .ok byte after ↔
      (∃ rest, reader.rest = byte :: rest) ∧ after = reader.advance 1 := by
  rw [recognises_takeByte field reader rfl]
  constructor
  · intro given
    obtain ⟨_, rfl, ⟨rest, begins⟩, moved⟩ := given
    exact ⟨⟨rest, begins.symm⟩, moved⟩
  · intro given
    obtain ⟨⟨rest, left⟩, moved⟩ := given
    exact ⟨[byte], rfl, ⟨rest, left.symm⟩, moved⟩

/-! ### The faults of the fields -/

theorem takeByte_error {field : String} (placed : reader.Over input)
    (failed : takeByte field reader = .error fault after) :
    fault = .wire (.truncated field 1 0) ∧
      fault.TrueAt input reader.offset fault.diagnostic := by
  cases left : reader.rest with
  | cons byte rest =>
    rw [takeByte_ok left] at failed
    cases failed
  | nil =>
    rw [takeByte_short left] at failed
    cases failed
    have size := placed.offset_add_remaining
    rw [Reader.remaining, left] at size
    exact ⟨rfl, .truncated (Fault.tells _) size Nat.one_pos⟩

theorem take_error {field : String} {count : Nat} (placed : reader.Over input)
    (failed : take field count reader = .error fault after) :
    fault = .wire (.truncated field count reader.remaining) ∧
      fault.TrueAt input reader.offset fault.diagnostic := by
  by_cases room : count ≤ reader.remaining
  · rw [take_ok room] at failed
    cases failed
  · rw [take_short (Nat.lt_of_not_le room)] at failed
    cases failed
    exact ⟨rfl, .truncated (Fault.tells _) placed.offset_add_remaining (Nat.lt_of_not_le room)⟩

/-- A number of fixed width. -/
theorem word_error {read : Nat → α} {field : String} {width : Nat} (placed : reader.Over input)
    (failed : (read <$> takeWord field width) reader = .error fault after) :
    fault = .wire (.truncated field width reader.remaining) ∧
      fault.TrueAt input reader.offset fault.diagnostic :=
  take_error placed (map_error_iff.mp (map_error_iff.mp failed))

theorem bool_error (placed : reader.Over input) (failed : bool reader = .error fault after) :
    (fault = .wire (.truncated "bool" 1 0) ∨
        ∃ byte, fault = .wire (.invalidBoolean byte reader.offset)) ∧
      fault.TrueAt input reader.offset fault.diagnostic := by
  obtain ⟨between, run⟩ := exists_of_atomic_error failed
  rcases bind_error_iff.mp run with impossible | ⟨start, place, begun, run'⟩
  · cases impossible
  cases begun
  rcases bind_error_iff.mp run' with short | ⟨byte, inner, taken, judged⟩
  · obtain ⟨same, holds⟩ := takeByte_error placed short
    exact ⟨Or.inl same, holds⟩
  obtain ⟨⟨rest, left⟩, rfl⟩ := takeByte_ok_iff.mp taken
  by_cases zero : byte = 0
  · rw [if_pos zero] at judged
    cases judged
  rw [if_neg zero] at judged
  by_cases one : byte = 1
  · rw [if_pos one] at judged
    cases judged
  · rw [if_neg one] at judged
    cases judged
    refine ⟨Or.inr ⟨byte, rfl⟩, .invalidBoolean ?_ (placed.getElem? left) zero one⟩
    rw [← hexText_eq]
    exact Fault.tells _

theorem dataType_error (placed : reader.Over input)
    (failed : dataType reader = .error fault after) :
    (fault = .wire (.truncated "u8" 1 0) ∨
        ∃ tag, fault = .wire (.unknownTypeTag tag reader.offset)) ∧
      fault.TrueAt input reader.offset fault.diagnostic := by
  obtain ⟨between, run⟩ := exists_of_atomic_error failed
  rcases bind_error_iff.mp run with impossible | ⟨start, place, begun, run'⟩
  · cases impossible
  cases begun
  rcases bind_error_iff.mp run' with short | ⟨tag, inner, taken, judged⟩
  · obtain ⟨same, holds⟩ := takeByte_error placed short
    exact ⟨Or.inl same, holds⟩
  obtain ⟨⟨rest, left⟩, rfl⟩ := takeByte_ok_iff.mp taken
  cases known : DataType.ofTag? tag with
  | some type =>
    rw [known] at judged
    cases judged
  | none =>
    rw [known] at judged
    cases judged
    refine ⟨Or.inr ⟨tag, rfl⟩, .unknownTypeTag ?_ (placed.getElem? left) ?_⟩
    · rw [← hexText_eq]
      exact Fault.tells _
    · rintro type rfl
      rw [DataType.ofTag?_tag] at known
      cases known

theorem real64_error (placed : reader.Over input) (failed : real64 reader = .error fault after) :
    (fault = .wire (.truncated "f64" 8 reader.remaining) ∨
        fault = .wire (.invalidFloat reader.offset)) ∧
      fault.TrueAt input reader.offset fault.diagnostic := by
  rcases bind_error_iff.mp failed with impossible | ⟨start, place, begun, run⟩
  · cases impossible
  cases begun
  rcases bind_error_iff.mp run with short | ⟨raw, inner, taken, judged⟩
  · obtain ⟨same, holds⟩ := word_error placed short
    exact ⟨Or.inl same, holds⟩
  obtain ⟨bytes, spelled, begins, rfl⟩ := (recognises_double reader rfl raw inner).mp taken
  cases spelled
  cases number : Real64.ofDouble? raw with
  | some _ =>
    rw [number] at judged
    cases judged
  | none =>
    rw [number] at judged
    cases judged
    have nan := Real64.ofDouble?_eq_none_iff.mp number
    exact ⟨Or.inr rfl, .invalidFloat (Fault.tells _) (placed.rest_eq ▸ begins) nan⟩

/-- Of a text, first the length may be at fault, then the number of its bytes, and then these. -/
theorem text_error (placed : reader.Over input) (failed : text reader = .error fault after) :
    ((fault = .wire (.truncated "u32" 4 reader.remaining) ∨
          ∃ reason, fault = .wire (.invalidUtf8 reader.offset reason)) ∧
        fault.TrueAt input reader.offset fault.diagnostic) ∨
      (∃ needed remaining, fault = .wire (.truncated "utf8" needed remaining)) ∧
        fault.TrueAt input (reader.offset + 4) fault.diagnostic := by
  obtain ⟨between, run⟩ := exists_of_atomic_error failed
  rcases bind_error_iff.mp run with impossible | ⟨start, place, begun, run'⟩
  · cases impossible
  cases begun
  rcases bind_error_iff.mp run' with short | ⟨length, inner, taken, run''⟩
  · obtain ⟨same, holds⟩ := word_error placed short
    exact Or.inl ⟨Or.inl same, holds⟩
  obtain ⟨_, spelled, length_begins, rfl⟩ := (recognises_uint32 reader rfl length inner).mp taken
  cases spelled
  have inner_over := placed.advance length_begins.length_le
  rcases bind_error_iff.mp run'' with short | ⟨bytes, last, taken', judged⟩
  · obtain ⟨same, holds⟩ := take_error inner_over short
    exact Or.inr ⟨⟨_, _, same⟩, holds⟩
  obtain ⟨content, ⟨rfl, size⟩, content_begins, rfl⟩ :=
    (recognises_take "utf8" length.toNat _ rfl bytes last).mp taken'
  cases valid : Utf8.decode content with
  | ok text =>
    rw [valid] at judged
    cases judged
  | error defect =>
    rw [valid] at judged
    cases judged
    refine Or.inl ⟨Or.inr ⟨_, rfl⟩, .invalidUtf8 (Fault.tells _) (size ▸ length.toNat_lt) ?_ ?_
      (Utf8.explains valid)⟩
    · rw [← placed.rest_eq, size]
      exact append_prefix_iff.mpr ⟨length_begins, content_begins⟩
    · intro text same
      rw [Utf8.decode_eq_ok_iff.mpr same] at valid
      cases valid

/-- **All faults of a value**, where in it they arise, and that they are true. -/
theorem value_error (placed : reader.Over input) (failed : value reader = .error fault after) :
    ∃ delay, fault.InValue delay ∧
      fault.TrueAt input (reader.offset + delay) fault.diagnostic := by
  obtain ⟨between, run⟩ := exists_of_atomic_error failed
  rcases bind_error_iff.mp run with untyped | ⟨type, inner, typed, content_failed⟩
  · obtain ⟨rfl | ⟨tag, rfl⟩, holds⟩ := dataType_error placed untyped
    · exact ⟨0, .typeMissing, holds⟩
    · exact ⟨0, .typeUnknown _ _, holds⟩
  obtain ⟨_, spelled, begins, rfl⟩ := (recognises_dataType reader rfl type inner).mp typed
  cases spelled
  have content_over : (reader.advance 1).Over input := placed.advance begins.length_le
  cases type with
  | undefined => cases content_failed
  | boolean =>
    obtain ⟨rfl | ⟨byte, rfl⟩, holds⟩ := bool_error content_over (map_error_iff.mp content_failed)
    · exact ⟨1, .booleanMissing, holds⟩
    · exact ⟨1, .booleanInvalid _ _, holds⟩
  | int4 =>
    obtain ⟨rfl, holds⟩ := word_error content_over (map_error_iff.mp content_failed)
    exact ⟨1, .int4Short _, holds⟩
  | int8 =>
    obtain ⟨rfl, holds⟩ := word_error content_over (map_error_iff.mp content_failed)
    exact ⟨1, .int8Short _, holds⟩
  | float8 =>
    obtain ⟨rfl | rfl, holds⟩ := real64_error content_over (map_error_iff.mp content_failed)
    · exact ⟨1, .float8Short _, holds⟩
    · exact ⟨1, .float8Invalid _, holds⟩
  | utf8 =>
    rcases text_error content_over (map_error_iff.mp content_failed) with
      ⟨rfl | ⟨reason, rfl⟩, holds⟩ | ⟨⟨needed, remaining, rfl⟩, holds⟩
    · exact ⟨1, .lengthShort _, holds⟩
    · exact ⟨1, .textInvalid _ _, holds⟩
    · exact ⟨5, .textShort _ _, holds⟩

end Read

end RowLogic
