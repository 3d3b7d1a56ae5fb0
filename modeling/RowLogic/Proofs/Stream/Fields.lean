/-
**The kinds of field.**

A stream is written and read field by field. `Field` lists the kinds of field that are read whole or
not at all, each with what it holds, what is written for it and how it is read.

* `Field.recognises`: what is read are the spellings of a field, which are what is written for it
  but for the sign of zeros;
* `Field.exists_write_of_spells`: a spelling is as long as what is written;
* `Field.restores`: a field that cannot be read leaves the reader where it was.
-/

import RowLogic.Proofs.Expr.Delimited
import RowLogic.Proofs.Wire.Zeros

namespace RowLogic

/-! ### Reads that go back -/

namespace Read

variable {α β : Type} {body : Read α}

/-- A read that, if it fails, leaves the reader where it was. -/
def Restores (body : Read α) : Prop :=
  ∀ reader fault after, body reader = .error fault after → after = reader

theorem restores_atomic (body : Read α) : Restores (atomic body) := by
  intro reader fault after failed
  cases run : body reader with
  | ok result between =>
    rw [atomic_ok run] at failed
    cases failed
  | error fault' between =>
    rw [atomic_error run] at failed
    cases failed
    rfl

theorem restores_take (field : String) (count : Nat) : Restores (take field count) := by
  intro reader fault after failed
  by_cases room : count ≤ reader.remaining
  · rw [take_ok room] at failed
    cases failed
  · rw [take_short (Nat.lt_of_not_le room)] at failed
    cases failed
    rfl

theorem restores_takeByte (field : String) : Restores (takeByte field) := by
  intro reader fault after failed
  cases left : reader.rest with
  | nil =>
    rw [takeByte_short left] at failed
    cases failed
    rfl
  | cons byte rest =>
    rw [takeByte_ok left] at failed
    cases failed

theorem Restores.map (change : α → β) (restores : Restores body) : Restores (change <$> body) := by
  intro reader fault after failed
  rw [map_eq_bind] at failed
  cases run : body reader with
  | ok result between =>
    rw [bind_ok run] at failed
    cases failed
  | error fault' between =>
    rw [bind_error run] at failed
    cases failed
    exact restores _ _ _ run

end Read

/-! ### Fields -/

/-- The kinds of field. -/
inductive Field where
  | byte
  | bool
  | uint32
  | int32
  | int64
  | double
  | text
  | dataType
  | value
  | connective
deriving DecidableEq

namespace Field

/-- What a field holds. -/
@[reducible] def Content : Field → Type
  | byte => UInt8
  | bool => Bool
  | uint32 => UInt32
  | int32 => Int32
  | int64 => Int64
  | double => Double
  | text => String
  | dataType => DataType
  | value => Value
  | connective => Connective

/-- What is written for a field. -/
def write : (field : Field) → field.Content → Emission
  | byte => Emission.ofByte
  | bool => Emission.ofBool
  | uint32 => Emission.ofUInt32
  | int32 => Emission.ofInt32
  | int64 => Emission.ofInt64
  | double => Emission.ofDouble
  | text => Emission.ofText
  | dataType => Emission.ofDataType
  | value => Emission.ofValue
  | connective => Emission.ofConnective

/-- How a field is read. -/
def read : (field : Field) → Read field.Content
  | byte => Read.byte
  | bool => Read.bool
  | uint32 => Read.uint32
  | int32 => Read.int32
  | int64 => Read.int64
  | double => Read.double
  | text => Read.text
  | dataType => Read.dataType
  | value => Read.value
  | connective => Read.connectiveKind

/-- The texts in a field have lengths that four bytes hold. -/
def Fits : (field : Field) → field.Content → Prop
  | text, content => (Utf8.encode content).length < 0x100000000
  | value, content => content.Fits
  | _, _ => True

/-- The bytes that a field is read from. -/
def Spells : (field : Field) → field.Content → List UInt8 → Prop
  | value, content, bytes => content.Spells bytes
  | field, content, bytes => (field.write content).result = .ok bytes

theorem recognises (field : Field) {levels : Nat} :
    Read.Recognises levels field.read field.Spells := by
  cases field with
  | byte => exact Read.recognises_byte
  | bool => exact Read.recognises_bool
  | uint32 => exact Read.recognises_uint32
  | int32 => exact Read.recognises_int32
  | int64 => exact Read.recognises_int64
  | double => exact Read.recognises_double
  | text => exact Read.recognises_text
  | dataType => exact Read.recognises_dataType
  | value => exact Read.recognises_value
  | connective =>
    refine Read.recognises_connectiveKind.congr fun kind bytes => ?_
    exact Emission.result_ofBool_iff.symm

theorem composed (field : Field) : Read.Composed field.read := by
  cases field with
  | byte => exact Read.composed_byte
  | bool => exact Read.composed_bool
  | uint32 => exact Read.composed_uint32
  | int32 => exact Read.composed_int32
  | int64 => exact Read.composed_int64
  | double => exact Read.composed_double
  | text => exact Read.composed_text
  | dataType => exact Read.composed_dataType
  | value => exact Read.composed_value
  | connective => exact Read.composed_connectiveKind

/-- **A field is read whole or not at all.** -/
theorem restores (field : Field) : Read.Restores field.read := by
  have word : ∀ name width, Read.Restores (Read.takeWord name width) :=
    fun name width => (Read.restores_take name width).map _
  cases field with
  | byte => exact Read.restores_takeByte "u8"
  | bool => exact Read.restores_atomic _
  | uint32 => exact (word "u32" 4).map _
  | int32 => exact (word "i32" 4).map _
  | int64 => exact (word "i64" 8).map _
  | double => exact (word "f64" 8).map _
  | text => exact Read.restores_atomic _
  | dataType => exact Read.restores_atomic _
  | value => exact Read.restores_atomic _
  | connective => exact (Read.restores_atomic _).map _

variable {field : Field} {content : field.Content} {bytes : List UInt8}

/-- What is written is read. -/
theorem spells_of_write (written : (field.write content).result = .ok bytes) :
    field.Spells content bytes := by
  cases field with
  | value => exact Value.spells_of_result written
  | _ => exact written

/-- **What is read could have been written** in as many bytes. -/
theorem exists_write_of_spells (spelled : field.Spells content bytes) :
    ∃ written, (field.write content).result = .ok written ∧ written.length = bytes.length := by
  cases field with
  | value =>
    obtain ⟨written, complete⟩ := Value.exists_of_spells spelled
    exact ⟨written, complete, ((Value.spells_iff complete).mp spelled).1.symm⟩
  | _ => exact ⟨bytes, spelled, rfl⟩

end Field

/-- Only a text that is too long cannot be written. -/
theorem Field.exists_write {field : Field} {content : field.Content}
    (fits : field.Fits content) : ∃ bytes, (field.write content).result = .ok bytes := by
  cases field with
  | text => exact ⟨_, Emission.result_ofText_iff.mpr ⟨fits, rfl⟩⟩
  | value => exact Value.exists_write fits
  | _ => exact ⟨_, rfl⟩

end RowLogic
