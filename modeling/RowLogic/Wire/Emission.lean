/-
**Writing the wire format.**

Writing is not all or nothing: what a value appends before its writing fails stays in the buffer.
So a value is written as an emission, the bytes that it appends and the fault that stopped it, if
one did; an emission says nothing about the bytes that stand before it.

* `append_assoc`, `nil_append`, `append_nil`: emissions compose like the bytes they append;
* a fault keeps everything that follows it from being written (`append_of_fault`).

Integers are little endian. A text is its length in bytes, as four bytes, and then its UTF-8
bytes. A value is the byte of its type and then its content; undefined has no content.
-/

import RowLogic.Diagnostic.Fault
import RowLogic.Value.Basic

namespace RowLogic

/-- The bytes that are appended, and the fault that then stopped the writing. -/
structure Emission where
  bytes : List UInt8
  fault : Option Fault := none
deriving DecidableEq

namespace Emission

/-- Nothing is written. -/
def nil : Emission := ⟨[], none⟩

/-- Nothing is written because of a fault. -/
def fail (fault : Fault) : Emission := ⟨[], some fault⟩

/-- The second emission after the first, unless that one was stopped. -/
def followedBy (first second : Emission) : Emission :=
  match first.fault with
  | some _ => first
  | none => ⟨first.bytes ++ second.bytes, second.fault⟩

instance : Append Emission := ⟨followedBy⟩

/-- The bytes of a complete emission. -/
def result (emission : Emission) : Except Fault (List UInt8) :=
  match emission.fault with
  | some fault => .error fault
  | none => .ok emission.bytes

theorem append_of_fault {first : Emission} {fault : Fault} (stopped : first.fault = some fault)
    (second : Emission) : first ++ second = first := by
  show first.followedBy second = first
  simp [followedBy, stopped]

theorem append_of_complete {first : Emission} (complete : first.fault = none)
    (second : Emission) : first ++ second = ⟨first.bytes ++ second.bytes, second.fault⟩ := by
  show first.followedBy second = _
  simp [followedBy, complete]

@[simp] theorem nil_append (emission : Emission) : nil ++ emission = emission :=
  append_of_complete rfl emission

@[simp] theorem append_nil (emission : Emission) : emission ++ nil = emission := by
  cases stopped : emission.fault with
  | some fault => exact append_of_fault stopped nil
  | none =>
    rw [append_of_complete stopped, nil, List.append_nil, ← stopped]

theorem append_assoc (first second third : Emission) :
    first ++ second ++ third = first ++ (second ++ third) := by
  show (first.followedBy second).followedBy third = first.followedBy (second.followedBy third)
  cases first_stopped : first.fault <;> cases second_stopped : second.fault <;>
    simp [followedBy, first_stopped, second_stopped]

end Emission

/-- A buffer that only grows. -/
structure Writer where
  bytes : List UInt8 := []
deriving DecidableEq, Inhabited

namespace Writer

/-- The number of bytes written. -/
def length (writer : Writer) : Nat :=
  writer.bytes.length

/-- The buffer after an emission, whether or not it was stopped. -/
def write (writer : Writer) (emission : Emission) : Writer :=
  ⟨writer.bytes ++ emission.bytes⟩

end Writer

/-! ### Fields -/

namespace Emission

/-- One byte. -/
def ofByte (byte : UInt8) : Emission :=
  ⟨[byte], none⟩

/-- A boolean is one byte, zero or one. -/
def ofBool (truth : Bool) : Emission :=
  ofByte (if truth then 1 else 0)

/-- An unsigned number of four bytes. -/
def ofUInt32 (number : UInt32) : Emission :=
  ⟨LittleEndian.encode 4 number.toNat, none⟩

/-- A signed number of four bytes, in two's complement. -/
def ofInt32 (number : Int32) : Emission :=
  ⟨LittleEndian.encode 4 number.toUInt32.toNat, none⟩

/-- A signed number of eight bytes, in two's complement. -/
def ofInt64 (number : Int64) : Emission :=
  ⟨LittleEndian.encode 8 number.toUInt64.toNat, none⟩

/-- The eight bytes of a bit pattern. -/
def ofDouble (double : Double) : Emission :=
  ⟨LittleEndian.encode 8 double.bits.toNat, none⟩

/-- The length of a text, if four bytes can hold it. -/
def ofLength (length : Nat) : Emission :=
  if length < 0x100000000 then ofUInt32 (UInt32.ofNat length) else fail (.textTooLong length)

/-- The length of a text in bytes, and then the bytes. -/
def ofText (text : String) : Emission :=
  let bytes := Utf8.encode text
  ofLength bytes.length ++ ⟨bytes, none⟩

/-- The byte of a type. -/
def ofDataType (type : DataType) : Emission :=
  ofByte type.tag

/-- The content of a value, without its type. -/
def ofContent : Value → Emission
  | .undefined => nil
  | .boolean truth => ofBool truth
  | .int4 number => ofInt32 number
  | .int8 number => ofInt64 number
  | .float8 number => ofDouble number.double
  | .utf8 text => ofText text

/-- The byte of a value's type, and then its content. -/
def ofValue (value : Value) : Emission :=
  ofDataType value.dataType ++ ofContent value

end Emission

end RowLogic
