/-
**Reading the wire format.**

A reader stands somewhere in a stream of bytes. It knows the bytes that are left, how many it has
consumed, and how deep it has descended into nested structures. A read gives a result or a fault,
and in both cases the reader it leaves behind.

* Every field is read whole or not at all: a field that cannot be read leaves the reader where it
  was (`atomic`).
* The offset that a fault reports is where the field at fault begins.
* Entering a level of nesting fails at the limit (`enter`); what is read inside a level leaves
  that level behind, however it ends (`deeper`).
-/

import RowLogic.Diagnostic.Fault
import RowLogic.Value.Basic

namespace RowLogic

/-- What a decoder accepts from a stream it does not trust. -/
structure DecodeLimits where
  /-- The number of levels of nesting. -/
  maxDepth : Nat := 128
  /-- Bytes may follow the value. -/
  allowTrailing : Bool := false
deriving DecidableEq, Repr, Inhabited

/-- A position in a stream of bytes. -/
structure Reader where
  /-- The bytes that are left. -/
  rest : List UInt8
  /-- The number of bytes consumed. -/
  offset : Nat := 0
  /-- The number of levels entered and not left. -/
  depth : Nat := 0
  limits : DecodeLimits := {}
deriving DecidableEq, Repr, Inhabited

/-- A step of a reader: a result or a fault, and the reader that it leaves behind. -/
abbrev Read (α : Type) := EStateM Fault Reader α

namespace Reader

/-- The number of bytes that are left. -/
def remaining (reader : Reader) : Nat :=
  reader.rest.length

/-- No byte is left. -/
def isEmpty (reader : Reader) : Bool :=
  reader.rest.isEmpty

/-- The reader behind so many more bytes. -/
def advance (reader : Reader) (count : Nat) : Reader :=
  { reader with rest := reader.rest.drop count, offset := reader.offset + count }

/-- The reader one level further out. -/
def leave (reader : Reader) : Reader :=
  { reader with depth := reader.depth - 1 }

end Reader

namespace Read

variable {α : Type}

/-- A fault of the stream, at the reader's own place. -/
def malformed (fault : WireFault) : Read α :=
  throw (.wire fault)

/-- A read that, if it fails, leaves the reader where it was. -/
def atomic (body : Read α) : Read α := fun reader =>
  match body reader with
  | .ok result after => .ok result after
  | .error fault _ => .error fault reader

/-- The number of bytes consumed so far. -/
def offset : Read Nat := fun reader =>
  .ok reader.offset reader

/-- The next bytes of a field. -/
def take (field : String) (count : Nat) : Read (List UInt8) := fun reader =>
  let bytes := reader.rest.take count
  if bytes.length < count then .error (.wire (.truncated field count reader.remaining)) reader
  else .ok bytes (reader.advance count)

/-- The next byte, as a field. -/
def takeByte (field : String) : Read UInt8 := fun reader =>
  match reader.rest with
  | [] => .error (.wire (.truncated field 1 0)) reader
  | byte :: _ => .ok byte (reader.advance 1)

/-- The next little-endian word, as a field. -/
def takeWord (field : String) (width : Nat) : Read Nat :=
  LittleEndian.decode <$> take field width

/-! ### Fields -/

/-- One byte. -/
def byte : Read UInt8 :=
  takeByte "u8"

/-- A boolean, which is zero or one. -/
def bool : Read Bool := atomic do
  let start ← offset
  let byte ← takeByte "bool"
  if byte = 0 then pure false
  else if byte = 1 then pure true
  else malformed (.invalidBoolean byte start)

/-- An unsigned number of four bytes. -/
def uint32 : Read UInt32 :=
  UInt32.ofNat <$> takeWord "u32" 4

/-- A signed number of four bytes. -/
def int32 : Read Int32 :=
  (fun word => (UInt32.ofNat word).toInt32) <$> takeWord "i32" 4

/-- A signed number of eight bytes. -/
def int64 : Read Int64 :=
  (fun word => (UInt64.ofNat word).toInt64) <$> takeWord "i64" 8

/-- A bit pattern of eight bytes, which may be a NaN. -/
def double : Read Double :=
  (fun word => ⟨UInt64.ofNat word⟩) <$> takeWord "f64" 8

/-- A text: its length in bytes, and then so many bytes of UTF-8. -/
def text : Read String := atomic do
  let start ← offset
  let length ← uint32
  let bytes ← take "utf8" length.toNat
  match Utf8.decode bytes with
  | .ok text => pure text
  | .error defect => malformed (.invalidUtf8 start defect.message)

/-- The byte of a type. -/
def dataType : Read DataType := atomic do
  let start ← offset
  let tag ← byte
  match DataType.ofTag? tag with
  | some type => pure type
  | none => malformed (.unknownTypeTag tag start)

/-- A number, which is no NaN. -/
def real64 : Read Real64 := do
  let start ← offset
  let raw ← double
  match Real64.ofDouble? raw with
  | some number => pure number
  | none => malformed (.invalidFloat start)

/-- The content of a value of a type. -/
def content : DataType → Read Value
  | .undefined => pure .undefined
  | .boolean => .boolean <$> bool
  | .int4 => .int4 <$> int32
  | .int8 => .int8 <$> int64
  | .float8 => .float8 <$> real64
  | .utf8 => .utf8 <$> text

/-- A value: the byte of its type, and then its content. -/
def value : Read Value := atomic do
  content (← dataType)

/-! ### Nesting and the end of the stream -/

/-- Descends one level, unless that is one too many. -/
def enter : Read Unit := fun reader =>
  if reader.limits.maxDepth ≤ reader.depth then
    .error (.wire (.nestingTooDeep reader.limits.maxDepth)) reader
  else
    .ok () { reader with depth := reader.depth + 1 }

/-- Ascends one level. -/
def leave : Read Unit := fun reader =>
  .ok () reader.leave

/-- Reads one level deeper and comes back, also after a fault. -/
def deeper (body : Read α) : Read α := fun reader =>
  match enter reader with
  | .error fault reader => .error fault reader
  | .ok _ inside =>
    match body inside with
    | .ok result after => .ok result after.leave
    | .error fault after => .error fault after.leave

/-- Succeeds at the end of the stream, or anywhere if bytes may follow. -/
def finish : Read Unit := fun reader =>
  if !reader.limits.allowTrailing && !reader.isEmpty then
    .error (.wire (.trailingBytes reader.remaining)) reader
  else
    .ok () reader

/-- A read with which the stream has to end. -/
def complete (body : Read α) : Read α := do
  let result ← body
  finish
  pure result

/-- Reads one value from a whole stream. -/
def whole (body : Read α) (bytes : List UInt8) (limits : DecodeLimits) : Except Fault α :=
  match complete body { rest := bytes, limits := limits } with
  | .ok result _ => .ok result
  | .error fault _ => .error fault

end Read

end RowLogic
