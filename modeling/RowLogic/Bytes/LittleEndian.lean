/-
**Little-endian words.**

A natural number is written as a fixed number of bytes, the least significant first.

* `length_encode`: a word has exactly its width;
* `encode_decode`: every list of bytes is the word of the number it denotes.
-/

namespace RowLogic.LittleEndian

/-- The lowest `width` bytes of a number, the least significant first. -/
def encode : Nat → Nat → List UInt8
  | 0, _ => []
  | width + 1, number => UInt8.ofNat (number % 256) :: encode width (number / 256)

/-- The number that a list of bytes denotes, the least significant first. -/
def decode : List UInt8 → Nat
  | [] => 0
  | byte :: bytes => byte.toNat + 256 * decode bytes

@[simp] theorem length_encode (width number : Nat) : (encode width number).length = width := by
  induction width generalizing number with
  | zero => rfl
  | succ width ih => simp [encode, ih]

theorem encode_decode (bytes : List UInt8) : encode bytes.length (decode bytes) = bytes := by
  induction bytes with
  | nil => rfl
  | cons byte bytes ih =>
    have small : byte.toNat < 256 := byte.toNat_lt
    have head : (byte.toNat + 256 * decode bytes) % 256 = byte.toNat := by omega
    have tail : (byte.toNat + 256 * decode bytes) / 256 = decode bytes := by omega
    rw [List.length_cons, encode, decode, head, tail, ih, UInt8.ofNat_toNat]

end RowLogic.LittleEndian
