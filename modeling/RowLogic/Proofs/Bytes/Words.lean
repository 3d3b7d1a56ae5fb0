/-
**Words and the numbers they denote.**

`LittleEndian.encode width` and `LittleEndian.decode` are inverse to each other between the numbers
below `256 ^ width` and the lists of `width` bytes:

* `decode_encode`: a number that fits its width is read back;
* `encode_eq_iff`: the only list of bytes that is the word of a number is the one of the right
  width that denotes it.

The integers and the bit patterns of fixed size are the numbers below `256 ^ 4` and `256 ^ 8`, so
each of them has one word, and each word of their width stands for one of them.
-/

import Mathlib.Algebra.Group.Nat.Defs
import RowLogic.Real64.Basic

namespace RowLogic

namespace LittleEndian

/-- A list of bytes denotes a number that fits its length. -/
theorem decode_lt (bytes : List UInt8) : decode bytes < 256 ^ bytes.length := by
  induction bytes with
  | nil => exact Nat.one_pos
  | cons byte bytes ih =>
    have small : byte.toNat < 256 := byte.toNat_lt
    rw [decode, List.length_cons, Nat.pow_succ]
    omega

/-- **A number that fits its width is read back.** -/
theorem decode_encode (width number : Nat) (fits : number < 256 ^ width) :
    decode (encode width number) = number := by
  induction width generalizing number with
  | zero =>
    rw [Nat.pow_zero] at fits
    rw [encode, decode]
    omega
  | succ width ih =>
    rw [Nat.pow_succ] at fits
    have rest : number / 256 < 256 ^ width := by omega
    have byte : (UInt8.ofNat (number % 256)).toNat = number % 256 :=
      UInt8.toNat_ofNat_of_lt' (Nat.mod_lt _ (by decide))
    rw [encode, decode, ih _ rest, byte]
    omega

/-- **The word of a number** is the list of bytes of the right width that denotes it. -/
theorem encode_eq_iff {width number : Nat} (fits : number < 256 ^ width) (bytes : List UInt8) :
    encode width number = bytes ↔ bytes.length = width ∧ decode bytes = number := by
  constructor
  · rintro rfl
    exact ⟨length_encode width number, decode_encode width number fits⟩
  · intro given
    obtain ⟨rfl, rfl⟩ := given
    exact encode_decode bytes

end LittleEndian

/-! ### Words of fixed size -/

/-- A word of four bytes stands for one unsigned number. -/
theorem uint32_word_iff (number : UInt32) (bytes : List UInt8) :
    LittleEndian.encode 4 number.toNat = bytes ↔
      bytes.length = 4 ∧ UInt32.ofNat (LittleEndian.decode bytes) = number := by
  rw [LittleEndian.encode_eq_iff number.toNat_lt]
  refine and_congr_right fun width => ?_
  have bound := LittleEndian.decode_lt bytes
  rw [width] at bound
  rw [← UInt32.toNat_inj, UInt32.toNat_ofNat_of_lt' bound]

/-- A word of eight bytes stands for one unsigned number. -/
theorem uint64_word_iff (number : UInt64) (bytes : List UInt8) :
    LittleEndian.encode 8 number.toNat = bytes ↔
      bytes.length = 8 ∧ UInt64.ofNat (LittleEndian.decode bytes) = number := by
  rw [LittleEndian.encode_eq_iff number.toNat_lt]
  refine and_congr_right fun width => ?_
  have bound := LittleEndian.decode_lt bytes
  rw [width] at bound
  rw [← UInt64.toNat_inj, UInt64.toNat_ofNat_of_lt' bound]

/-- A word of four bytes stands for one signed number. -/
theorem int32_word_iff (number : Int32) (bytes : List UInt8) :
    LittleEndian.encode 4 number.toUInt32.toNat = bytes ↔
      bytes.length = 4 ∧ (UInt32.ofNat (LittleEndian.decode bytes)).toInt32 = number := by
  rw [uint32_word_iff]
  refine and_congr_right fun _ => ⟨fun same => ?_, fun same => ?_⟩
  · rw [same, Int32.toInt32_toUInt32]
  · rw [← same, UInt32.toUInt32_toInt32]

/-- A word of eight bytes stands for one signed number. -/
theorem int64_word_iff (number : Int64) (bytes : List UInt8) :
    LittleEndian.encode 8 number.toUInt64.toNat = bytes ↔
      bytes.length = 8 ∧ (UInt64.ofNat (LittleEndian.decode bytes)).toInt64 = number := by
  rw [uint64_word_iff]
  refine and_congr_right fun _ => ⟨fun same => ?_, fun same => ?_⟩
  · rw [same, Int64.toInt64_toUInt64]
  · rw [← same, UInt64.toUInt64_toInt64]

/-- A word of eight bytes stands for one bit pattern. -/
theorem double_word_iff (double : Double) (bytes : List UInt8) :
    LittleEndian.encode 8 double.bits.toNat = bytes ↔
      bytes.length = 8 ∧ (⟨UInt64.ofNat (LittleEndian.decode bytes)⟩ : Double) = double := by
  rw [uint64_word_iff]
  exact and_congr_right fun _ => ⟨fun same => by rw [same], fun same => by rw [← same]⟩

end RowLogic
