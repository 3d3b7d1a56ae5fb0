/-
**What a diagnostic tells.**

The reader of a diagnostic has its code and its message. The message of a fault is that of its own
notice (`Fault.tells`), and a byte in it stands in base sixteen, in two digits (`hexText_eq`).
-/

import RowLogic.Diagnostic.Fault

namespace RowLogic

/-- The diagnostic has this code and this message, and names no cause. -/
structure Diagnostic.Tells (diagnostic : Diagnostic) (code message : String) : Prop where
  code_eq : diagnostic.head.code = code
  message_eq : diagnostic.head.message = message
  causes_eq : diagnostic.causes = []

/-- A fault is reported by its own notice alone. -/
theorem Fault.tells (fault : Fault) :
    fault.diagnostic.Tells fault.notice.code fault.notice.message :=
  ⟨rfl, rfl, rfl⟩

/-- A byte in base sixteen, in two digits. -/
def hexadecimal (byte : UInt8) : String :=
  "0x" ++ String.ofList ((Nat.toDigits 16 byte.toNat).leftpad 2 '0')

theorem Hex.digit_eq {number : Nat} (small : number < 16) : digit number = number.digitChar := by
  have table : ∀ number < 16, digit number = number.digitChar := by decide
  exact table number small

/-- The digits of a byte are those of its number, behind a zero if there is only one. -/
theorem Hex.ofByte_eq (byte : UInt8) :
    ofByte byte = (Nat.toDigits 16 byte.toNat).leftpad 2 '0' := by
  have bound : byte.toNat < 256 := byte.toNat_lt
  have low := digit_eq (Nat.mod_lt byte.toNat (by decide : 0 < 16))
  by_cases single : byte.toNat < 16
  · rw [Nat.toDigits_of_lt_base single, ofByte, low, Nat.div_eq_of_lt single,
      Nat.mod_eq_of_lt single]
    rfl
  · have high := digit_eq (Nat.div_lt_of_lt_mul bound : byte.toNat / 16 < 16)
    rw [Nat.toDigits_of_base_le (by decide) (Nat.le_of_not_lt single),
      Nat.toDigits_of_lt_base (Nat.div_lt_of_lt_mul bound), ofByte, low, high]
    rfl

/-- **A byte is shown as its number** in base sixteen. -/
theorem hexText_eq (byte : UInt8) : hexText byte = hexadecimal byte := by
  rw [hexText, hexadecimal, Hex.ofByte_eq]

end RowLogic
