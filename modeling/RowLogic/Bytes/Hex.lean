/-
**Hexadecimal text.**

Bytes are shown as pairs of lower-case digits, the high half first; both cases are read.
-/

import RowLogic.Bytes.LittleEndian

namespace RowLogic.Hex

/-- The lower-case digit of a number below sixteen. -/
def digit (number : Nat) : Char :=
  if number < 10 then Char.ofNat (48 + number) else Char.ofNat (87 + number)

/-- The number that a digit of either case stands for. -/
def digit? (char : Char) : Option Nat :=
  if '0' ≤ char ∧ char ≤ '9' then some (char.toNat - 48)
  else if 'a' ≤ char ∧ char ≤ 'f' then some (char.toNat - 87)
  else if 'A' ≤ char ∧ char ≤ 'F' then some (char.toNat - 55)
  else none

/-- The two digits of a byte. -/
def ofByte (byte : UInt8) : List Char :=
  [digit (byte.toNat / 16), digit (byte.toNat % 16)]

/-- The digits of a list of bytes. -/
def encode (bytes : List UInt8) : String :=
  String.ofList (bytes.flatMap ofByte)

/-- The bytes that pairs of digits stand for; a lone or a foreign digit is refused. -/
def decodeChars? : List Char → Option (List UInt8)
  | [] => some []
  | [_] => none
  | high :: low :: chars => do
    let high ← digit? high
    let low ← digit? low
    let bytes ← decodeChars? chars
    some (UInt8.ofNat (16 * high + low) :: bytes)

/-- Reads the bytes of a text of digits. -/
def decode? (text : String) : Option (List UInt8) :=
  decodeChars? text.toList

/-- Reads a word written with its most significant digit first. -/
def word? (text : String) : Option Nat :=
  text.toList.foldlM (fun number char => (digit? char).map (16 * number + ·)) 0

/-- The sixteen digits of a 64-bit word, the most significant first. -/
def ofWord (word : UInt64) : String :=
  encode (LittleEndian.encode 8 word.toNat).reverse

end RowLogic.Hex
