/-
**Text as UTF-8 bytes.**

A text is written as the UTF-8 bytes of its characters. Reading goes through the bytes from left
to right and, where they stop being UTF-8, says where and how:

* the bytes end inside a sequence that could still be completed, or
* the first so many bytes of a sequence can be continued by no byte that follows them.

A sequence is judged by its leading byte, which fixes how many bytes follow and the range of the
first of them; that range is what shuts out overlong forms, surrogates and numbers above the last
code point.
-/

namespace RowLogic.Utf8

/-- The bytes of a list of characters. -/
def encodeChars (chars : List Char) : List UInt8 :=
  chars.flatMap String.utf8EncodeChar

/-- The bytes of a text. -/
def encode (text : String) : List UInt8 :=
  encodeChars text.toList

/-- Where and how bytes stop being UTF-8. -/
inductive Defect where
  /-- The sequence at `index` goes wrong after `length` bytes. -/
  | invalid (index length : Nat)
  /-- The bytes end inside the sequence at `index`. -/
  | incomplete (index : Nat)
deriving DecidableEq, Repr

/-- The number of bytes in front of the defect. -/
def Defect.index : Defect → Nat
  | .invalid index _ => index
  | .incomplete index => index

/-- The defect in words. -/
def Defect.message : Defect → String
  | .invalid index length =>
    "invalid utf-8 sequence of " ++ toString length ++ " bytes from index " ++ toString index
  | .incomplete index => "incomplete utf-8 byte sequence from index " ++ toString index

/-- What a leading byte announces. -/
inductive Lead where
  /-- A character of its own. -/
  | single
  /-- A sequence of `length` bytes whose second one lies between `low` and `high`. -/
  | sequence (length : Nat) (low high : UInt8)
  /-- No sequence starts with this byte. -/
  | none
deriving DecidableEq, Repr

/-- The announcement of a leading byte. -/
def lead (byte : UInt8) : Lead :=
  if byte < 0x80 then .single
  else if byte < 0xc2 then .none
  else if byte < 0xe0 then .sequence 2 0x80 0xbf
  else if byte = 0xe0 then .sequence 3 0xa0 0xbf
  else if byte = 0xed then .sequence 3 0x80 0x9f
  else if byte < 0xf0 then .sequence 3 0x80 0xbf
  else if byte = 0xf0 then .sequence 4 0x90 0xbf
  else if byte < 0xf4 then .sequence 4 0x80 0xbf
  else if byte = 0xf4 then .sequence 4 0x80 0x8f
  else .none

/-- A byte that lies between two others. -/
def within (low high byte : UInt8) : Bool :=
  low ≤ byte && byte ≤ high

/-- A byte that can stand behind the second one of a sequence. -/
def isTrail (byte : UInt8) : Bool :=
  within 0x80 0xbf byte

/-- The code point whose leading bits are `top`, followed by six bits of each further byte. -/
def codePoint (top : Nat) (trail : List UInt8) : Nat :=
  trail.foldl (fun bits byte => 64 * bits + byte.toNat % 64) top

/-- The characters of bytes that start at `index` of a text, or the first defect. -/
def decodeFrom (index : Nat) : List UInt8 → Except Defect (List Char)
  | [] => .ok []
  | first :: rest =>
    match lead first with
    | .single => (decodeFrom (index + 1) rest).map (Char.ofNat first.toNat :: ·)
    | .none => .error (.invalid index 1)
    | .sequence length low high =>
      match rest with
      | [] => .error (.incomplete index)
      | second :: rest =>
        if !within low high second then .error (.invalid index 1)
        else if length = 2 then
          (decodeFrom (index + 2) rest).map
            (Char.ofNat (codePoint (first.toNat % 32) [second]) :: ·)
        else
          match rest with
          | [] => .error (.incomplete index)
          | third :: rest =>
            if !isTrail third then .error (.invalid index 2)
            else if length = 3 then
              (decodeFrom (index + 3) rest).map
                (Char.ofNat (codePoint (first.toNat % 16) [second, third]) :: ·)
            else
              match rest with
              | [] => .error (.incomplete index)
              | fourth :: rest =>
                if !isTrail fourth then .error (.invalid index 3)
                else
                  (decodeFrom (index + 4) rest).map
                    (Char.ofNat (codePoint (first.toNat % 8) [second, third, fourth]) :: ·)

/-- The text of a list of bytes, or the first defect. -/
def decode (bytes : List UInt8) : Except Defect String :=
  (decodeFrom 0 bytes).map String.ofList

end RowLogic.Utf8
