/-
**Reading JSON.**

A whole text is read as one document. Blanks may stand around every part; a number has no leading
zeros; a text holds no bare control character, and a character beyond the basic plane may be
escaped as a pair of surrogates, but no surrogate stands alone.

A document is read within a bound on the number of steps, into a part or along an array or an
object. Two steps in a row consume at least one character, so one more than twice the length of
the text is enough.
-/

import RowLogic.Bytes.Hex
import RowLogic.Json.Basic

namespace RowLogic.Json

/-- A character that may stand between the parts of a document. -/
def isBlank (char : Char) : Bool :=
  char = ' ' || char = '\n' || char = '\t' || char = '\r'

/-- The characters from the first one that is no blank. -/
def skipBlanks (chars : List Char) : List Char :=
  chars.dropWhile isBlank

/-! ### Texts -/

/-- The character that a letter stands for behind a backslash. -/
def unescapeLetter? (letter : Char) : Option Char :=
  if letter = '"' then some '"'
  else if letter = '\\' then some '\\'
  else if letter = '/' then some '/'
  else if letter = 'b' then some '\x08'
  else if letter = 'f' then some '\x0c'
  else if letter = 'n' then some '\n'
  else if letter = 'r' then some '\r'
  else if letter = 't' then some '\t'
  else none

/-- The number of four hexadecimal digits. -/
def unit? (first second third fourth : Char) : Option Nat := do
  let first ← Hex.digit? first
  let second ← Hex.digit? second
  let third ← Hex.digit? third
  let fourth ← Hex.digit? fourth
  some (4096 * first + 256 * second + 16 * third + fourth)

/-- The first half of a pair of surrogates. -/
def isHighSurrogate (unit : Nat) : Bool :=
  0xd800 ≤ unit && unit < 0xdc00

/-- The second half of a pair of surrogates. -/
def isLowSurrogate (unit : Nat) : Bool :=
  0xdc00 ≤ unit && unit < 0xe000

/-- The characters of a text up to its closing quote, and what follows the quote. -/
def readText? : List Char → Option (List Char × List Char)
  | [] => none
  | '"' :: rest => some ([], rest)
  | '\\' :: 'u' :: a :: b :: c :: d :: rest =>
    match unit? a b c d with
    | none => none
    | some unit =>
      if isLowSurrogate unit then none
      else if isHighSurrogate unit then
        match rest with
        | '\\' :: 'u' :: e :: f :: g :: h :: rest =>
          match unit? e f g h with
          | none => none
          | some low =>
            if isLowSurrogate low then
              (readText? rest).map fun (chars, rest) =>
                (Char.ofNat (0x10000 + 1024 * (unit - 0xd800) + (low - 0xdc00)) :: chars, rest)
            else none
        | _ => none
      else (readText? rest).map fun (chars, rest) => (Char.ofNat unit :: chars, rest)
  | '\\' :: letter :: rest =>
    match unescapeLetter? letter with
    | none => none
    | some char => (readText? rest).map fun (chars, rest) => (char :: chars, rest)
  | char :: rest =>
    if char.toNat < 0x20 ∨ char = '\\' then none
    else (readText? rest).map fun (chars, rest) => (char :: chars, rest)

/-! ### Numbers -/

/-- A run of at least one digit, and what follows it. -/
def readDigits? (chars : List Char) : Option (List Char × List Char) :=
  let digits := chars.takeWhile Char.isDigit
  if digits.isEmpty then none else some (digits, chars.dropWhile Char.isDigit)

/-- The sign and the digits of an exponent, and what follows them. -/
def readExponent? (chars : List Char) : Option ((Bool × List Char) × List Char) :=
  match chars with
  | '-' :: rest => (readDigits? rest).map fun (digits, rest) => ((true, digits), rest)
  | '+' :: rest => (readDigits? rest).map fun (digits, rest) => ((false, digits), rest)
  | rest => (readDigits? rest).map fun (digits, rest) => ((false, digits), rest)

/-- The digits behind a point, if there is one, and what follows them. -/
def readFraction? (chars : List Char) : Option (List Char × List Char) :=
  match chars with
  | '.' :: rest => readDigits? rest
  | rest => some ([], rest)

/-- The exponent, if there is one, and what follows it. -/
def readScale? (chars : List Char) : Option (Option (Bool × List Char) × List Char) :=
  match chars with
  | 'e' :: rest => (readExponent? rest).map fun (exponent, rest) => (some exponent, rest)
  | 'E' :: rest => (readExponent? rest).map fun (exponent, rest) => (some exponent, rest)
  | rest => some (none, rest)

/-- The parts of a number behind its sign. -/
def readUnsigned? (negative : Bool) (chars : List Char) : Option (Numeral × List Char) := do
  let (whole, rest) ← readDigits? chars
  if whole.head? = some '0' ∧ whole.length ≠ 1 then none
  else
    let (fraction, rest) ← readFraction? rest
    let (exponent, rest) ← readScale? rest
    some (⟨negative, whole, fraction, exponent⟩, rest)

/-- A number and what follows it. -/
def readNumeral? (chars : List Char) : Option (Numeral × List Char) :=
  match chars with
  | '-' :: rest => readUnsigned? true rest
  | rest => readUnsigned? false rest

/-! ### Documents -/

mutual

/-- A document and what follows it, within some steps. -/
def read? : Nat → List Char → Option (Json × List Char)
  | 0, _ => none
  | steps + 1, chars =>
    match skipBlanks chars with
    | '"' :: rest =>
      (readText? rest).map fun (content, rest) => (text (String.ofList content), rest)
    | '[' :: rest =>
      match skipBlanks rest with
      | ']' :: rest => some (array [], rest)
      | rest => (readItems? steps rest).map fun (items, rest) => (array items, rest)
    | '{' :: rest =>
      match skipBlanks rest with
      | '}' :: rest => some (object [], rest)
      | rest => (readEntries? steps rest).map fun (entries, rest) => (object entries, rest)
    | 'n' :: 'u' :: 'l' :: 'l' :: rest => some (null, rest)
    | 't' :: 'r' :: 'u' :: 'e' :: rest => some (bool true, rest)
    | 'f' :: 'a' :: 'l' :: 's' :: 'e' :: rest => some (bool false, rest)
    | rest => (readNumeral? rest).map fun (numeral, rest) => (number numeral, rest)

/-- The items of an array up to its closing bracket, and what follows that. -/
def readItems? : Nat → List Char → Option (List Json × List Char)
  | 0, _ => none
  | steps + 1, chars =>
    match read? steps chars with
    | none => none
    | some (item, rest) =>
      match skipBlanks rest with
      | ',' :: rest => (readItems? steps rest).map fun (items, rest) => (item :: items, rest)
      | ']' :: rest => some ([item], rest)
      | _ => none

/-- The entries of an object up to its closing brace, and what follows that. -/
def readEntries? : Nat → List Char → Option (List (String × Json) × List Char)
  | 0, _ => none
  | steps + 1, chars =>
    match skipBlanks chars with
    | '"' :: rest =>
      match readText? rest with
      | none => none
      | some (key, rest) =>
        match skipBlanks rest with
        | ':' :: rest =>
          match read? steps rest with
          | none => none
          | some (value, rest) =>
            match skipBlanks rest with
            | ',' :: rest =>
              (readEntries? steps rest).map fun (entries, rest) =>
                ((String.ofList key, value) :: entries, rest)
            | '}' :: rest => some ([(String.ofList key, value)], rest)
            | _ => none
        | _ => none
    | _ => none

end

/-- The document of a whole text. -/
def parse? (text : String) : Option Json :=
  let chars := text.toList
  match read? (2 * chars.length + 1) chars with
  | some (json, rest) => if (skipBlanks rest).isEmpty then some json else none
  | none => none

end RowLogic.Json
