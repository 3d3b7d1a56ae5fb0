/-
**JSON as text.**

A document is printed without blanks. In a text the quote, the backslash and the characters below
the blank are escaped, five of them by a letter and the others by their number in lower-case
digits; all other characters stand for themselves.
-/

import RowLogic.Bytes.Hex
import RowLogic.Json.Basic

namespace RowLogic

namespace Json

/-- The letter that stands for a character behind a backslash. -/
def escapeLetter? (char : Char) : Option Char :=
  if char = '"' then some '"'
  else if char = '\\' then some '\\'
  else if char = '\x08' then some 'b'
  else if char = '\x0c' then some 'f'
  else if char = '\n' then some 'n'
  else if char = '\r' then some 'r'
  else if char = '\t' then some 't'
  else none

/-- A character inside a text. -/
def escapeChar (char : Char) : List Char :=
  match escapeLetter? char with
  | some letter => ['\\', letter]
  | none =>
    if char.toNat < 0x20 then
      ['\\', 'u', '0', '0', Hex.digit (char.toNat / 16), Hex.digit (char.toNat % 16)]
    else [char]

/-- A text between its quotes. -/
def quoted (text : String) : List Char :=
  '"' :: text.toList.flatMap escapeChar ++ ['"']

end Json

/-- The characters of a number. -/
def Numeral.chars (numeral : Numeral) : List Char :=
  (if numeral.negative then ['-'] else []) ++ numeral.whole ++
    (if numeral.fraction.isEmpty then [] else '.' :: numeral.fraction) ++
    match numeral.exponent with
    | none => []
    | some (negative, digits) => 'e' :: (if negative then ['-'] else []) ++ digits

namespace Json

mutual

/-- The characters of a document. -/
def chars : Json → List Char
  | null => "null".toList
  | bool true => "true".toList
  | bool false => "false".toList
  | number numeral => numeral.chars
  | text content => quoted content
  | array [] => ['[', ']']
  | array (item :: items) => '[' :: item.chars ++ itemChars items
  | object [] => ['{', '}']
  | object ((key, value) :: entries) =>
    '{' :: quoted key ++ ':' :: value.chars ++ entryChars entries

/-- The characters of the further items of an array. -/
def itemChars : List Json → List Char
  | [] => [']']
  | item :: items => ',' :: item.chars ++ itemChars items

/-- The characters of the further entries of an object. -/
def entryChars : List (String × Json) → List Char
  | [] => ['}']
  | (key, value) :: entries => ',' :: quoted key ++ ':' :: value.chars ++ entryChars entries

end

/-- The text of a document. -/
def print (json : Json) : String :=
  String.ofList json.chars

end Json

end RowLogic
