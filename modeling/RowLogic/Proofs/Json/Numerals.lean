/-
**Numbers in JSON are read back.**

A number is read as far as it can go on, so it is read back in front of whatever can follow a
document (`Json.Ends`): nothing, a comma, or a closing bracket or brace (`readNumeral?_chars`).
-/

import RowLogic.Json.Printer
import RowLogic.Json.Reader
import RowLogic.Proofs.Text.Scanning

namespace RowLogic

/-- The digits of a number as a text can hold them. -/
structure Numeral.WellFormed (numeral : Numeral) : Prop where
  whole_digits : ∀ digit ∈ numeral.whole, digit.isDigit = true
  whole_ne_nil : numeral.whole ≠ []
  /-- No zero leads further digits. -/
  whole_zero : numeral.whole.head? = some '0' → numeral.whole.length = 1
  fraction_digits : ∀ digit ∈ numeral.fraction, digit.isDigit = true
  exponent_digits : ∀ negative digits, numeral.exponent = some (negative, digits) →
    digits ≠ [] ∧ ∀ digit ∈ digits, digit.isDigit = true

namespace Numeral

/-- The point and the digits behind it, if there are any. -/
def fractionChars (numeral : Numeral) : List Char :=
  if numeral.fraction.isEmpty then [] else '.' :: numeral.fraction

/-- The exponent, if there is one. -/
def scaleChars (numeral : Numeral) : List Char :=
  match numeral.exponent with
  | none => []
  | some (negative, digits) => 'e' :: (if negative then ['-'] else []) ++ digits

theorem chars_eq (numeral : Numeral) :
    numeral.chars = (if numeral.negative then ['-'] else []) ++
      (numeral.whole ++ (numeral.fractionChars ++ numeral.scaleChars)) := by
  rw [← List.append_assoc, ← List.append_assoc]
  rfl

end Numeral

namespace Json

/-- What can follow a document. -/
inductive Ends : List Char → Prop where
  | nothing : Ends []
  | comma (rest : List Char) : Ends (',' :: rest)
  | bracket (rest : List Char) : Ends (']' :: rest)
  | brace (rest : List Char) : Ends ('}' :: rest)

variable {digits rest : List Char} {numeral : Numeral}

theorem Ends.stops (ends : Ends rest) : Stops Char.isDigit rest := by
  cases ends with
  | nothing => exact stops_nil
  | _ => exact stops_cons rfl _

/-! ### Digits -/

/-- A run of digits is read as far as it goes. -/
theorem readDigits?_append (some_digit : digits ≠ [])
    (all : ∀ digit ∈ digits, digit.isDigit = true) (stops : Stops Char.isDigit rest) :
    readDigits? (digits ++ rest) = some (digits, rest) := by
  unfold readDigits?
  rw [takeWhile_append_of_stops all stops, dropWhile_append_of_stops all stops,
    if_neg (by simpa using some_digit)]

theorem ne_of_isDigit {char : Char} (digit : char.isDigit = true) :
    char ≠ '-' ∧ char ≠ '+' ∧ char ≠ '.' ∧ char ≠ 'e' ∧ char ≠ 'E' := by
  refine ⟨?_, ?_, ?_, ?_, ?_⟩ <;> rintro rfl <;> cases digit

/-! ### The parts of a number -/

theorem readExponent?_append {negative : Bool} (some_digit : digits ≠ [])
    (all : ∀ digit ∈ digits, digit.isDigit = true) (stops : Stops Char.isDigit rest) :
    readExponent? ((if negative then ['-'] else []) ++ digits ++ rest) =
      some ((negative, digits), rest) := by
  have read := readDigits?_append some_digit all stops
  cases negative with
  | true =>
    show (readDigits? (digits ++ rest)).map _ = _
    rw [read]
    rfl
  | false =>
    cases digits with
    | nil => exact absurd rfl some_digit
    | cons digit digits =>
      obtain ⟨not_minus, not_plus, -⟩ := ne_of_isDigit (all digit List.mem_cons_self)
      show readExponent? (digit :: (digits ++ rest)) = _
      rw [readExponent?]
      · rw [List.cons_append] at read
        rw [read]
        rfl
      · exact fun _ same => not_minus (List.cons.inj same).1
      · exact fun _ same => not_plus (List.cons.inj same).1

theorem readScale?_scaleChars (wellFormed : numeral.WellFormed) (ends : Ends rest) :
    readScale? (numeral.scaleChars ++ rest) = some (numeral.exponent, rest) := by
  unfold Numeral.scaleChars
  cases written : numeral.exponent with
  | none => cases ends <;> rfl
  | some exponent =>
    obtain ⟨negative, digits⟩ := exponent
    obtain ⟨some_digit, all⟩ := wellFormed.exponent_digits negative digits written
    show (readExponent? ((if negative then ['-'] else []) ++ digits ++ rest)).map _ = _
    rw [readExponent?_append some_digit all ends.stops]
    rfl

theorem stops_scaleChars (numeral : Numeral) (ends : Ends rest) :
    Stops Char.isDigit (numeral.scaleChars ++ rest) := by
  unfold Numeral.scaleChars
  cases numeral.exponent with
  | none => exact ends.stops
  | some exponent => exact stops_cons rfl _

theorem readFraction?_fractionChars (wellFormed : numeral.WellFormed) (ends : Ends rest) :
    readFraction? (numeral.fractionChars ++ (numeral.scaleChars ++ rest)) =
      some (numeral.fraction, numeral.scaleChars ++ rest) := by
  unfold Numeral.fractionChars
  cases written : numeral.fraction with
  | nil =>
    unfold Numeral.scaleChars
    cases numeral.exponent with
    | none => cases ends <;> rfl
    | some exponent => rfl
  | cons digit digits =>
    show readDigits? (digit :: digits ++ (numeral.scaleChars ++ rest)) = _
    have all := wellFormed.fraction_digits
    rw [written] at all
    exact readDigits?_append (List.cons_ne_nil _ _) all (stops_scaleChars numeral ends)

theorem stops_fractionChars (numeral : Numeral) (ends : Ends rest) :
    Stops Char.isDigit (numeral.fractionChars ++ (numeral.scaleChars ++ rest)) := by
  unfold Numeral.fractionChars
  cases numeral.fraction with
  | nil => exact stops_scaleChars numeral ends
  | cons digit digits => exact stops_cons rfl _

/-- **A number is read back** in front of whatever can follow it. -/
theorem readNumeral?_chars (wellFormed : numeral.WellFormed) (ends : Ends rest) :
    readNumeral? (numeral.chars ++ rest) = some (numeral, rest) := by
  have unsigned : readUnsigned? numeral.negative
      (numeral.whole ++ (numeral.fractionChars ++ (numeral.scaleChars ++ rest))) =
        some (numeral, rest) := by
    unfold readUnsigned?
    rw [readDigits?_append wellFormed.whole_ne_nil wellFormed.whole_digits
      (stops_fractionChars numeral ends)]
    have leads : ¬ (numeral.whole.head? = some '0' ∧ numeral.whole.length ≠ 1) :=
      fun given => given.2 (wellFormed.whole_zero given.1)
    show (if numeral.whole.head? = some '0' ∧ numeral.whole.length ≠ 1 then none else _) = _
    rw [if_neg leads, readFraction?_fractionChars wellFormed ends]
    show (readScale? (numeral.scaleChars ++ rest)).bind _ = _
    rw [readScale?_scaleChars wellFormed ends]
    rfl
  rw [Numeral.chars_eq, List.append_assoc, List.append_assoc, List.append_assoc]
  cases negative : numeral.negative with
  | true =>
    rw [negative] at unsigned
    exact unsigned
  | false =>
    rw [negative] at unsigned
    cases whole : numeral.whole with
    | nil => exact absurd whole wellFormed.whole_ne_nil
    | cons digit digits =>
      have all := wellFormed.whole_digits
      rw [whole] at unsigned all
      obtain ⟨not_minus, -⟩ := ne_of_isDigit (all digit List.mem_cons_self)
      show readNumeral? (digit :: (digits ++ _)) = _
      rw [readNumeral?]
      · exact unsigned
      · exact fun _ same => not_minus (List.cons.inj same).1

end Json

end RowLogic
