/-
**Values are told apart by their texts.**

A text of a value is a word, without a blank and a closing parenthesis, or it stands between quotes.
So if no text holds a quote, the text of a value ends where it has to, whatever follows
(`Value.chars_append_inj`). What it begins with tells the kind of the value, except that all numbers
begin alike (`Value.mark?_chars`); numbers of one type have different texts. Hence values with one
text are equal, or they are numbers of two types (`Value.eq_or_number_of_chars`).
-/

import RowLogic.Proofs.Real64.Layout
import RowLogic.Proofs.Text.Scanning
import RowLogic.Value.Basic

namespace RowLogic

/-- A character of a word. -/
def inWord (char : Char) : Bool :=
  char ≠ ' ' && char ≠ ')'

/-- A character between quotes. -/
def inQuotes (char : Char) : Bool :=
  char ≠ '\''

/-- A character that the text of a number can begin with. -/
def beginsNumber (char : Char) : Bool :=
  char.isDigit || char = '-' || char = 'i'

theorem inWord_of_isDigit {char : Char} (digit : char.isDigit = true) : inWord char = true := by
  rw [inWord, Bool.and_eq_true, decide_eq_true_iff, decide_eq_true_iff]
  constructor <;> rintro rfl <;> cases digit

theorem beginsNumber_of_isDigit {char : Char} (digit : char.isDigit = true) :
    beginsNumber char = true := by
  rw [beginsNumber, digit, Bool.true_or, Bool.true_or]

namespace Value

variable {value value' : Value} {char : Char}

/-! ### Integers -/

theorem intChars_injective {first second : Int} (same : intChars first = intChars second) :
    first = second := by
  have unsigned (number : Nat) (rest : List Char) : Nat.toDigits 10 number ≠ '-' :: rest := by
    intro signed
    have digit := @isDigit_of_mem_toDigits number '-' (signed ▸ List.mem_cons_self)
    cases digit
  unfold intChars at same
  by_cases negative : first < 0 <;> by_cases negative' : second < 0 <;>
    simp only [negative, negative', if_true, if_false] at same
  · have absolute := toDigits_injective (List.cons.inj same).2
    omega
  · exact absurd same.symm (unsigned _ _)
  · exact absurd same (unsigned _ _)
  · have absolute := toDigits_injective same
    omega

theorem mem_intChars {number : Int} (member : char ∈ intChars number) :
    char = '-' ∨ char.isDigit = true := by
  unfold intChars at member
  split at member
  · exact (List.mem_cons.mp member).imp_right isDigit_of_mem_toDigits
  · exact .inr (isDigit_of_mem_toDigits member)

theorem exists_intChars (number : Int) :
    ∃ first rest, intChars number = first :: rest ∧ beginsNumber first = true := by
  unfold intChars
  split
  · exact ⟨'-', _, rfl, rfl⟩
  · obtain ⟨digit, rest, written⟩ :=
      List.exists_cons_of_ne_nil (Nat.toDigits_ne_nil (n := number.natAbs) (b := 10))
    have digits := @isDigit_of_mem_toDigits number.natAbs digit (written ▸ List.mem_cons_self)
    exact ⟨digit, rest, written, beginsNumber_of_isDigit digits⟩

/-! ### Kinds -/

/-- A value of one of the numeric types. -/
def isNumber : Value → Bool
  | int4 _ => true
  | int8 _ => true
  | float8 _ => true
  | _ => false

/-- The character that the text of a value begins with; nothing for a number. -/
def mark : Value → Option Char
  | undefined => 'u'
  | boolean true => 't'
  | boolean false => 'f'
  | utf8 _ => '\''
  | _ => none

/-- The characters that texts of other values begin with. -/
def marks : List Char :=
  ['u', 't', 'f', '\'']

theorem mark_eq_none_iff : value.mark = none ↔ value.isNumber = true := by
  cases value with
  | boolean truth => cases truth <;> decide
  | undefined | utf8 => exact iff_of_false nofun nofun
  | int4 | int8 | float8 => exact iff_of_true rfl rfl

/-- What the text of a value begins with. -/
theorem exists_begins (value : Value) :
    ∃ first rest, value.chars = first :: rest ∧
      (beginsNumber first = true ∧ value.mark = none ∨
        first ∈ marks ∧ value.mark = some first) := by
  cases value with
  | undefined => exact ⟨'u', _, rfl, .inr ⟨by decide, rfl⟩⟩
  | boolean truth =>
    cases truth with
    | true => exact ⟨'t', _, rfl, .inr ⟨by decide, rfl⟩⟩
    | false => exact ⟨'f', _, rfl, .inr ⟨by decide, rfl⟩⟩
  | int4 number =>
    obtain ⟨first, rest, text, begins⟩ := exists_intChars number.toInt
    exact ⟨first, rest, text, .inl ⟨begins, rfl⟩⟩
  | int8 number =>
    obtain ⟨first, rest, text, begins⟩ := exists_intChars number.toInt
    exact ⟨first, rest, text, .inl ⟨begins, rfl⟩⟩
  | float8 number =>
    show ∃ first rest, number.chars = first :: rest ∧ _
    unfold Real64.chars
    split
    · exact ⟨'-', _, rfl, .inl ⟨rfl, rfl⟩⟩
    · obtain ⟨first, rest, text, begins⟩ := number.exists_unsigned
      refine ⟨first, rest, text, .inl ⟨?_, rfl⟩⟩
      rcases begins with ⟨-, rfl⟩ | ⟨-, digit⟩
      · rfl
      · exact beginsNumber_of_isDigit digit
  | utf8 text => exact ⟨'\'', _, rfl, .inr ⟨by decide, rfl⟩⟩

theorem chars_ne_nil (value : Value) : value.chars ≠ [] := by
  obtain ⟨first, rest, text, -⟩ := value.exists_begins
  rw [text]
  exact List.cons_ne_nil first rest

/-- **The kind of a value shows in the first character of its text**, but for numbers. -/
theorem mark?_chars (value : Value) : mark? marks value.chars = value.mark := by
  have others : marks.any beginsNumber = false := rfl
  obtain ⟨first, rest, text, ⟨begins, unmarked⟩ | ⟨member, marked⟩⟩ := value.exists_begins
  · rw [text, unmarked]
    exact mark?_of_not_mem (fun member => List.any_eq_false.mp others first member begins) rest
  · rw [text, marked]
    exact mark?_of_mem member rest

/-- Numbers of one type with one text are equal. -/
theorem number_eq_of_chars (numeric : value.isNumber = true)
    (types : value.dataType = value'.dataType) (same : value.chars = value'.chars) :
    value = value' := by
  cases value <;> cases numeric <;> cases value' <;> cases types
  case int4.refl.int4.refl number number' =>
    rw [Int32.toInt_inj.mp (intChars_injective same)]
  case int8.refl.int8.refl number number' =>
    rw [Int64.toInt_inj.mp (intChars_injective same)]
  case float8.refl.float8.refl number number' => rw [Real64.chars_injective same]

/-- A value that is no number is equal to each value with its text. -/
theorem eq_of_chars (other : ¬ value.isNumber = true) (same : value.chars = value'.chars) :
    value = value' := by
  have kinds := congrArg (mark? marks) same
  rw [mark?_chars, mark?_chars] at kinds
  cases value with
  | undefined =>
    cases value' with
    | undefined => rfl
    | boolean truth => cases truth <;> cases kinds
    | utf8 | int4 | int8 | float8 => cases kinds
  | boolean truth =>
    cases value' with
    | boolean truth' => cases truth <;> cases truth' <;> first | rfl | cases kinds
    | undefined | utf8 | int4 | int8 | float8 => cases truth <;> cases kinds
  | utf8 text =>
    cases value' with
    | utf8 text' =>
      have texts := List.append_cancel_right (List.cons.inj same).2
      rw [String.toList_inj.mp texts]
    | boolean truth => cases truth <;> cases kinds
    | undefined | int4 | int8 | float8 => cases kinds
  | int4 | int8 | float8 => exact absurd rfl other

/-- **Values with one text are equal, or numbers of two types.** -/
theorem eq_or_number_of_chars (same : value.chars = value'.chars) :
    value = value' ∨
      value.isNumber = true ∧ value'.isNumber = true ∧ value.dataType ≠ value'.dataType := by
  by_cases numeric : value.isNumber = true
  · have numeric' : value'.isNumber = true := by
      rwa [← mark_eq_none_iff, ← mark?_chars, ← same, mark?_chars, mark_eq_none_iff]
    by_cases types : value.dataType = value'.dataType
    · exact .inl (number_eq_of_chars numeric types same)
    · exact .inr ⟨numeric, numeric', types⟩
  · exact .inl (eq_of_chars numeric same)

/-! ### Where a text ends -/

/-- The value is no text with a quote in it. -/
def quoteFree : Value → Bool
  | utf8 text => text.toList.all inQuotes
  | _ => true

/-- The text of the value is a word. -/
def isWord : Value → Bool
  | utf8 _ => false
  | _ => true

theorem mark_eq_quote_iff : value.mark = some '\'' ↔ value.isWord = false := by
  cases value with
  | boolean truth => cases truth <;> decide
  | utf8 text => exact iff_of_true rfl rfl
  | undefined | int4 | int8 | float8 => exact iff_of_false nofun nofun

theorem inWord_of_mem (word : value.isWord = true) (member : char ∈ value.chars) :
    inWord char = true := by
  have name : ∀ chars : List Char, chars.all inWord = true → char ∈ chars → inWord char = true :=
    fun _ all member => List.all_eq_true.mp all char member
  have integer (number : Int) (member : char ∈ intChars number) : inWord char = true := by
    rcases mem_intChars member with rfl | digit
    · rfl
    · exact inWord_of_isDigit digit
  cases value with
  | undefined => exact name _ rfl member
  | boolean truth => cases truth <;> exact name _ rfl member
  | int4 number => exact integer number.toInt member
  | int8 number => exact integer number.toInt member
  | float8 number =>
    rcases number.mem_chars member with digit | other
    · exact inWord_of_isDigit digit
    · exact name _ rfl other
  | utf8 text => cases word

/-- A quoted text is read up to its second quote. -/
theorem quoted_append_inj {text text' : String} {rest rest' : List Char}
    (free : (utf8 text).quoteFree = true) (free' : (utf8 text').quoteFree = true)
    (same : (utf8 text).chars ++ rest = (utf8 text').chars ++ rest') :
    (utf8 text).chars = (utf8 text').chars ∧ rest = rest' := by
  have quote : ∀ rest, Stops inQuotes (['\''] ++ rest) := stops_cons rfl
  have behind : text.toList ++ ['\''] ++ rest = text'.toList ++ ['\''] ++ rest' :=
    (List.cons.inj same).2
  have own : ∀ char ∈ text.toList, inQuotes char = true := List.all_eq_true.mp free
  have own' : ∀ char ∈ text'.toList, inQuotes char = true := List.all_eq_true.mp free'
  rw [List.append_assoc, List.append_assoc] at behind
  obtain ⟨texts, ends⟩ := append_inj_of_stops own own' (quote rest) (quote rest') behind
  rw [String.toList_inj.mp texts]
  exact ⟨rfl, (List.cons.inj ends).2⟩

/-- **The text of a value is read up to its end.** -/
theorem chars_append_inj {rest rest' : List Char} (free : value.quoteFree = true)
    (free' : value'.quoteFree = true) (stops : Stops inWord rest) (stops' : Stops inWord rest')
    (same : value.chars ++ rest = value'.chars ++ rest') :
    value.chars = value'.chars ∧ rest = rest' := by
  have marks := congrArg (mark? marks) same
  rw [mark?_append value.chars_ne_nil, mark?_append value'.chars_ne_nil, mark?_chars,
    mark?_chars] at marks
  cases word : value.isWord with
  | true =>
    have word' : value'.isWord = true := by
      rw [← Bool.not_eq_false, ← mark_eq_quote_iff, ← marks, mark_eq_quote_iff, word]
      decide
    exact append_inj_of_stops (fun _ => inWord_of_mem word) (fun _ => inWord_of_mem word') stops
      stops' same
  | false =>
    have quoted' : value'.isWord = false := by
      rw [← mark_eq_quote_iff, ← marks, mark_eq_quote_iff, word]
    cases value <;> cases word
    cases value' <;> cases quoted'
    exact quoted_append_inj free free' same

end Value

end RowLogic
