/-
**Texts in JSON are read back.**

Whatever a character is, its escape is read as this character again (`readText?_escapeChar`), so a
quoted text is read up to its own closing quote and no further (`readText?_escaped`).
-/

import RowLogic.Json.Printer
import RowLogic.Json.Reader

namespace RowLogic

namespace Hex

/-- A digit stands for its number. -/
theorem digit?_digit {number : Nat} (small : number < 16) :
    digit? (digit number) = some number := by
  have all : ∀ number < 16, digit? (digit number) = some number := by decide
  exact all number small

end Hex

namespace Json

/-- What is read of a text behind one more character. -/
def behind (char : Char) (read : Option (List Char × List Char)) :
    Option (List Char × List Char) :=
  read.map fun (chars, rest) => (char :: chars, rest)

/-! ### The forms of a character -/

/-- The letter of an escape stands for its character. -/
theorem unescapeLetter?_of_escapeLetter? {char letter : Char}
    (escaped : escapeLetter? char = some letter) :
    unescapeLetter? letter = some char ∧ letter ≠ 'u' := by
  unfold escapeLetter? at escaped
  repeat' split at escaped
  all_goals cases escaped
  all_goals
    subst char
    decide

/-- A character without a letter is neither the quote nor the backslash. -/
theorem ne_of_escapeLetter?_eq_none {char : Char} (plain : escapeLetter? char = none) :
    char ≠ '"' ∧ char ≠ '\\' := by
  constructor <;> rintro rfl <;> cases plain

theorem readText?_letter {char letter : Char} (known : unescapeLetter? letter = some char)
    (other : letter ≠ 'u') (rest : List Char) :
    readText? ('\\' :: letter :: rest) = behind char (readText? rest) := by
  rw [readText?, known]
  · rfl
  · exact fun _ _ _ _ _ same _ => other same

theorem readText?_plain {char : Char} (printable : ¬ char.toNat < 0x20) (not_quote : char ≠ '"')
    (not_backslash : char ≠ '\\') (rest : List Char) :
    readText? (char :: rest) = behind char (readText? rest) := by
  rw [readText?, if_neg (not_or.mpr ⟨printable, not_backslash⟩)]
  · rfl
  · exact not_quote
  · exact fun _ _ _ _ _ same _ => not_backslash same
  · exact fun _ _ same _ => not_backslash same

/-- The four digits of a control character. -/
theorem unit?_of_control {char : Char} (control : char.toNat < 0x20) :
    unit? '0' '0' (Hex.digit (char.toNat / 16)) (Hex.digit (char.toNat % 16)) =
      some char.toNat := by
  have zero : Hex.digit? '0' = some 0 := by decide
  have high : Hex.digit? (Hex.digit (char.toNat / 16)) = some (char.toNat / 16) :=
    Hex.digit?_digit (by omega)
  have low : Hex.digit? (Hex.digit (char.toNat % 16)) = some (char.toNat % 16) :=
    Hex.digit?_digit (by omega)
  rw [unit?, zero, high, low]
  show some (4096 * 0 + 256 * 0 + 16 * (char.toNat / 16) + char.toNat % 16) = some char.toNat
  rw [Option.some_inj]
  omega

theorem readText?_control {char : Char} (control : char.toNat < 0x20) (rest : List Char) :
    readText? ('\\' :: 'u' :: '0' :: '0' :: Hex.digit (char.toNat / 16) ::
      Hex.digit (char.toNat % 16) :: rest) = behind char (readText? rest) := by
  have not_low : ¬ isLowSurrogate char.toNat = true := by
    rw [isLowSurrogate, Bool.and_eq_true, decide_eq_true_iff]
    omega
  have not_high : ¬ isHighSurrogate char.toNat = true := by
    rw [isHighSurrogate, Bool.and_eq_true, decide_eq_true_iff]
    omega
  rw [readText?, unit?_of_control control]
  dsimp only
  rw [if_neg not_low, if_neg not_high, Char.ofNat_toNat]
  rfl

/-! ### Characters and texts -/

/-- **The escape of a character is read as this character.** -/
theorem readText?_escapeChar (char : Char) (rest : List Char) :
    readText? (escapeChar char ++ rest) = behind char (readText? rest) := by
  unfold escapeChar
  cases letter : escapeLetter? char with
  | some letter =>
    obtain ⟨known, other⟩ := unescapeLetter?_of_escapeLetter? letter
    exact readText?_letter known other rest
  | none =>
    obtain ⟨not_quote, not_backslash⟩ := ne_of_escapeLetter?_eq_none letter
    by_cases control : char.toNat < 0x20
    · dsimp only
      rw [if_pos control]
      exact readText?_control control rest
    · dsimp only
      rw [if_neg control]
      exact readText?_plain control not_quote not_backslash rest

/-- **A quoted text is read up to its closing quote.** -/
theorem readText?_escaped (chars rest : List Char) :
    readText? (chars.flatMap escapeChar ++ '"' :: rest) = some (chars, rest) := by
  induction chars with
  | nil =>
    show readText? ('"' :: rest) = some ([], rest)
    rw [readText?]
  | cons char chars ih =>
    rw [List.flatMap_cons, List.append_assoc, readText?_escapeChar, ih]
    rfl

end Json

end RowLogic
