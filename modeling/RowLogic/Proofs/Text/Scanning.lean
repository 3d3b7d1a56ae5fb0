/-
**Where a part of a text ends.**

A run of characters of one kind ends in front of a character of another kind (`Stops`), and is told
from what follows there (`append_inj_of_stops`). Which of several forms a text has shows in its
first character, if the forms begin with different marks (`mark?`).
-/

namespace RowLogic

/-! ### Runs -/

/-- The next character is of another kind. -/
def Stops (inside : Char → Bool) (rest : List Char) : Prop :=
  ∀ char ∈ rest.head?, inside char = false

section Runs

variable {inside : Char → Bool} {char : Char} {run run' rest rest' : List Char}

theorem stops_nil : Stops inside [] :=
  fun _ next => nomatch next

theorem stops_cons (outside : inside char = false) (rest : List Char) :
    Stops inside (char :: rest) := by
  intro char next
  cases next
  exact outside

theorem takeWhile_append_of_stops (own : ∀ char ∈ run, inside char = true)
    (stops : Stops inside rest) : (run ++ rest).takeWhile inside = run := by
  have nothing : rest.takeWhile inside = [] := by
    cases rest with
    | nil => rfl
    | cons char rest =>
      rw [List.takeWhile_cons, stops char rfl]
      rfl
  rw [List.takeWhile_append_of_pos own, nothing, List.append_nil]

theorem dropWhile_append_of_stops (own : ∀ char ∈ run, inside char = true)
    (stops : Stops inside rest) : (run ++ rest).dropWhile inside = rest := by
  rw [List.dropWhile_append_of_pos own]
  cases rest with
  | nil => rfl
  | cons char rest =>
    rw [List.dropWhile_cons, stops char rfl]
    rfl

/-- **A run is read up to its end.** -/
theorem append_inj_of_stops (own : ∀ char ∈ run, inside char = true)
    (own' : ∀ char ∈ run', inside char = true) (stops : Stops inside rest)
    (stops' : Stops inside rest') (same : run ++ rest = run' ++ rest') :
    run = run' ∧ rest = rest' := by
  refine ⟨?_, ?_⟩
  · rw [← takeWhile_append_of_stops own stops, same, takeWhile_append_of_stops own' stops']
  · rw [← dropWhile_append_of_stops own stops, same, dropWhile_append_of_stops own' stops']

end Runs

/-! ### Marks -/

/-- The first character, if it is one of the marks. -/
def mark? (marks chars : List Char) : Option Char :=
  chars.head?.filter (· ∈ marks)

section Marks

variable {marks chars : List Char} {first : Char}

theorem mark?_append (some_char : chars ≠ []) (rest : List Char) :
    mark? marks (chars ++ rest) = mark? marks chars := by
  cases chars with
  | nil => exact absurd rfl some_char
  | cons first chars => rfl

theorem mark?_of_mem (member : first ∈ marks) (rest : List Char) :
    mark? marks (first :: rest) = some first := by
  rw [mark?, List.head?_cons, Option.filter_some, if_pos (decide_eq_true member)]

theorem mark?_of_not_mem (other : first ∉ marks) (rest : List Char) :
    mark? marks (first :: rest) = none := by
  rw [mark?, List.head?_cons, Option.filter_some, if_neg (by simpa using other)]

end Marks

/-! ### Digits -/

theorem isDigit_of_mem_toDigits {number : Nat} {char : Char}
    (member : char ∈ Nat.toDigits 10 number) : char.isDigit = true :=
  Nat.isDigit_of_mem_toDigits (by decide) (by decide) member

/-- Numbers with the same digits are equal. -/
theorem toDigits_injective {first second : Nat}
    (same : Nat.toDigits 10 first = Nat.toDigits 10 second) : first = second := by
  rw [← @Nat.ofDigitChars_ten_toDigits first, same, Nat.ofDigitChars_ten_toDigits]

/-- Only zero begins with the digit zero. -/
theorem eq_zero_of_head?_toDigits {number : Nat}
    (zero : (Nat.toDigits 10 number).head? = some '0') : number = 0 := by
  induction number using Nat.strongRecOn with
  | ind number ih =>
    by_cases single : number < 10
    · have digits : ∀ digit < 10, digit.digitChar = '0' → digit = 0 := by decide
      rw [Nat.toDigits_of_lt_base single, List.head?_cons] at zero
      exact digits number single (Option.some.inj zero)
    · -- the first digit is that of the number without its last digit
      rw [Nat.toDigits_of_base_le (by decide) (Nat.le_of_not_lt single), List.head?_append] at zero
      obtain ⟨first, rest, begins⟩ :=
        List.exists_cons_of_ne_nil (@Nat.toDigits_ne_nil (number / 10) 10)
      rw [begins] at zero
      have fewer := ih (number / 10) (by omega) (by rw [begins]; exact zero)
      omega

end RowLogic
