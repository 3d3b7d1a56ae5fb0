/-
**Documents in JSON are read back.**

A printed document is read as this document, whatever its texts hold (`Json.parse?_print`), if its
numbers have digits that a text can hold (`Json.WellFormed`). The bound of the reader is enough: a
part of a document takes at most two steps for each of its characters (`Json.ReadsBack`).
-/

import RowLogic.Proofs.Json.Numerals
import RowLogic.Proofs.Json.Texts

namespace RowLogic.Json

/-- All numbers in a document have digits that a text can hold. -/
inductive WellFormed : Json → Prop where
  | null : WellFormed null
  | bool (truth : Bool) : WellFormed (bool truth)
  | number {numeral : Numeral} (digits : numeral.WellFormed) : WellFormed (number numeral)
  | text (content : String) : WellFormed (text content)
  | array {items : List Json} (all : ∀ item ∈ items, WellFormed item) : WellFormed (array items)
  | object {entries : List (String × Json)} (all : ∀ entry ∈ entries, WellFormed entry.2) :
    WellFormed (object entries)

/-! ### What a document begins with -/

/-- A character that a document can begin with. -/
def opens (char : Char) : Bool :=
  char = '"' || char = '[' || char = '{' || char = 'n' || char = 't' || char = 'f' ||
    char = '-' || char.isDigit

theorem exists_numeric {numeral : Numeral} (digits : numeral.WellFormed) :
    ∃ first rest, numeral.chars = first :: rest ∧ (first = '-' ∨ first.isDigit = true) := by
  rw [Numeral.chars_eq]
  cases numeral.negative with
  | true => exact ⟨'-', _, rfl, .inl rfl⟩
  | false =>
    cases whole : numeral.whole with
    | nil => exact absurd whole digits.whole_ne_nil
    | cons digit rest =>
      have all := digits.whole_digits
      rw [whole] at all
      exact ⟨digit, _, rfl, .inr (all digit List.mem_cons_self)⟩

theorem exists_opens {json : Json} (wellFormed : json.WellFormed) :
    ∃ first rest, json.chars = first :: rest ∧ opens first = true := by
  cases wellFormed with
  | null => exact ⟨'n', _, rfl, rfl⟩
  | bool truth => cases truth <;> exact ⟨_, _, rfl, rfl⟩
  | number digits =>
    obtain ⟨first, rest, begins, numeric⟩ := exists_numeric digits
    refine ⟨first, rest, begins, ?_⟩
    rcases numeric with rfl | digit
    · rfl
    · rw [opens, digit, Bool.or_true]
  | text content => exact ⟨'"', _, rfl, rfl⟩
  | @array items all => cases items <;> exact ⟨'[', _, rfl, rfl⟩
  | @object entries all => cases entries <;> exact ⟨'{', _, rfl, rfl⟩

theorem ne_of_opens {char : Char} (first : opens char = true) :
    isBlank char = false ∧ char ≠ ']' := by
  refine ⟨Bool.eq_false_iff.mpr fun blank => ?_, ?_⟩
  · simp only [isBlank, Bool.or_eq_true, decide_eq_true_iff] at blank
    rcases blank with ((rfl | rfl) | rfl) | rfl <;> cases first
  · rintro rfl
    cases first

theorem skipBlanks_cons {char : Char} (solid : isBlank char = false) (rest : List Char) :
    skipBlanks (char :: rest) = char :: rest := by
  rw [skipBlanks, List.dropWhile_cons, solid]
  rfl

/-! ### One step of the reader -/

section Steps

variable {steps : Nat} {body rest rest' rest'' : List Char} {json value : Json} {items : List Json}
  {key : List Char} {entries : List (String × Json)}

theorem readItems?_last (item : read? steps body = some (json, ']' :: rest)) :
    readItems? (steps + 1) body = some ([json], rest) := by
  rw [readItems?, item]
  rfl

theorem readItems?_more (item : read? steps body = some (json, ',' :: rest))
    (others : readItems? steps rest = some (items, rest')) :
    readItems? (steps + 1) body = some (json :: items, rest') := by
  rw [readItems?, item]
  show (readItems? steps rest).map _ = _
  rw [others]
  rfl

theorem readEntries?_last (keyed : readText? body = some (key, ':' :: rest))
    (entry : read? steps rest = some (value, '}' :: rest')) :
    readEntries? (steps + 1) ('"' :: body) = some ([(String.ofList key, value)], rest') := by
  have quote : skipBlanks ('"' :: body) = '"' :: body := rfl
  have colon : skipBlanks (':' :: rest) = ':' :: rest := rfl
  have brace : skipBlanks ('}' :: rest') = '}' :: rest' := rfl
  simp only [readEntries?, quote, keyed, colon, entry, brace]

theorem readEntries?_more (keyed : readText? body = some (key, ':' :: rest))
    (entry : read? steps rest = some (value, ',' :: rest'))
    (others : readEntries? steps rest' = some (entries, rest'')) :
    readEntries? (steps + 1) ('"' :: body) =
      some ((String.ofList key, value) :: entries, rest'') := by
  have quote : skipBlanks ('"' :: body) = '"' :: body := rfl
  have colon : skipBlanks (':' :: rest) = ':' :: rest := rfl
  have comma : skipBlanks (',' :: rest') = ',' :: rest' := rfl
  simp only [readEntries?, quote, keyed, colon, entry, comma, others, Option.map_some]

theorem read?_text (read : readText? body = some (key, rest)) :
    read? (steps + 1) ('"' :: body) = some (text (String.ofList key), rest) := by
  have quote : skipBlanks ('"' :: body) = '"' :: body := rfl
  simp only [read?, quote, read, Option.map_some]

theorem read?_array {first : Char} (solid : isBlank first = false) (other : first ≠ ']')
    (read : readItems? steps (first :: body) = some (items, rest)) :
    read? (steps + 1) ('[' :: first :: body) = some (array items, rest) := by
  have bracket : skipBlanks ('[' :: first :: body) = '[' :: first :: body := rfl
  have next : skipBlanks (first :: body) = first :: body := skipBlanks_cons solid body
  simp only [read?, bracket, next]
  split
  case h_1 same => exact absurd (List.cons.inj same).1 other
  case h_2 => rw [read, Option.map_some]

theorem read?_object {first : Char} (solid : isBlank first = false) (other : first ≠ '}')
    (read : readEntries? steps (first :: body) = some (entries, rest)) :
    read? (steps + 1) ('{' :: first :: body) = some (object entries, rest) := by
  have brace : skipBlanks ('{' :: first :: body) = '{' :: first :: body := rfl
  have next : skipBlanks (first :: body) = first :: body := skipBlanks_cons solid body
  simp only [read?, brace, next]
  split
  case h_1 same => exact absurd (List.cons.inj same).1 other
  case h_2 => rw [read, Option.map_some]

theorem read?_number {first : Char} {numeral : Numeral}
    (numeric : first = '-' ∨ first.isDigit = true)
    (read : readNumeral? (first :: body) = some (numeral, rest)) :
    read? (steps + 1) (first :: body) = some (number numeral, rest) := by
  have solid : isBlank first = false ∧ first ≠ '"' ∧ first ≠ '[' ∧ first ≠ '{' ∧ first ≠ 'n' ∧
      first ≠ 't' ∧ first ≠ 'f' := by
    refine ⟨Bool.eq_false_iff.mpr fun blank => ?_, ?_, ?_, ?_, ?_, ?_, ?_⟩
    · simp only [isBlank, Bool.or_eq_true, decide_eq_true_iff] at blank
      rcases blank with ((rfl | rfl) | rfl) | rfl <;> simp at numeric
    all_goals
      rintro rfl
      simp at numeric
  obtain ⟨solid, other⟩ := solid
  have next : skipBlanks (first :: body) = first :: body := skipBlanks_cons solid body
  simp only [read?, next]
  split
  case h_7 => rw [read, Option.map_some]
  all_goals
    rename_i same
    have head := (List.cons.inj same).1
    simp [head] at other

end Steps

/-! ### Parts of a document -/

/-- The document is read back in front of whatever can follow it, in two steps for each of its
characters. -/
def ReadsBack (json : Json) : Prop :=
  ∀ steps rest, 2 * json.chars.length ≤ steps → Ends rest →
    read? steps (json.chars ++ rest) = some (json, rest)

variable {rest : List Char}

theorem itemChars_cons (item : Json) (items : List Json) :
    itemChars (item :: items) = ',' :: (item.chars ++ itemChars items) := by
  rw [itemChars]
  rfl

theorem entryChars_cons (entry : String × Json) (entries : List (String × Json)) :
    entryChars (entry :: entries) =
      ',' :: (quoted entry.1 ++ ':' :: (entry.2.chars ++ entryChars entries)) := by
  rw [entryChars, List.cons_append, List.cons_append, List.append_assoc, List.cons_append]

theorem chars_array (item : Json) (items : List Json) :
    (array (item :: items)).chars = '[' :: (item.chars ++ itemChars items) := by
  rw [chars]
  rfl

theorem chars_object (entry : String × Json) (entries : List (String × Json)) :
    (object (entry :: entries)).chars =
      '{' :: (quoted entry.1 ++ ':' :: (entry.2.chars ++ entryChars entries)) := by
  rw [chars, List.cons_append, List.cons_append, List.append_assoc, List.cons_append]

theorem ends_itemChars (items : List Json) (rest : List Char) : Ends (itemChars items ++ rest) := by
  cases items with
  | nil => exact .bracket rest
  | cons item items =>
    rw [itemChars]
    exact .comma _

theorem ends_entryChars (entries : List (String × Json)) (rest : List Char) :
    Ends (entryChars entries ++ rest) := by
  cases entries with
  | nil => exact .brace rest
  | cons entry entries =>
    rw [entryChars]
    exact .comma _

/-- The items of an array are read back up to the closing bracket. -/
theorem readItems?_chars {item : Json} {items : List Json} (first : item.ReadsBack)
    (others : ∀ other ∈ items, other.ReadsBack) (steps : Nat)
    (enough : 2 * (item.chars ++ itemChars items).length + 1 ≤ steps) :
    readItems? steps (item.chars ++ (itemChars items ++ rest)) = some (item :: items, rest) := by
  obtain ⟨steps, rfl⟩ : ∃ less, steps = less + 1 := ⟨steps - 1, by omega⟩
  induction items generalizing item steps with
  | nil =>
    rw [List.length_append] at enough
    exact readItems?_last (first steps _ (by omega) (ends_itemChars [] rest))
  | cons next items ih =>
    rw [itemChars_cons, List.length_append, List.length_cons] at enough
    obtain ⟨steps, rfl⟩ : ∃ less, steps = less + 1 := ⟨steps - 1, by omega⟩
    have read := first (steps + 1) _ (by omega) (ends_itemChars (next :: items) rest)
    rw [itemChars_cons, List.cons_append, List.append_assoc] at read ⊢
    have tail := ih (others next List.mem_cons_self)
      (fun other member => others other (List.mem_cons_of_mem _ member)) steps (by omega)
    exact readItems?_more read tail

theorem quoted_append (content : String) (rest : List Char) :
    quoted content ++ rest = '"' :: (content.toList.flatMap escapeChar ++ '"' :: rest) := by
  rw [quoted, List.append_assoc]
  rfl

/-- The entries of an object are read back up to the closing brace. -/
theorem readEntries?_chars {key : String} {value : Json} {entries : List (String × Json)}
    (first : value.ReadsBack) (others : ∀ entry ∈ entries, entry.2.ReadsBack) (steps : Nat)
    (enough : 2 * (quoted key ++ ':' :: (value.chars ++ entryChars entries)).length + 1 ≤ steps) :
    readEntries? steps (quoted key ++ ':' :: (value.chars ++ (entryChars entries ++ rest))) =
      some ((key, value) :: entries, rest) := by
  obtain ⟨steps, rfl⟩ : ∃ less, steps = less + 1 := ⟨steps - 1, by omega⟩
  induction entries generalizing key value steps with
  | nil =>
    rw [List.length_append, List.length_cons, List.length_append] at enough
    have read := first steps _ (by omega) (ends_entryChars [] rest)
    have entry := readEntries?_last (readText?_escaped key.toList _) read
    rw [String.ofList_toList] at entry
    rw [quoted_append]
    exact entry
  | cons next entries ih =>
    have regroup : ',' :: (quoted next.1 ++ ':' :: (next.2.chars ++ entryChars entries)) ++ rest =
        ',' :: (quoted next.1 ++ ':' :: (next.2.chars ++ (entryChars entries ++ rest))) := by
      rw [List.cons_append, List.append_assoc, List.cons_append, List.append_assoc]
    rw [entryChars_cons, List.length_append, List.length_cons, List.length_append,
      List.length_cons] at enough
    obtain ⟨steps, rfl⟩ : ∃ less, steps = less + 1 := ⟨steps - 1, by omega⟩
    have read := first (steps + 1) _ (by omega) (ends_entryChars (next :: entries) rest)
    rw [entryChars_cons, regroup] at read ⊢
    have fits : 2 * (quoted next.1 ++ ':' :: (next.2.chars ++ entryChars entries)).length + 1 ≤
        steps + 1 := by omega
    have tail := ih (others next List.mem_cons_self)
      (fun other member => others other (List.mem_cons_of_mem _ member)) steps fits
    have entry := readEntries?_more (readText?_escaped key.toList _) read tail
    rw [String.ofList_toList] at entry
    rw [quoted_append]
    exact entry

/-! ### Documents -/

/-- A document has a character, so there is a first step. -/
theorem ReadsBack.of_step {json : Json} (wellFormed : json.WellFormed)
    (step : ∀ steps rest, 2 * json.chars.length ≤ steps + 1 → Ends rest →
      read? (steps + 1) (json.chars ++ rest) = some (json, rest)) : json.ReadsBack := by
  intro steps rest enough ends
  obtain ⟨first, behind, begins, -⟩ := exists_opens wellFormed
  have some_char : 0 < json.chars.length := by
    rw [begins]
    exact Nat.succ_pos _
  obtain ⟨steps, rfl⟩ : ∃ less, steps = less + 1 := ⟨steps - 1, by omega⟩
  exact step steps rest enough ends

theorem ReadsBack.array {items : List Json} (wellFormed : ∀ item ∈ items, item.WellFormed)
    (read : ∀ item ∈ items, item.ReadsBack) : (Json.array items).ReadsBack := by
  refine .of_step (.array wellFormed) fun steps rest enough _ => ?_
  cases items with
  | nil => rfl
  | cons item items =>
    rw [chars_array, List.length_cons] at enough
    have items_read : readItems? steps (item.chars ++ (itemChars items ++ rest)) =
        some (item :: items, rest) :=
      readItems?_chars (read item List.mem_cons_self)
        (fun other member => read other (List.mem_cons_of_mem _ member)) steps (by omega)
    obtain ⟨first, behind, begins, opening⟩ :=
      exists_opens (wellFormed item List.mem_cons_self)
    obtain ⟨solid, no_bracket⟩ := ne_of_opens opening
    rw [chars_array, List.cons_append, List.append_assoc]
    rw [begins, List.cons_append] at items_read ⊢
    exact read?_array solid no_bracket items_read

theorem ReadsBack.object {entries : List (String × Json)}
    (wellFormed : ∀ entry ∈ entries, entry.2.WellFormed)
    (read : ∀ entry ∈ entries, entry.2.ReadsBack) : (Json.object entries).ReadsBack := by
  refine .of_step (.object wellFormed) fun steps rest enough _ => ?_
  cases entries with
  | nil => rfl
  | cons entry entries =>
    rw [chars_object, List.length_cons] at enough
    have entries_read : readEntries? steps
        (quoted entry.1 ++ ':' :: (entry.2.chars ++ (entryChars entries ++ rest))) =
          some (entry :: entries, rest) :=
      readEntries?_chars (read entry List.mem_cons_self)
        (fun other member => read other (List.mem_cons_of_mem _ member)) steps (by omega)
    rw [chars_object, List.cons_append, List.append_assoc, List.cons_append, List.append_assoc]
    rw [quoted_append] at entries_read ⊢
    exact read?_object rfl (by decide) entries_read

/-- **A part of a document is read back** in front of whatever can follow it. -/
theorem readsBack {json : Json} (wellFormed : json.WellFormed) : json.ReadsBack := by
  induction wellFormed with
  | null => exact .of_step .null fun _ _ _ _ => rfl
  | bool truth =>
    refine .of_step (.bool truth) fun _ _ _ _ => ?_
    cases truth <;> rfl
  | @number numeral digits =>
    refine .of_step (.number digits) fun steps rest _ ends => ?_
    have read := readNumeral?_chars digits ends
    obtain ⟨first, behind, begins, numeric⟩ := exists_numeric digits
    show read? (steps + 1) (numeral.chars ++ rest) = _
    rw [begins, List.cons_append] at read ⊢
    exact read?_number numeric read
  | text content =>
    refine .of_step (.text content) fun steps rest _ _ => ?_
    show read? (steps + 1) (quoted content ++ rest) = _
    rw [quoted_append, read?_text (readText?_escaped content.toList rest), String.ofList_toList]
  | array all read => exact .array all read
  | object all read => exact .object all read

/-- **A printed document is read back.** -/
theorem parse?_print {json : Json} (wellFormed : json.WellFormed) :
    parse? json.print = some json := by
  unfold parse? print
  have read := readsBack wellFormed (2 * json.chars.length + 1) [] (by omega) .nothing
  rw [List.append_nil] at read
  rw [String.toList_ofList]
  dsimp only
  rw [read]
  rfl

end RowLogic.Json
