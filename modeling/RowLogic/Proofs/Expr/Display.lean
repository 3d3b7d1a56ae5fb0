/-
**Expressions are told apart by their texts.**

The operands of a connective stand between parentheses with a blank on either side of its name, and
a leaf is a word or a quoted text. So, if no quoted text holds a quote, the text of an expression
ends where it has to, whatever follows, and it says what the expression is made of
(`readsLike_of_append`); which types are declared, what a probe does and which operands are marked
it does not say (`ReadsLike`).
-/

import RowLogic.Expr.Basic
import RowLogic.Proofs.Value.Text

namespace RowLogic.Expr

/-- No text constant holds a quote. -/
def quoteFree : Expr → Bool
  | constant value => value.quoteFree
  | connective left right .. => left.quoteFree && right.quoteFree
  | _ => true

/-- The same connectives over the same leaves, as far as a text says: constants have one text, and
so are equal or numbers of two types; columns and parameters have one index. -/
inductive ReadsLike : Expr → Expr → Prop where
  | constant {value value' : Value} (text : value.text = value'.text)
    (differ : value = value' ∨
      value.isNumber = true ∧ value'.isNumber = true ∧ value.dataType ≠ value'.dataType) :
    ReadsLike (.constant value) (.constant value')
  | column (index : UInt32) (type type' : DataType) :
    ReadsLike (.column index type) (.column index type')
  | parameter (index : UInt32) (type type' : DataType) :
    ReadsLike (.parameter index type) (.parameter index type')
  | probe (leaf leaf' : Probe) : ReadsLike (.probe leaf) (.probe leaf')
  | connective {left right left' right' : Expr} (kind : Connective)
    (leftChecked rightChecked leftChecked' rightChecked' : Bool) (lefts : ReadsLike left left')
    (rights : ReadsLike right right') :
    ReadsLike (.connective left right kind leftChecked rightChecked)
      (.connective left' right' kind leftChecked' rightChecked')

variable {kind kind' : Connective} {index index' : UInt32} {type type' : DataType} {char : Char}
  {rest rest' : List Char}

/-! ### Leaves -/

theorem inWord_of_mem_column (member : char ∈ (column index type).chars) : inWord char = true := by
  have frame : ∀ char ∈ "col[".toList ++ [']'], inWord char = true := List.all_eq_true.mp rfl
  rcases List.mem_append.mp member with member | last
  · rcases List.mem_append.mp member with first | digit
    · exact frame char (List.mem_append_left _ first)
    · exact inWord_of_isDigit (isDigit_of_mem_toDigits digit)
  · exact frame char (List.mem_append_right _ last)

theorem inWord_of_mem_parameter (member : char ∈ (parameter index type).chars) :
    inWord char = true := by
  rcases List.mem_cons.mp member with rfl | digit
  · rfl
  · exact inWord_of_isDigit (isDigit_of_mem_toDigits digit)

theorem index_eq_of_column (same : (column index type).chars = (column index' type').chars) :
    index = index' := by
  have digits := List.append_cancel_left (List.append_cancel_right same)
  exact UInt32.toNat_inj.mp (toDigits_injective digits)

theorem index_eq_of_parameter
    (same : (parameter index type).chars = (parameter index' type').chars) : index = index' := by
  have numbers := toDigits_injective (List.cons.inj same).2
  exact UInt32.toNat_inj.mp (Nat.succ.inj numbers)

/-! ### What a text begins with -/

/-- The character that the text of an expression begins with; nothing for a constant. -/
def mark : Expr → Option Char
  | constant _ => none
  | column .. => 'c'
  | parameter .. => '$'
  | probe _ => 'p'
  | connective .. => '('

/-- The characters that texts of other expressions than constants begin with. -/
def marks : List Char :=
  ['c', '$', 'p', '(']

theorem chars_ne_nil (expr : Expr) : expr.chars ≠ [] := by
  cases expr with
  | constant value => exact value.chars_ne_nil
  | _ => exact List.cons_ne_nil _ _

/-- **The kind of an expression shows in the first character of its text.** -/
theorem mark?_chars (expr : Expr) : mark? marks expr.chars = expr.mark := by
  have numbers : marks.any beginsNumber = false := rfl
  have values : marks.any (Value.marks.contains ·) = false := rfl
  cases expr with
  | constant value =>
    obtain ⟨first, rest, text, begins⟩ := value.exists_begins
    show mark? marks value.chars = none
    rw [text]
    refine mark?_of_not_mem (fun member => ?_) rest
    rcases begins with ⟨begins, -⟩ | ⟨begins, -⟩
    · exact List.any_eq_false.mp numbers first member begins
    · exact List.any_eq_false.mp values first member (List.contains_iff_mem.mpr begins)
  | _ => rfl

theorem mark_eq_of_append {first second : Expr}
    (same : first.chars ++ rest = second.chars ++ rest') : first.mark = second.mark := by
  have marks := congrArg (mark? marks) same
  rwa [mark?_append first.chars_ne_nil, mark?_append second.chars_ne_nil, mark?_chars,
    mark?_chars] at marks

/-! ### Connectives -/

theorem chars_connective_append (left right : Expr) (kind : Connective)
    (leftChecked rightChecked : Bool) (rest : List Char) :
    (connective left right kind leftChecked rightChecked).chars ++ rest =
      '(' :: (left.chars ++
        ' ' :: (kind.name.toList ++ ' ' :: (right.chars ++ ')' :: rest))) := by
  simp [chars, List.append_assoc]

/-- The name of a connective is read up to the blank. -/
theorem name_append_inj
    (same : kind.name.toList ++ ' ' :: rest = kind'.name.toList ++ ' ' :: rest') :
    kind = kind' ∧ rest = rest' := by
  have word : ∀ kind : Connective, ∀ char ∈ kind.name.toList, inWord char = true := by
    intro kind
    cases kind <;> exact List.all_eq_true.mp rfl
  obtain ⟨names, ends⟩ :=
    append_inj_of_stops (word kind) (word kind') (stops_cons rfl rest) (stops_cons rfl rest') same
  refine ⟨?_, (List.cons.inj ends).2⟩
  revert names
  cases kind <;> cases kind' <;> decide

/-! ### Expressions -/

/-- **The text of an expression is read up to its end, and says what the expression is.** -/
theorem readsLike_of_append {first second : Expr} (free : first.quoteFree = true)
    (free' : second.quoteFree = true) (stops : Stops inWord rest) (stops' : Stops inWord rest')
    (same : first.chars ++ rest = second.chars ++ rest') :
    first.ReadsLike second ∧ rest = rest' := by
  have marks := mark_eq_of_append same
  induction first generalizing second rest rest' with
  | constant value =>
    cases second with
    | constant value' =>
      obtain ⟨texts, ends⟩ := Value.chars_append_inj free free' stops stops' same
      exact ⟨.constant (congrArg String.ofList texts) (Value.eq_or_number_of_chars texts), ends⟩
    | _ => cases marks
  | column index type =>
    cases second with
    | column index' type' =>
      obtain ⟨texts, ends⟩ := append_inj_of_stops (fun _ => inWord_of_mem_column)
        (fun _ => inWord_of_mem_column) stops stops' same
      obtain rfl := index_eq_of_column texts
      exact ⟨.column index type type', ends⟩
    | _ => cases marks
  | parameter index type =>
    cases second with
    | parameter index' type' =>
      obtain ⟨texts, ends⟩ := append_inj_of_stops (fun _ => inWord_of_mem_parameter)
        (fun _ => inWord_of_mem_parameter) stops stops' same
      obtain rfl := index_eq_of_parameter texts
      exact ⟨.parameter index type type', ends⟩
    | _ => cases marks
  | probe leaf =>
    cases second with
    | probe leaf' => exact ⟨.probe leaf leaf', List.append_cancel_left same⟩
    | _ => cases marks
  | connective left right kind leftChecked rightChecked ih_left ih_right =>
    cases second with
    | connective left' right' kind' leftChecked' rightChecked' =>
      obtain ⟨free_left, free_right⟩ := Bool.and_eq_true_iff.mp free
      obtain ⟨free_left', free_right'⟩ := Bool.and_eq_true_iff.mp free'
      rw [chars_connective_append, chars_connective_append] at same
      have operands := (List.cons.inj same).2
      -- the blank behind the left operand, the name, and the parenthesis behind the right one
      obtain ⟨lefts, names⟩ := ih_left free_left free_left' (stops_cons rfl _)
        (stops_cons rfl _) operands (mark_eq_of_append operands)
      obtain ⟨rfl, operands'⟩ := name_append_inj (List.cons.inj names).2
      obtain ⟨rights, ends⟩ := ih_right free_right free_right' (stops_cons rfl _)
        (stops_cons rfl _) operands' (mark_eq_of_append operands')
      exact ⟨.connective kind _ _ _ _ lefts rights, (List.cons.inj ends).2⟩
    | _ => cases marks

theorem ReadsLike.chars_eq {first second : Expr} (alike : first.ReadsLike second) :
    first.chars = second.chars := by
  induction alike with
  | constant text => exact String.ofList_injective text
  | column => rfl
  | parameter => rfl
  | probe => rfl
  | connective kind _ _ _ _ _ _ lefts rights => rw [chars, chars, lefts, rights]

/-- **The text of an expression is unambiguous**, if no text constant holds a quote. -/
theorem text_unambiguous (first second : Expr) (free : first.quoteFree = true)
    (free' : second.quoteFree = true) :
    first.text = second.text ↔ first.ReadsLike second := by
  refine ⟨fun same => ?_, fun alike => congrArg String.ofList alike.chars_eq⟩
  have texts := congrArg String.toList same
  rw [text, text, String.toList_ofList, String.toList_ofList] at texts
  refine (readsLike_of_append free free' stops_nil stops_nil ?_).1
  rw [texts]

/-- A text that looks like operands, and two expressions that differ in what a text does not say. -/
theorem text_unambiguous_nested :
    let first := combine .and (constant (.utf8 "a) or (b"))
      (combine .or (column 2 .boolean) (constant (.int4 1)))
    let second := combine .and (constant (.utf8 "a) or (b"))
      (combine .or (column 2 .int8) (constant (.int8 1)))
    first ≠ second ∧ first.ReadsLike second :=
  ⟨by decide, (text_unambiguous _ _ (by decide) (by decide)).mp (by decide)⟩

end RowLogic.Expr
