/-
**Causes are rendered like what they cause, further to the right.**

A notice is a list of lines, and its block at some depth is these lines behind two blanks for each
level, the empty ones left as they are (`Notice.block_eq`). The lines of a cause stand two blanks
behind those of what it caused, so a whole chain is a list of lines too (`Diagnostic.renderAt_eq`),
and to render it deeper is to shift its text (`Diagnostic.renderAt_eq_shifted`).

That is read off the text alone, line by line (`shifted`), so no text in a notice may hold a line
break of its own.
-/

import Mathlib.Data.List.Basic
import RowLogic.Diagnostic.Rendering

namespace RowLogic

/-! ### Lines -/

/-- A line behind some blanks; an empty line stays empty. -/
def padded (blanks : Nat) (line : List Char) : List Char :=
  if line.isEmpty then [] else List.replicate blanks ' ' ++ line

/-- The text with some blanks in front of each line that is not empty. -/
def shifted (blanks : Nat) (chars : List Char) : List Char :=
  ['\n'].intercalate ((chars.splitOn '\n').map (padded blanks))

/-- Some lines, each with its line break. -/
def ended (lines : List (List Char)) : List Char :=
  lines.flatMap (· ++ ['\n'])

section Lines

variable {lines : List (List Char)} {line : List Char}

theorem ended_append (lines lines' : List (List Char)) :
    ended (lines ++ lines') = ended lines ++ ended lines' :=
  List.flatMap_append

theorem padded_of_ne_nil (blanks : Nat) (some_char : line ≠ []) :
    padded blanks line = List.replicate blanks ' ' ++ line :=
  if_neg (by simpa using some_char)

theorem padded_zero (line : List Char) : padded 0 line = line := by
  cases line <;> rfl

theorem padded_padded (blanks blanks' : Nat) (line : List Char) :
    padded blanks (padded blanks' line) = padded (blanks + blanks') line := by
  cases line with
  | nil => rfl
  | cons char line =>
    have some_char : List.replicate blanks' ' ' ++ char :: line ≠ [] := by simp
    rw [padded_of_ne_nil blanks' (List.cons_ne_nil _ _), padded_of_ne_nil blanks some_char,
      padded_of_ne_nil _ (List.cons_ne_nil _ _), ← List.append_assoc,
      List.replicate_append_replicate]

/-- The first line of a text is told from the others. -/
theorem shifted_cons (blanks : Nat) (whole : '\n' ∉ line) (rest : List Char) :
    shifted blanks (line ++ '\n' :: rest) = padded blanks line ++ '\n' :: shifted blanks rest := by
  have others : (rest.splitOn '\n').map (padded blanks) ≠ [] :=
    mt List.map_eq_nil_iff.mp (List.splitOn_ne_nil '\n' rest)
  unfold shifted
  rw [List.splitOn_append_cons_self_of_not_mem whole, List.map_cons,
    List.intercalate_cons_of_ne_nil others, List.append_assoc, List.singleton_append]

/-- **To shift some lines is to shift each of them.** -/
theorem shifted_ended (blanks : Nat) (whole : ∀ line ∈ lines, '\n' ∉ line) :
    shifted blanks (ended lines) = ended (lines.map (padded blanks)) := by
  induction lines with
  | nil => rfl
  | cons line lines ih =>
    have others := ih fun line member => whole line (List.mem_cons_of_mem _ member)
    show shifted blanks (line ++ ['\n'] ++ ended lines) = _
    rw [List.append_assoc, List.singleton_append,
      shifted_cons blanks (whole line List.mem_cons_self), others, List.map_cons]
    show _ = padded blanks line ++ ['\n'] ++ ended (lines.map (padded blanks))
    rw [List.append_assoc, List.singleton_append]

end Lines

/-! ### The lines of a diagnostic -/

/-- The texts of a notice. -/
def Notice.texts (notice : Notice) : List String :=
  notice.code :: notice.message :: (notice.label.toList ++ notice.help.toList ++ notice.notes)

/-- No text of a notice has a line break. -/
def Notice.SingleLined (notice : Notice) : Prop :=
  ∀ text ∈ notice.texts, '\n' ∉ text.toList

/-- No text of a diagnostic or of one of its causes has a line break. -/
def Diagnostic.SingleLined (diagnostic : Diagnostic) : Prop :=
  ∀ notice ∈ diagnostic.chain, notice.SingleLined

namespace Notice

/-- The lines of a notice. -/
def lines (notice : Notice) : List (List Char) :=
  ["error[".toList ++ notice.code.toList ++ "]: ".toList ++ notice.message.toList] ++
    (notice.label.toList.map fun label => "  = ".toList ++ label.toList) ++
    (notice.help.toList.flatMap fun help => [[], "help: ".toList ++ help.toList]) ++
    notice.notes.flatMap fun note => [[], "note: ".toList ++ note.toList]

/-- The lines of the causes of a notice. -/
def causeLines : List Notice → List (List Char)
  | [] => []
  | cause :: causes =>
    [] :: "caused by:".toList :: (cause.lines ++ causeLines causes).map (padded 2)

section Blocks

variable {content : List Char}

theorem line_eq (depth : Nat) (some_char : content ≠ []) :
    line depth content = ended ([content].map (padded (2 * depth))) := by
  rw [List.map_singleton, padded_of_ne_nil _ some_char]
  exact (List.append_nil _).symm

theorem paragraph_eq (depth : Nat) (some_char : content ≠ []) :
    paragraph depth content = ended ([[], content].map (padded (2 * depth))) := by
  rw [paragraph, line_eq depth some_char]
  rfl

/-- **A block is the lines of its notice**, each behind the blanks of its depth. -/
theorem block_eq (depth : Nat) (notice : Notice) :
    notice.block depth = ended (notice.lines.map (padded (2 * depth))) := by
  have title : line depth ("error[".toList ++ notice.code.toList ++ "]: ".toList ++
      notice.message.toList) = _ := line_eq depth (by simp)
  have label : notice.label.elim [] (fun label => line depth ("  = ".toList ++ label.toList)) =
      ended ((notice.label.toList.map fun label => "  = ".toList ++ label.toList).map
        (padded (2 * depth))) := by
    cases notice.label with
    | none => rfl
    | some label => exact line_eq depth (by simp)
  have help : notice.help.elim [] (fun help => paragraph depth ("help: ".toList ++ help.toList)) =
      ended ((notice.help.toList.flatMap fun help => [[], "help: ".toList ++ help.toList]).map
        (padded (2 * depth))) := by
    cases notice.help with
    | none => rfl
    | some help => exact paragraph_eq depth (by simp)
  have notes : (notice.notes.flatMap fun note => paragraph depth ("note: ".toList ++ note.toList)) =
      ended ((notice.notes.flatMap fun note => [[], "note: ".toList ++ note.toList]).map
        (padded (2 * depth))) := by
    rw [List.map_flatMap, ended, List.flatMap_assoc]
    exact List.flatMap_congr fun note _ => paragraph_eq depth (by simp)
  have parts : notice.block depth =
      line depth ("error[".toList ++ notice.code.toList ++ "]: ".toList ++
        notice.message.toList) ++
      notice.label.elim [] (fun label => line depth ("  = ".toList ++ label.toList)) ++
      notice.help.elim [] (fun help => paragraph depth ("help: ".toList ++ help.toList)) ++
      notice.notes.flatMap fun note => paragraph depth ("note: ".toList ++ note.toList) := by
    unfold block
    cases notice.label <;> cases notice.help <;> rfl
  rw [parts, title, label, help, notes, ← ended_append, ← ended_append, ← ended_append,
    ← List.map_append, ← List.map_append, ← List.map_append, lines]

theorem causeBlocks_eq (depth : Nat) (causes : List Notice) :
    causeBlocks depth causes = ended ((causeLines causes).map (padded (2 * depth))) := by
  induction causes generalizing depth with
  | nil => rfl
  | cons cause causes ih =>
    have deeper : padded (2 * depth) ∘ padded 2 = padded (2 * (depth + 1)) :=
      funext (padded_padded (2 * depth) 2)
    have split : causeLines (cause :: causes) =
        [[], "caused by:".toList] ++ (cause.lines ++ causeLines causes).map (padded 2) := rfl
    rw [causeBlocks, paragraph_eq depth (by simp), block_eq, ih, split, List.map_append,
      List.map_map, deeper, List.map_append, ended_append, ended_append, List.append_assoc]

end Blocks

end Notice

/-! ### The text of a diagnostic -/

theorem not_mem_padded {blanks : Nat} {line : List Char} (whole : '\n' ∉ line) :
    '\n' ∉ padded blanks line := by
  unfold padded
  split
  · exact List.not_mem_nil
  · simp [whole]

theorem Notice.not_mem_lines {notice : Notice} (single : notice.SingleLined) :
    ∀ line ∈ notice.lines, '\n' ∉ line := by
  simp only [SingleLined, texts, List.mem_cons, List.mem_append, Option.mem_toList] at single
  intro line member
  simp only [lines, List.mem_cons, List.mem_append, List.mem_map, List.mem_flatMap,
    Option.mem_toList, List.not_mem_nil, or_false] at member
  rcases member with
    ((rfl | ⟨label, given, rfl⟩) | ⟨help, given, rfl | rfl⟩) | ⟨note, given, rfl | rfl⟩
  · simp [single notice.code (by simp), single notice.message (by simp)]
  · simp [single label (by simp [given])]
  · exact List.not_mem_nil
  · simp [single help (by simp [given])]
  · exact List.not_mem_nil
  · simp [single note (by simp [given])]

theorem Notice.not_mem_causeLines {causes : List Notice}
    (single : ∀ cause ∈ causes, cause.SingleLined) :
    ∀ line ∈ causeLines causes, '\n' ∉ line := by
  induction causes with
  | nil => exact fun line member => absurd member List.not_mem_nil
  | cons cause causes ih =>
    have own := not_mem_lines (single cause List.mem_cons_self)
    have others := ih fun cause member => single cause (List.mem_cons_of_mem _ member)
    intro line member
    rw [causeLines, List.mem_cons, List.mem_cons, List.map_append, List.mem_append, List.mem_map,
      List.mem_map] at member
    rcases member with rfl | rfl | ⟨line, inside, rfl⟩ | ⟨line, inside, rfl⟩
    · exact List.not_mem_nil
    · decide
    · exact not_mem_padded (own line inside)
    · exact not_mem_padded (others line inside)

namespace Diagnostic

variable {diagnostic : Diagnostic}

/-- The lines of a diagnostic. -/
def lines (diagnostic : Diagnostic) : List (List Char) :=
  diagnostic.head.lines ++ Notice.causeLines diagnostic.causes

/-- **A diagnostic is a list of lines**, each behind the blanks of its depth. -/
theorem renderAt_eq (depth : Nat) (diagnostic : Diagnostic) :
    diagnostic.renderAt depth = ended (diagnostic.lines.map (padded (2 * depth))) := by
  rw [renderAt, Notice.block_eq, Notice.causeBlocks_eq, lines, List.map_append, ended_append]

theorem toList_text (diagnostic : Diagnostic) :
    diagnostic.text.toList = ended diagnostic.lines := by
  have unshifted : padded (2 * 0) = id := funext padded_zero
  rw [text, String.toList_ofList, renderAt_eq, unshifted, List.map_id]

/-- **To render a diagnostic deeper is to shift its text.** -/
theorem renderAt_eq_shifted (single : diagnostic.SingleLined) (depth : Nat) :
    diagnostic.renderAt depth = shifted (2 * depth) diagnostic.text.toList := by
  have whole : ∀ line ∈ diagnostic.lines, '\n' ∉ line := by
    intro line member
    rcases List.mem_append.mp member with own | below
    · exact Notice.not_mem_lines (single _ List.mem_cons_self) line own
    · have causes := fun cause linked => single cause (List.mem_cons_of_mem _ linked)
      exact Notice.not_mem_causeLines causes line below
  rw [toList_text, shifted_ended _ whole, renderAt_eq]

end Diagnostic

/-! ### Links of a chain -/

namespace Notice

/-- What stands in front of a link of a chain: nothing for the outermost one. -/
def announcement : Nat → List Char
  | 0 => []
  | level + 1 => shifted (2 * level) "\ncaused by:\n".toList

/-- A link of a chain as it is shown below `level` others: its own text, shifted. -/
def shownAt (level : Nat) (notice : Notice) : List Char :=
  announcement level ++ shifted (2 * level) (Diagnostic.mk notice []).text.toList

variable {notice : Notice} {causes : List Notice}

theorem announcement_succ (level : Nat) :
    announcement (level + 1) = paragraph level "caused by:".toList := by
  have whole : ∀ line ∈ [[], "caused by:".toList], '\n' ∉ line := by decide
  rw [paragraph_eq level (by decide)]
  exact shifted_ended (2 * level) whole

theorem shownAt_eq (single : notice.SingleLined) (level : Nat) :
    notice.shownAt level = announcement level ++ notice.block level := by
  have alone : (Diagnostic.mk notice []).SingleLined := fun other member =>
    List.mem_singleton.mp member ▸ single
  rw [shownAt, ← Diagnostic.renderAt_eq_shifted alone, Diagnostic.renderAt, causeBlocks,
    List.append_nil]

/-- The blocks of some causes are the causes one by one, each at its place in the chain. -/
theorem causeBlocks_eq_flatMap (single : ∀ cause ∈ causes, cause.SingleLined) (depth : Nat) :
    causeBlocks depth causes =
      (causes.zipIdx (depth + 1)).flatMap fun link => link.1.shownAt link.2 := by
  induction causes generalizing depth with
  | nil => rfl
  | cons cause causes ih =>
    have others := ih (fun cause member => single cause (List.mem_cons_of_mem _ member)) (depth + 1)
    have own := shownAt_eq (single cause List.mem_cons_self) (depth + 1)
    rw [causeBlocks, List.zipIdx_cons, List.flatMap_cons, others, own, announcement_succ]

end Notice

namespace Diagnostic

variable {diagnostic cause : Diagnostic}

/-- **A chain is shown link by link.** -/
theorem toList_text_eq_flatMap (single : diagnostic.SingleLined) :
    diagnostic.text.toList = diagnostic.chain.zipIdx.flatMap fun link => link.1.shownAt link.2 := by
  have first := Notice.shownAt_eq (single diagnostic.head List.mem_cons_self) 0
  have below := Notice.causeBlocks_eq_flatMap
    (fun cause member => single cause (List.mem_cons_of_mem _ member)) 0
  rw [text, String.toList_ofList, renderAt, below, chain, List.zipIdx_cons, List.flatMap_cons,
    first, Notice.announcement, List.nil_append]

/-- A cause follows what it caused, one level deeper. -/
theorem renderAt_withCause (depth : Nat) (diagnostic cause : Diagnostic) :
    (diagnostic.withCause cause).renderAt depth =
      (Diagnostic.mk diagnostic.head []).renderAt depth ++
        Notice.paragraph depth "caused by:".toList ++ cause.renderAt (depth + 1) := by
  simp only [renderAt, head_withCause, causes_withCause, chain, Notice.causeBlocks, List.append_nil,
    List.append_assoc]

theorem text_withCause (single : cause.SingleLined) (diagnostic : Diagnostic) :
    (diagnostic.withCause cause).text = (Diagnostic.mk diagnostic.head []).text ++
      "\ncaused by:\n" ++ String.ofList (shifted 2 cause.text.toList) := by
  have deeper := renderAt_eq_shifted single 1
  rw [text, renderAt_withCause, deeper, String.ofList_append, String.ofList_append]
  rfl

/-- **The causes of a diagnostic are indented uniformly.** At any depth its text is shifted by two
blanks for each level; a cause is announced behind an empty line and its text follows, shifted by
two blanks; so each link of the chain is shown as it would be alone, shifted to its place. -/
theorem shifted_to_its_place (single : diagnostic.SingleLined) :
    (∀ depth, diagnostic.renderAt depth = shifted (2 * depth) diagnostic.text.toList) ∧
    (∀ outer : Diagnostic, (outer.withCause diagnostic).text = (Diagnostic.mk outer.head []).text ++
      "\ncaused by:\n" ++ String.ofList (shifted 2 diagnostic.text.toList)) ∧
    diagnostic.text.toList = diagnostic.chain.zipIdx.flatMap fun link =>
      Notice.announcement link.2 ++
        shifted (2 * link.2) (Diagnostic.mk link.1 []).text.toList :=
  ⟨renderAt_eq_shifted single, text_withCause single, toList_text_eq_flatMap single⟩

/-- Two links below a third one: their texts move two blanks to the right, empty lines do not. -/
theorem shifted_to_its_place_twice :
    let outer : Diagnostic := ⟨⟨"A", "a", some "l", some "h", ["n", "o"]⟩, []⟩
    let cause : Diagnostic := ⟨⟨"B", "b", some "l", none, []⟩, [⟨"C", "c", none, none, ["m"]⟩]⟩
    cause.SingleLined ∧
      cause.renderAt 1 = shifted 2 cause.text.toList ∧
      (outer.withCause cause).text =
        "error[A]: a\n  = l\n\nhelp: h\n\nnote: n\n\nnote: o\n" ++ "\ncaused by:\n" ++
          "  error[B]: b\n    = l\n\n  caused by:\n    error[C]: c\n\n    note: m\n" := by
  intro outer cause
  have single : cause.SingleLined := by
    unfold SingleLined Notice.SingleLined
    decide
  obtain ⟨deeper, caused, -⟩ := shifted_to_its_place single
  refine ⟨single, deeper 1, ?_⟩
  rw [caused outer]
  decide

end Diagnostic

end RowLogic
