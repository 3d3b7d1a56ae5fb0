/-
**Diagnostics as text.**

A notice becomes a block of lines: its code and message, its label, then the help and each note
after an empty line. The block of a cause follows its notice after the line `caused by:`, two
spaces deeper than that. Empty lines are never indented.
-/

import RowLogic.Diagnostic.Basic

namespace RowLogic

namespace Notice

/-- The spaces in front of a line at some depth of the chain. -/
def indent (depth : Nat) : List Char :=
  List.replicate (2 * depth) ' '

/-- A line at some depth. -/
def line (depth : Nat) (content : List Char) : List Char :=
  indent depth ++ content ++ ['\n']

/-- A line at some depth, behind an empty one. -/
def paragraph (depth : Nat) (content : List Char) : List Char :=
  '\n' :: line depth content

/-- The block of a notice at some depth. -/
def block (depth : Nat) (notice : Notice) : List Char :=
  line depth ("error[".toList ++ notice.code.toList ++ "]: ".toList ++ notice.message.toList) ++
    (match notice.label with
      | some label => line depth ("  = ".toList ++ label.toList)
      | none => []) ++
    (match notice.help with
      | some help => paragraph depth ("help: ".toList ++ help.toList)
      | none => []) ++
    notice.notes.flatMap fun note => paragraph depth ("note: ".toList ++ note.toList)

/-- The blocks of the causes of a notice that stands at some depth. -/
def causeBlocks (depth : Nat) : List Notice → List Char
  | [] => []
  | cause :: causes =>
    paragraph depth "caused by:".toList ++ cause.block (depth + 1) ++
      causeBlocks (depth + 1) causes

end Notice

namespace Diagnostic

/-- The text of a diagnostic at some depth. -/
def renderAt (depth : Nat) (diagnostic : Diagnostic) : List Char :=
  diagnostic.head.block depth ++ Notice.causeBlocks depth diagnostic.causes

/-- The text of a diagnostic. -/
def text (diagnostic : Diagnostic) : String :=
  String.ofList (diagnostic.renderAt 0)

end Diagnostic

end RowLogic
