/-
**Diagnostics.**

A diagnostic describes a failure to a reader: one notice, and the chain of notices that led to it,
the nearest first. The code of a notice is stable and begins with the part of the program it comes
from, so failures are told apart by it and never by their wording.

* `causes_withCause`: giving a diagnostic a cause replaces the chain it had.
-/

namespace RowLogic

/-- One described failure. -/
structure Notice where
  code : String
  message : String
  label : Option String := none
  help : Option String := none
  notes : List String := []
deriving DecidableEq, Repr, Inhabited

/-- A failure and the failures that caused it, each by the next one. -/
structure Diagnostic where
  head : Notice
  causes : List Notice := []
deriving DecidableEq, Repr, Inhabited

namespace Diagnostic

/-- All notices, the outermost failure first. -/
def chain (diagnostic : Diagnostic) : List Notice :=
  diagnostic.head :: diagnostic.causes

/-- The diagnostic of a chain of notices. -/
def ofChain? : List Notice → Option Diagnostic
  | [] => none
  | head :: causes => some ⟨head, causes⟩

/-- The failure with another one as its cause. -/
def withCause (diagnostic cause : Diagnostic) : Diagnostic :=
  ⟨diagnostic.head, cause.chain⟩

/-- An operand of a connective was not boolean. -/
def isTypeMismatch (diagnostic : Diagnostic) : Bool :=
  "LOGICAL_".toList.isPrefixOf diagnostic.head.code.toList

/-- The bytes handed to a decoder were cut short or corrupted. -/
def isMalformedEncoding (diagnostic : Diagnostic) : Bool :=
  "WIRE_".toList.isPrefixOf diagnostic.head.code.toList

@[simp] theorem head_withCause (diagnostic cause : Diagnostic) :
    (diagnostic.withCause cause).head = diagnostic.head := rfl

@[simp] theorem causes_withCause (diagnostic cause : Diagnostic) :
    (diagnostic.withCause cause).causes = cause.chain := rfl

end Diagnostic

end RowLogic
