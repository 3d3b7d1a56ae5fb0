/-
**Diagnostics in JSON.**

A diagnostic is an object with the six entries of its outermost notice; the cause is a diagnostic
again. What is absent is written as `null`.

Reading takes the entries in any order and passes over unknown ones. The label, the help and the
cause may be `null` or missing, the others may not, and none may come twice. The six values are
also taken without their keys, as an array.
-/

import RowLogic.Diagnostic.Basic
import RowLogic.Json.Basic

namespace RowLogic

/-- The entries of a notice, and its cause. -/
def Notice.toJson (notice : Notice) (cause : Json) : Json :=
  .object
    [("code", .text notice.code),
      ("message", .text notice.message),
      ("label", .ofText? notice.label),
      ("help", .ofText? notice.help),
      ("notes", .array (notice.notes.map .text)),
      ("cause", cause)]

/-- A chain of notices in JSON; `null` for the empty one. -/
def chainJson : List Notice → Json
  | [] => .null
  | notice :: causes => notice.toJson (chainJson causes)

/-- A diagnostic in JSON. -/
def Diagnostic.toJson (diagnostic : Diagnostic) : Json :=
  chainJson diagnostic.chain

/-! ### Reading -/

namespace Json

/-- A text. -/
def toText? : Json → Option String
  | text content => some content
  | _ => none

/-- A text or `null`. -/
def toOptionalText? : Json → Option (Option String)
  | null => some none
  | text content => some (some content)
  | _ => none

/-- An array of texts. -/
def toTexts? : Json → Option (List String)
  | array items => items.mapM toText?
  | _ => none

end Json

/-- The entries of a diagnostic found so far. -/
structure Draft where
  code : Option String := none
  message : Option String := none
  label : Option (Option String) := none
  help : Option (Option String) := none
  notes : Option (List String) := none
  cause : Option (List Notice) := none

namespace Draft

/-- The chain of notices of a complete draft. -/
def finish? (draft : Draft) : Option (List Notice) := do
  let code ← draft.code
  let message ← draft.message
  let notes ← draft.notes
  some (⟨code, message, draft.label.getD none, draft.help.getD none, notes⟩
    :: draft.cause.getD [])

/-- The draft with one more entry, not a cause; nothing if it came before or is ill-formed. -/
def enter? (draft : Draft) (key : String) (json : Json) : Option Draft :=
  if key = "code" then
    if draft.code.isSome then none
    else json.toText?.map fun code => { draft with code := code }
  else if key = "message" then
    if draft.message.isSome then none
    else json.toText?.map fun message => { draft with message := message }
  else if key = "label" then
    if draft.label.isSome then none
    else json.toOptionalText?.map fun label => { draft with label := some label }
  else if key = "help" then
    if draft.help.isSome then none
    else json.toOptionalText?.map fun help => { draft with help := some help }
  else if key = "notes" then
    if draft.notes.isSome then none
    else json.toTexts?.map fun notes => { draft with notes := notes }
  else some draft

end Draft

mutual

/-- Reads a chain of notices, which `null` ends. -/
def readChain? : Json → Option (List Notice)
  | .null => some []
  | .object entries => (readDraft? {} entries).bind Draft.finish?
  | .array [code, message, label, help, notes, cause] => do
    let code ← code.toText?
    let message ← message.toText?
    let label ← label.toOptionalText?
    let help ← help.toOptionalText?
    let notes ← notes.toTexts?
    let causes ← readChain? cause
    some (⟨code, message, label, help, notes⟩ :: causes)
  | _ => none

/-- Reads the entries of a diagnostic into a draft. -/
def readDraft? (draft : Draft) : List (String × Json) → Option Draft
  | [] => some draft
  | (key, json) :: entries =>
    if key = "cause" then
      if draft.cause.isSome then none
      else
        match readChain? json with
        | some cause => readDraft? { draft with cause := cause } entries
        | none => none
    else
      match draft.enter? key json with
      | some draft => readDraft? draft entries
      | none => none

end

/-- Reads a diagnostic. -/
def Diagnostic.ofJson? (json : Json) : Option Diagnostic :=
  (readChain? json).bind ofChain?

end RowLogic
