/-
**Diagnostics survive JSON.**

A diagnostic is read back from its document (`readChain?_chainJson`) and from the text of this
document. So it is from a document that says less or more: without some of the entries that are
`null`, or with entries that a diagnostic does not have, at any place of the chain (`Loosens`).

That is no property of written documents. What is read of a document, whatever it is, is read of
each document that loosens it (`readDraft?_of_loosens`): along the entries the two drafts agree but
for entries that are still absent in one of them and `null` in the other (`Draft.Sparser`).
-/

import RowLogic.Diagnostic.Json
import RowLogic.Proofs.Json.RoundTrip

namespace RowLogic

/-! ### The document of a diagnostic -/

theorem Json.toTexts?_texts (notes : List String) :
    (Json.array (notes.map .text)).toTexts? = some notes := by
  show (notes.map Json.text).mapM Json.toText? = some notes
  induction notes with
  | nil => rfl
  | cons note notes ih =>
    rw [List.map_cons, List.mapM_cons, ih]
    rfl

theorem Json.toOptionalText?_ofText? (content : Option String) :
    (Json.ofText? content).toOptionalText? = some content := by
  cases content <;> rfl

/-- **A chain of notices is read back from its document.** -/
theorem readChain?_chainJson (chain : List Notice) : readChain? (chainJson chain) = some chain := by
  induction chain with
  | nil => rw [chainJson, readChain?]
  | cons notice causes ih =>
    rw [chainJson, Notice.toJson, readChain?]
    simp [readDraft?, Draft.enter?, Draft.finish?, ih, Json.toText?, Json.toOptionalText?_ofText?,
      Json.toTexts?_texts]

/-- The document of a chain can be printed. -/
theorem wellFormed_chainJson (chain : List Notice) : (chainJson chain).WellFormed := by
  induction chain with
  | nil => exact .null
  | cons notice causes ih =>
    have optional (content : Option String) : (Json.ofText? content).WellFormed := by
      cases content with
      | none => exact .null
      | some content => exact .text content
    refine .object fun entry member => ?_
    simp only [List.mem_cons, List.not_mem_nil, or_false] at member
    rcases member with rfl | rfl | rfl | rfl | rfl | rfl
    · exact .text notice.code
    · exact .text notice.message
    · exact optional notice.label
    · exact optional notice.help
    · refine .array fun item member => ?_
      obtain ⟨note, -, rfl⟩ := List.mem_map.mp member
      exact .text note
    · exact ih

/-! ### Looser documents -/

namespace Json

/-- The keys of a diagnostic. -/
def diagnosticKeys : List String :=
  ["code", "message", "label", "help", "notes", "cause"]

/-- The second entries are the first ones of a diagnostic, without some that are `null` and with
some that no diagnostic has; so are the entries of its causes. -/
inductive Loosens : List (String × Json) → List (String × Json) → Prop where
  | nil : Loosens [] []
  | keep {entries loosened : List (String × Json)} (entry : String × Json)
    (others : Loosens entries loosened) : Loosens (entry :: entries) (entry :: loosened)
  | cause {entries loosened cause loosenedCause : List (String × Json)}
    (inner : Loosens cause loosenedCause) (others : Loosens entries loosened) :
    Loosens (("cause", object cause) :: entries) (("cause", object loosenedCause) :: loosened)
  | drop {entries loosened : List (String × Json)} {key : String}
    (optional : key ∈ ["label", "help", "cause"]) (others : Loosens entries loosened) :
    Loosens ((key, null) :: entries) loosened
  | add {entries loosened : List (String × Json)} {key : String} (value : Json)
    (unknown : key ∉ diagnosticKeys) (others : Loosens entries loosened) :
    Loosens entries ((key, value) :: loosened)

end Json

open Json (Loosens)

/-! ### Drafts that say the same -/

/-- The second of two optional entries is the first one, or is still missing where the first one
has the value of a missing entry. -/
def Elided {α : Type} (missing : α) (full sparse : Option α) : Prop :=
  sparse = full ∨ full = some missing ∧ sparse = none

namespace Elided

variable {α : Type} {missing : α} {full sparse : Option α}

theorem getD_eq (elided : Elided missing full sparse) :
    sparse.getD missing = full.getD missing := by
  rcases elided with rfl | ⟨rfl, rfl⟩ <;> rfl

/-- What is new to the first entry is new to the second one. -/
theorem eq_none (elided : Elided missing full sparse) (new : full = none) : sparse = none := by
  rcases elided with rfl | ⟨set, -⟩
  · exact new
  · rw [new] at set
    cases set

end Elided

/-- Two drafts agree, but for entries that are missing in the second one and have the value of a
missing entry in the first one. -/
structure Draft.Sparser (full sparse : Draft) : Prop where
  code : sparse.code = full.code
  message : sparse.message = full.message
  label : Elided none full.label sparse.label
  help : Elided none full.help sparse.help
  notes : sparse.notes = full.notes
  cause : Elided [] full.cause sparse.cause

namespace Draft.Sparser

variable {full sparse full' : Draft} {key : String} {json : Json}

theorem refl (draft : Draft) : Sparser draft draft :=
  ⟨rfl, rfl, .inl rfl, .inl rfl, rfl, .inl rfl⟩

/-- Both drafts make the same chain. -/
theorem finish?_eq (sparser : Sparser full sparse) : sparse.finish? = full.finish? := by
  unfold finish?
  rw [sparser.code, sparser.message, sparser.notes, sparser.label.getD_eq, sparser.help.getD_eq,
    sparser.cause.getD_eq]

/-- A value is entered into both drafts if it is new to the first one. -/
theorem exists_set {α β : Type} {held held' : Option α} {value? : Option β} {set set' : β → Draft}
    (new : held = none → held' = none)
    (entered : (if held.isSome then none else value?.map set) = some full')
    (agree : ∀ value, Sparser (set value) (set' value)) :
    ∃ sparse', (if held'.isSome then none else value?.map set') = some sparse' ∧
      Sparser full' sparse' := by
  cases first : held with
  | some value =>
    rw [first] at entered
    cases entered
  | none =>
    rw [first] at entered
    obtain ⟨value, read, rfl⟩ := Option.map_eq_some_iff.mp entered
    rw [new first, read]
    exact ⟨set' value, rfl, agree value⟩

/-- The same entry is entered into both drafts. -/
theorem enter? (sparser : Sparser full sparse) (entered : full.enter? key json = some full') :
    ∃ sparse', sparse.enter? key json = some sparse' ∧ Sparser full' sparse' := by
  unfold Draft.enter? at entered ⊢
  by_cases code : key = "code"
  · rw [if_pos code] at entered ⊢
    exact exists_set sparser.code.trans entered fun _ => { sparser with code := rfl }
  by_cases message : key = "message"
  · rw [if_neg code, if_pos message] at entered ⊢
    exact exists_set sparser.message.trans entered fun _ => { sparser with message := rfl }
  by_cases label : key = "label"
  · rw [if_neg code, if_neg message, if_pos label] at entered ⊢
    exact exists_set sparser.label.eq_none entered fun _ => { sparser with label := .inl rfl }
  by_cases help : key = "help"
  · rw [if_neg code, if_neg message, if_neg label, if_pos help] at entered ⊢
    exact exists_set sparser.help.eq_none entered fun _ => { sparser with help := .inl rfl }
  by_cases notes : key = "notes"
  · rw [if_neg code, if_neg message, if_neg label, if_neg help, if_pos notes] at entered ⊢
    exact exists_set sparser.notes.trans entered fun _ => { sparser with notes := rfl }
  · rw [if_neg code, if_neg message, if_neg label, if_neg help, if_neg notes] at entered ⊢
    cases entered
    exact ⟨sparse, rfl, sparser⟩

/-- The same cause is entered into both drafts. -/
theorem enterCause (sparser : Sparser full sparse) (cause : List Notice) :
    Sparser { full with cause := some cause } { sparse with cause := some cause } :=
  { sparser with cause := .inl rfl }

end Draft.Sparser

/-! ### Reading looser documents -/

section Loosening

variable {draft full sparse done : Draft} {key : String} {json : Json}
  {entries loosened : List (String × Json)} {cause : List Notice}

theorem readDraft?_cause (new : draft.cause = none) (read : readChain? json = some cause) :
    readDraft? draft (("cause", json) :: entries) =
      readDraft? { draft with cause := cause } entries := by
  rw [readDraft?, if_pos rfl, new, read]
  rfl

/-- A cause is read once, and it is a chain. -/
theorem exists_of_readDraft?_cause
    (read : readDraft? draft (("cause", json) :: entries) = some done) :
    draft.cause = none ∧ ∃ cause, readChain? json = some cause ∧
      readDraft? { draft with cause := some cause } entries = some done := by
  rw [readDraft?, if_pos rfl] at read
  cases first : draft.cause with
  | some cause =>
    rw [first] at read
    cases read
  | none =>
    cases chain : readChain? json with
    | none =>
      rw [first, chain] at read
      cases read
    | some cause =>
      rw [first, chain] at read
      exact ⟨rfl, cause, rfl, read⟩

theorem readDraft?_other (other : key ≠ "cause") :
    readDraft? draft ((key, json) :: entries) =
      (draft.enter? key json).bind fun entered => readDraft? entered entries := by
  rw [readDraft?, if_neg other]
  cases draft.enter? key json <;> rfl

/-- An entry with another key is passed over. -/
theorem readDraft?_unknown (unknown : key ∉ Json.diagnosticKeys) :
    readDraft? draft ((key, json) :: entries) = readDraft? draft entries := by
  simp only [Json.diagnosticKeys, List.mem_cons, List.not_mem_nil, or_false, not_or] at unknown
  obtain ⟨code, message, label, help, notes, other⟩ := unknown
  rw [readDraft?_other other, Draft.enter?, if_neg code, if_neg message, if_neg label, if_neg help,
    if_neg notes]
  rfl

/-- Where an entry is `null`, it is new and sets nothing. -/
theorem eq_of_enter_null {full' : Draft} {held : Option (Option String)}
    {set : Option String → Draft}
    (entered : (if held.isSome then none else Json.null.toOptionalText?.map set) = some full') :
    held = none ∧ set none = full' := by
  cases held with
  | some content => cases entered
  | none => exact ⟨rfl, Option.some.inj entered⟩

/-- An entry that is `null` and need not be there leaves a draft that says the same. -/
theorem exists_of_readDraft?_null (sparser : full.Sparser sparse)
    (optional : key ∈ ["label", "help", "cause"])
    (read : readDraft? full ((key, .null) :: entries) = some done) :
    ∃ full', full'.Sparser sparse ∧ readDraft? full' entries = some done := by
  simp only [List.mem_cons, List.not_mem_nil, or_false] at optional
  rcases optional with rfl | rfl | rfl
  · rw [readDraft?_other (by decide)] at read
    obtain ⟨full', entered, read⟩ := Option.bind_eq_some_iff.mp read
    rw [Draft.enter?, if_neg (by decide), if_neg (by decide), if_pos rfl] at entered
    obtain ⟨new, rfl⟩ := eq_of_enter_null entered
    refine ⟨_, ?_, read⟩
    exact { sparser with label := .inr ⟨rfl, sparser.label.eq_none new⟩ }
  · rw [readDraft?_other (by decide)] at read
    obtain ⟨full', entered, read⟩ := Option.bind_eq_some_iff.mp read
    rw [Draft.enter?, if_neg (by decide), if_neg (by decide), if_neg (by decide),
      if_pos rfl] at entered
    obtain ⟨new, rfl⟩ := eq_of_enter_null entered
    refine ⟨_, ?_, read⟩
    exact { sparser with help := .inr ⟨rfl, sparser.help.eq_none new⟩ }
  · obtain ⟨new, cause, chain, read⟩ := exists_of_readDraft?_cause read
    rw [readChain?] at chain
    cases chain
    refine ⟨_, ?_, read⟩
    exact { sparser with cause := .inr ⟨rfl, sparser.cause.eq_none new⟩ }

/-- Drafts that say the same are the same chain. -/
theorem readChain?_of_sparser {chain : List Notice}
    (agree : ∀ {draft}, readDraft? {} entries = some draft →
      ∃ draft', readDraft? {} loosened = some draft' ∧ draft.Sparser draft')
    (read : readChain? (.object entries) = some chain) :
    readChain? (.object loosened) = some chain := by
  rw [readChain?] at read ⊢
  obtain ⟨draft, drafted, finished⟩ := Option.bind_eq_some_iff.mp read
  obtain ⟨draft', drafted', sparser⟩ := agree drafted
  rw [drafted']
  exact sparser.finish?_eq.trans finished

/-- **What is read of entries is read of looser entries**, into a draft that says the same. -/
theorem readDraft?_of_loosens (loosens : Loosens entries loosened) :
    ∀ {full sparse done : Draft}, full.Sparser sparse → readDraft? full entries = some done →
      ∃ done', readDraft? sparse loosened = some done' ∧ done.Sparser done' := by
  induction loosens with
  | nil =>
    intro full sparse done sparser read
    rw [readDraft?] at read ⊢
    cases read
    exact ⟨sparse, rfl, sparser⟩
  | keep entry others ih =>
    intro full sparse done sparser read
    obtain ⟨key, json⟩ := entry
    by_cases cause : key = "cause"
    · subst cause
      obtain ⟨new, cause, chain, read⟩ := exists_of_readDraft?_cause read
      rw [readDraft?_cause (sparser.cause.eq_none new) chain]
      exact ih (sparser.enterCause cause) read
    · rw [readDraft?_other cause] at read ⊢
      obtain ⟨full', entered, read⟩ := Option.bind_eq_some_iff.mp read
      obtain ⟨sparse', entered', sparser⟩ := sparser.enter? entered
      rw [entered']
      exact ih sparser read
  | cause inner others ih_inner ih =>
    intro full sparse done sparser read
    obtain ⟨new, cause, chain, read⟩ := exists_of_readDraft?_cause read
    have chain' := readChain?_of_sparser (ih_inner (.refl {})) chain
    rw [readDraft?_cause (sparser.cause.eq_none new) chain']
    exact ih (sparser.enterCause cause) read
  | drop optional others ih =>
    intro full sparse done sparser read
    obtain ⟨full', sparser, read⟩ := exists_of_readDraft?_null sparser optional read
    exact ih sparser read
  | add value unknown others ih =>
    intro full sparse done sparser read
    rw [readDraft?_unknown unknown]
    exact ih sparser read

/-- **The chain that is read of a document is read of a looser one.** -/
theorem readChain?_of_loosens {chain : List Notice} (loosens : Loosens entries loosened)
    (read : readChain? (.object entries) = some chain) :
    readChain? (.object loosened) = some chain :=
  readChain?_of_sparser (readDraft?_of_loosens loosens (.refl {})) read

end Loosening

/-! ### Diagnostics -/

namespace Diagnostic

theorem ofJson?_toJson (diagnostic : Diagnostic) :
    ofJson? diagnostic.toJson = some diagnostic := by
  rw [ofJson?, toJson, readChain?_chainJson]
  rfl

/-- **A diagnostic survives JSON**: it is read back from its text, and from each looser one. -/
theorem survives_json (diagnostic : Diagnostic) :
    (Json.parse? diagnostic.toJson.print).bind ofJson? = some diagnostic ∧
      ∀ entries loosened, diagnostic.toJson = .object entries → Loosens entries loosened →
        ofJson? (.object loosened) = some diagnostic ∧
          ((Json.object loosened).WellFormed →
            (Json.parse? (Json.object loosened).print).bind ofJson? = some diagnostic) := by
  refine ⟨?_, fun entries loosened written loosens => ?_⟩
  · rw [toJson, Json.parse?_print (wellFormed_chainJson diagnostic.chain)]
    exact ofJson?_toJson diagnostic
  · have read : ofJson? (.object loosened) = some diagnostic := by
      have chain := readChain?_chainJson diagnostic.chain
      rw [← toJson, written] at chain
      rw [ofJson?, readChain?_of_loosens loosens chain]
      rfl
    refine ⟨read, fun wellFormed => ?_⟩
    rw [Json.parse?_print wellFormed]
    exact read

/-- The document of two notices without what is `null`, and with an entry that no diagnostic has. -/
def shortened : List (String × Json) :=
  [("code", .text "EVAL_001"), ("since", .number { whole := ['1'] }), ("message", .text "\"\n"),
    ("notes", .array [.text "é"]),
    ("cause", .object [("code", .text "WIRE_002"), ("message", .text ""), ("notes", .array [])])]

theorem survives_json_shortened :
    (Json.parse? (Json.object shortened).print).bind ofJson? =
      some ⟨⟨"EVAL_001", "\"\n", none, none, ["é"]⟩, [⟨"WIRE_002", "", none, none, []⟩]⟩ := by
  have digits : Numeral.WellFormed { whole := ['1'] } :=
    ⟨by simp, by simp, by simp, by simp, by simp⟩
  have wellFormed : (Json.object shortened).WellFormed := by
    refine .object fun entry member => ?_
    simp only [shortened, List.mem_cons, List.not_mem_nil, or_false] at member
    rcases member with rfl | rfl | rfl | rfl | rfl
    · exact .text "EVAL_001"
    · exact .number digits
    · exact .text "\"\n"
    · exact .array fun item member => List.mem_singleton.mp member ▸ .text "é"
    · refine .object fun entry member => ?_
      simp only [List.mem_cons, List.not_mem_nil, or_false] at member
      rcases member with rfl | rfl | rfl
      · exact .text "WIRE_002"
      · exact .text ""
      · exact .array fun item member => absurd member List.not_mem_nil
  refine ((survives_json _).2 _ shortened rfl ?_).2 wellFormed
  refine .keep _ (.add _ (by decide) (.keep _ (.drop (by decide) (.drop (by decide) (.keep _ ?_)))))
  refine .cause (.keep _ (.keep _ (.drop (by decide) (.drop (by decide) (.keep _ ?_))))) .nil
  exact .drop (by decide) .nil

end Diagnostic

end RowLogic
