/-
**A stream of fields reads back.**

The format has neither names nor separators, so a stream can only be read by the same sequence of
reads as it was written by. Then every read succeeds, gives what was written, and stands where the
writer stood (`readAll_writeAll`).

The step of the induction is `Shape.read_item`: an item is read from what is written for it,
whatever follows.
-/

import RowLogic.Proofs.Expr.RoundTrip
import RowLogic.Proofs.Stream.Fields

namespace RowLogic

/-! ### Items -/

/-- The operands of an expression are no deeper than a limit. -/
def Expr.OperandsWithin (limit : Nat) : Expr → Prop
  | connective left right .. => left.depth ≤ limit ∧ right.depth ≤ limit
  | _ => True

/-- What a stream is written from: fields, tags of expressions, and whole expressions. -/
inductive Item where
  | field (field : Field) (content : field.Content)
  | tag (tag : ExprTag)
  | expr (expr : Expr)

/-- What a reader has to know of an item before it reads it. -/
inductive Shape where
  | field (field : Field)
  | tag
  | expr

namespace Item

def shape : Item → Shape
  | field kind _ => .field kind
  | tag _ => .tag
  | expr _ => .expr

/-- What is written for an item. -/
def emission : Item → Emission
  | field kind content => kind.write content
  | tag kind => Emission.ofTag kind
  | expr tree => Emission.ofExpr tree

/-- The item as it is read back: marks of an expression are not written. -/
def fresh : Item → Item
  | expr tree => .expr tree.copy
  | item => item

/-- The item can be written, and read where the depth has this limit. -/
def Writable (limit : Nat) : Item → Prop
  | field kind content => kind.Fits content
  | tag _ => True
  | expr tree => tree.ProbeFree ∧ tree.TextsFit ∧ tree.OperandsWithin limit

end Item

/-- How an item is read. An expression is its tag and then the content that belongs to the tag. -/
def Shape.read : Shape → Read Item
  | field kind => Item.field kind <$> kind.read
  | tag => Item.tag <$> Read.tag
  | expr => Item.expr <$> do Read.contentBy Read.nested (← Read.tag)

/-! ### Streams -/

/-- Writes some items in turn, and logs each of them with the length of the stream behind it. -/
def Writer.writeAll (writer : Writer) : List Item → Except Fault (List (Item × Nat) × Writer)
  | [] => .ok ([], writer)
  | item :: items =>
    match item.emission.fault with
    | some fault => .error fault
    | none =>
      let after := writer.write item.emission
      (after.writeAll items).map fun rest => ((item, after.length) :: rest.1, rest.2)

/-- Reads items of some shapes in turn, and logs each of them with the offset behind it. -/
def Read.readAll : List Shape → Read (List (Item × Nat))
  | [] => pure []
  | shape :: shapes => do
    let item ← shape.read
    let place ← offset
    let log ← readAll shapes
    pure ((item, place) :: log)

/-! ### One item -/

variable {item : Item} {items : List Item} {limit : Nat} {bytes : List UInt8} {reader : Reader}

theorem Expr.depth_le_of_operandsWithin {expr : Expr} (within : expr.OperandsWithin limit) :
    expr.depth ≤ limit + 1 := by
  cases expr with
  | connective left right kind _ _ => exact Nat.succ_le_succ (Nat.max_le.mpr within)
  | _ => exact Nat.succ_le_succ (Nat.zero_le limit)

theorem Item.exists_write (writable : item.Writable limit) :
    ∃ bytes, item.emission.result = .ok bytes := by
  cases item with
  | field kind content => exact Field.exists_write writable
  | tag tag => exact ⟨_, rfl⟩
  | expr expr => exact Expr.exists_encode writable.1 writable.2.1

/-- **An item is read from what is written for it**, whatever follows. -/
theorem Shape.read_item (writable : item.Writable limit)
    (written : item.emission.result = .ok bytes) (begins : bytes <+: reader.rest)
    (open_ : reader.levels = limit) :
    item.shape.read reader = .ok item.fresh (reader.advance bytes.length) := by
  cases item with
  | field kind content =>
    refine ((kind.recognises.map (Item.field kind)) reader open_ _ _).mpr ?_
    exact ⟨bytes, ⟨content, Field.spells_of_write written, rfl⟩, begins, rfl⟩
  | tag tag =>
    refine ((Read.recognises_tag.map Item.tag) reader open_ _ _).mpr ?_
    exact ⟨bytes, ⟨tag, (Except.ok.inj written).symm, rfl⟩, begins, rfl⟩
  | expr expr =>
    obtain ⟨-, -, within⟩ := writable
    have readable : Read.Readable (limit + 1) expr.copy bytes :=
      ⟨by rw [Expr.depth_copy]; exact Expr.depth_le_of_operandsWithin within,
        Expr.unmarked_copy expr, (Expr.spells_of_encode written).copy⟩
    have recognises := Read.recognises_taggedBy (Read.recognises_nested limit)
    refine ((recognises.map Item.expr) reader open_ _ _).mpr ?_
    exact ⟨bytes, ⟨expr.copy, readable, rfl⟩, begins, rfl⟩

/-! ### All items -/

theorem Writer.write_of_result {emission : Emission} (written : emission.result = .ok bytes)
    (writer : Writer) :
    emission.fault = none ∧ writer.write emission = ⟨writer.bytes ++ bytes⟩ := by
  obtain ⟨complete, rfl⟩ := Emission.result_eq_ok_iff.mp written
  exact ⟨complete, rfl⟩

theorem Read.readAll_cons {shape : Shape} {shapes : List Shape} {after last : Reader}
    {log : List (Item × Nat)} (item_run : shape.read reader = .ok item after)
    (rest_run : readAll shapes after = .ok log last) :
    readAll (shape :: shapes) reader = .ok ((item, after.offset) :: log) last := by
  have place_run : offset after = .ok after.offset after := rfl
  rw [readAll, bind_ok item_run, bind_ok place_run, bind_ok rest_run]
  rfl

/-- **What is written for some items** is read back as them by any reader that stands where the
writer stood, whatever follows. -/
theorem readAll_of_writable (writable : ∀ item ∈ items, item.Writable limit) (writer : Writer) :
    ∃ log written, writer.writeAll items = .ok (log, ⟨writer.bytes ++ written⟩) ∧
      log.map Prod.fst = items ∧
      ∀ reader : Reader, reader.levels = limit → reader.offset = writer.length →
        written <+: reader.rest →
        Read.readAll (items.map Item.shape) reader =
          .ok (log.map fun entry => (entry.1.fresh, entry.2)) (reader.advance written.length) := by
  induction items generalizing writer with
  | nil =>
    exact ⟨[], [], by rw [List.append_nil]; rfl, rfl, fun reader _ _ _ => rfl⟩
  | cons item items ih =>
    obtain ⟨bytes, complete⟩ := Item.exists_write (writable item List.mem_cons_self)
    obtain ⟨faultless, grown⟩ := Writer.write_of_result complete writer
    obtain ⟨log, rest, all, listed, reads⟩ :=
      ih (fun other member => writable other (List.mem_cons_of_mem _ member))
        ⟨writer.bytes ++ bytes⟩
    let place := (writer.bytes ++ bytes).length
    refine ⟨(item, place) :: log, bytes ++ rest, ?_, congrArg (item :: ·) listed, ?_⟩
    · rw [Writer.writeAll, faultless]
      dsimp only
      rw [grown, all, ← List.append_assoc]
      rfl
    · intro reader open_ stands begins
      obtain ⟨first, others⟩ := Read.append_prefix_iff.mp begins
      have item_run := Shape.read_item (writable item List.mem_cons_self) complete first open_
      have moved : (reader.advance bytes.length).offset = place := by
        show reader.offset + bytes.length = (writer.bytes ++ bytes).length
        rw [stands, List.length_append]
        rfl
      have rest_run := reads (reader.advance bytes.length) open_ moved others
      rw [List.map_cons, Read.readAll_cons item_run rest_run, moved, Reader.advance_advance,
        List.length_append]
      rfl

/-- **A stream reads back.** Items that can be written are written one after the other; a reader of
the bytes that reads the same shapes in the same order succeeds each time, gets each item unchanged,
stands behind it where the writer stood, and is at the end of the stream after the last one. -/
theorem readAll_writeAll (items : List Item) (limits : DecodeLimits)
    (writable : ∀ item ∈ items, item.Writable limits.maxDepth) :
    ∃ log writer, ({} : Writer).writeAll items = .ok (log, writer) ∧
      log.map Prod.fst = items ∧
      ∃ reader, Read.readAll (items.map Item.shape) { rest := writer.bytes, limits := limits } =
          .ok (log.map fun entry => (entry.1.fresh, entry.2)) reader ∧
        reader.rest = [] ∧ Read.finish reader = .ok () reader := by
  obtain ⟨log, written, all, listed, reads⟩ := readAll_of_writable writable {}
  have read := reads { rest := written, limits := limits } rfl rfl (List.prefix_refl written)
  have ended : written.drop written.length = [] := List.drop_length
  exact ⟨log, ⟨written⟩, all, listed, _, read, ended,
    Read.finish_ok_iff.mpr ⟨Or.inr ended, rfl⟩⟩

/-- A NaN, the negative zero, a text, a tag without its content, and an expression that was marked
and is as deep as the limit allows. -/
theorem readAll_writeAll_mixed :
    let tree : Expr := .connective (.combine .and (.column 0 .boolean) (.constant (.utf8 "é")))
      (.parameter 1 .boolean) .or true false
    let items : List Item := [.field .double ⟨0x7FF8000000000001⟩,
      .field .double ⟨0x8000000000000000⟩, .field .text "né", .tag .column, .expr tree]
    let limits : DecodeLimits := { maxDepth := 2 }
    (∀ item ∈ items, item.Writable limits.maxDepth) ∧
      ∃ log writer, ({} : Writer).writeAll items = .ok (log, writer) ∧ log.map Prod.fst = items ∧
        ∃ reader, Read.readAll (items.map Item.shape) { rest := writer.bytes, limits := limits } =
            .ok (log.map fun entry => (entry.1.fresh, entry.2)) reader ∧
          reader.rest = [] ∧ Read.finish reader = .ok () reader := by
  intro tree items limits
  have short : (Utf8.encode "né").length < 0x100000000 := by decide
  have short' : (Utf8.encode "é").length < 0x100000000 := by decide
  have tree_writable : (Item.expr tree).Writable limits.maxDepth :=
    ⟨⟨⟨trivial, trivial⟩, trivial⟩, ⟨⟨trivial, short'⟩, trivial⟩, by decide, by decide⟩
  have writable : ∀ item ∈ items, item.Writable limits.maxDepth := by
    simp only [items, List.forall_mem_cons]
    exact ⟨trivial, trivial, short, trivial, tree_writable, fun _ member => nomatch member⟩
  exact ⟨writable, readAll_writeAll items limits writable⟩

end RowLogic
