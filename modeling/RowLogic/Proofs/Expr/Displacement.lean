/-
**Displaced expressions.**

An expression is read in the same way wherever it stands: a reader that is further on, further in or
open to more levels comes to the same node or, but for its place, to the same fault
(`corresponds_nested`).

In particular the level that a tag opens is all that there is between a tagged expression and its
bare content (`whole_tagged`). That the reads go by the levels that are open is no part of it: they
are the reads that enter a level, read a tag and a content, and leave the level (`nested_eq`).
-/

import RowLogic.Proofs.Expr.Delimited
import RowLogic.Proofs.Wire.Displacement

namespace RowLogic

namespace Read

variable {move : Displacement} {operand operand' : Read Expr}

/-! ### The parts of an expression -/

theorem corresponds_tag : Corresponds move tag tag := by
  refine .fromOffset fun start => .bind corresponds_byte fun byte => ?_
  cases ExprTag.ofByte? byte with
  | some tag => exact .pure tag
  | none => exact .throw _

theorem corresponds_connectiveKind : Corresponds move connectiveKind connectiveKind :=
  corresponds_bool.map _

theorem corresponds_constant : Corresponds move constant constant :=
  corresponds_value.map _

/-- The content of a column or of a parameter: a position and a type. -/
theorem corresponds_positional (make : UInt32 → DataType → Expr) :
    Corresponds move (do let index ← uint32; let type ← dataType; pure (make index type))
      (do let index ← uint32; let type ← dataType; pure (make index type)) :=
  .bind (corresponds_word _ _ _) fun _ => .bind corresponds_dataType fun _ => .pure _

theorem corresponds_operandsBy (correspond : Corresponds move operand operand') :
    Corresponds move (operandsBy operand) (operandsBy operand') :=
  .bind correspond fun _ => .bind correspond fun _ => .pure _

theorem corresponds_connectiveBy (correspond : Corresponds move operand operand') :
    Corresponds move (connectiveBy operand) (connectiveBy operand') :=
  .bind (corresponds_operandsBy correspond) fun _ =>
    .bind corresponds_connectiveKind fun _ => .pure _

theorem corresponds_contentBy (correspond : Corresponds move operand operand') (tag : ExprTag) :
    Corresponds move (contentBy operand tag) (contentBy operand' tag) := by
  cases tag with
  | constant => exact corresponds_constant
  | column => exact corresponds_positional Expr.column
  | parameter => exact corresponds_positional Expr.parameter
  | connective => exact corresponds_connectiveBy correspond

theorem corresponds_taggedBy (correspond : Corresponds move operand operand') :
    Corresponds move (taggedBy operand) (taggedBy operand') :=
  .bind corresponds_tag (corresponds_contentBy correspond)

/-! ### Nested expressions -/

/-- Where more levels are open, the same is read as long as none is missing. -/
theorem corresponds_nestedWithin {levels levels' : Nat} (enough : levels ≤ levels')
    (same : move.levels = 0 → levels = levels') :
    Corresponds move (nestedWithin levels) (nestedWithin levels') := by
  induction levels generalizing levels' with
  | zero =>
    intro reader
    by_cases more : 0 < move.levels
    · exact Or.inl ⟨more, reader.limits.maxDepth, reader, rfl⟩
    · cases same (Nat.eq_zero_of_not_pos more)
      exact Or.inr rfl
  | succ levels ih =>
    obtain ⟨levels', rfl⟩ := Nat.exists_eq_add_of_le' (Nat.le_of_add_left_le enough)
    have inner : Corresponds move (nestedWithin levels) (nestedWithin levels') :=
      ih (Nat.le_of_succ_le_succ enough) fun still => Nat.succ.inj (same still)
    exact .deeper (composed_taggedBy (composed_nestedWithin levels)) (corresponds_taggedBy inner)

/-- **An expression is read in the same way wherever it stands.** -/
theorem corresponds_nested : Corresponds move nested nested :=
  fun reader => corresponds_nestedWithin reader.levels_le_displace
    (fun same => (reader.levels_displace same).symm) reader

theorem corresponds_operands : Corresponds move operands operands :=
  corresponds_operandsBy corresponds_nested

theorem corresponds_connective : Corresponds move connective connective :=
  corresponds_connectiveBy corresponds_nested

/-! ### Levels as they are entered and left -/

/-- The reads are the same at some readers. -/
def SameOn {α : Type} (holds : Reader → Prop) (body other : Read α) : Prop :=
  ∀ reader, holds reader → body reader = other reader

/-- Composed reads are the same where their parts are, if that is so also further on. -/
theorem SameOn.bind {α β : Type} {holds : Reader → Prop} {body other : Read α}
    {next next' : α → Read β} (composed : Composed body)
    (onwards : ∀ reader count, holds reader → holds (reader.advance count))
    (first : SameOn holds body other)
    (second : ∀ middle, SameOn holds (next middle) (next' middle)) :
    SameOn holds (body >>= next) (other >>= next') := by
  intro reader here
  have same := first reader here
  cases run : body reader with
  | error fault between =>
    rw [run] at same
    rw [bind_error run, bind_error same.symm]
  | ok middle between =>
    rw [run] at same
    obtain ⟨count, _, moved⟩ := composed.advances reader
    rw [behind_ok run] at moved
    rw [bind_ok run, bind_ok same.symm]
    exact second middle between (moved ▸ onwards reader count here)

theorem sameOn_contentBy {holds : Reader → Prop} (composed : Composed operand)
    (onwards : ∀ reader count, holds reader → holds (reader.advance count))
    (same : SameOn holds operand operand') (tag : ExprTag) :
    SameOn holds (contentBy operand tag) (contentBy operand' tag) := by
  cases tag with
  | connective =>
    refine .bind (composed_operandsBy composed) onwards ?_ fun _ _ _ => rfl
    exact .bind composed onwards same fun _ => .bind composed onwards same fun _ _ _ => rfl
  | _ => exact fun _ _ => rfl

theorem deeper_congr {α : Type} {body other : Read α} {reader : Reader}
    (same : body reader.inside = other reader.inside) :
    deeper body reader = deeper other reader := by
  by_cases full : reader.limits.maxDepth ≤ reader.depth
  · rw [deeper_refused full, deeper_refused full]
  · unfold deeper
    rw [enter_ok (Nat.lt_of_not_le full)]
    dsimp only
    rw [same]

/-- **A nested expression** is read by entering a level, reading a tag and the content that it
announces, and leaving the level. -/
theorem nested_eq : nested = deeper (taggedBy nested) := by
  funext reader
  by_cases full : reader.limits.maxDepth ≤ reader.depth
  · have closed : reader.levels = 0 := Nat.sub_eq_zero_of_le full
    have refused : nested reader = nestedWithin reader.levels reader := rfl
    rw [refused, closed, deeper_refused full]
    rfl
  have room : reader.depth < reader.limits.maxDepth := Nat.lt_of_not_le full
  obtain ⟨levels, open_⟩ : ∃ levels, reader.levels = levels + 1 :=
    Nat.exists_eq_add_one_of_ne_zero (Nat.sub_ne_zero_of_lt room)
  have inside_open : reader.inside.levels = levels := by
    rw [Reader.levels_inside, open_, Nat.add_sub_cancel]
  have tagged : SameOn (·.levels = levels) (taggedBy (nestedWithin levels)) (taggedBy nested) :=
    .bind composed_tag (fun _ _ open_ => open_) (fun _ _ => rfl)
      (sameOn_contentBy (composed_nestedWithin levels) (fun _ _ open_ => open_)
        fun reader open_ => by rw [← open_]; rfl)
  have entered : nested reader = deeper (taggedBy (nestedWithin levels)) reader := by
    show nestedWithin reader.levels reader = _
    rw [open_]
    rfl
  rw [entered]
  exact deeper_congr (tagged _ inside_open)

/-! ### Whole streams -/

/-- **A tag opens one level**, and its content is read there as it is read by itself. -/
theorem whole_tagged (tag : ExprTag) (payload : List UInt8) (depth : Nat) (allowTrailing : Bool) :
    whole nested (tag.byte :: payload) ⟨depth + 1, allowTrailing⟩ =
      (whole (contentBy nested tag) payload ⟨depth, allowTrailing⟩).mapError
        (Fault.displace ⟨1, 1, 0, allowTrailing⟩) := by
  let move : Displacement := ⟨1, 1, 0, allowTrailing⟩
  let bare : Reader := { rest := payload, limits := ⟨depth, allowTrailing⟩ }
  let start : Reader := { rest := tag.byte :: payload, limits := ⟨depth + 1, allowTrailing⟩ }
  have room : start.depth < start.limits.maxDepth := Nat.succ_pos depth
  have place : start.inside.advance 1 = bare.displace move := by
    simp only [Reader.inside, Reader.advance, Reader.displace, start, bare, move, List.drop_one,
      List.tail_cons, Nat.zero_add, Nat.add_comm]
  have tag_run : Read.tag start.inside = .ok tag (start.inside.advance 1) :=
    (recognises_tag start.inside rfl tag _).mpr ⟨_, rfl, List.prefix_append [_] payload, rfl⟩
  have content_run : taggedBy nested start.inside =
      displaceEnd move (contentBy nested tag bare) := by
    have run : taggedBy nested start.inside = contentBy nested tag (start.inside.advance 1) :=
      bind_ok tag_run
    rw [run, place]
    exact (corresponds_contentBy corresponds_nested tag bare).resolve_left
      fun impossible => absurd impossible.1 (Nat.lt_irrefl 0)
  cases run : contentBy nested tag bare with
  | error fault after =>
    rw [run] at content_run
    have failed : nested start = .error (fault.displace move) (after.displace move).leave := by
      rw [nested_eq]
      exact deeper_error room content_run
    rw [whole_error run, whole_error failed]
    rfl
  | ok result after =>
    rw [run] at content_run
    have read : nested start = .ok result (after.displace move).leave := by
      rw [nested_eq]
      exact deeper_ok room content_run
    obtain ⟨count, _, moved⟩ := (composed_contentBy composed_nested tag).advances bare
    rw [behind_ok run] at moved
    rw [whole_after run, whole_after read, moved, apply_ite (Except.mapError _)]
    rfl

end Read

end RowLogic
