/-
**The size of decoded expressions.**

A decoder that does not trust its input comes to an end whatever the input says, and builds no more
than it was given. Both go by the bytes that are left, and not by the depth limit:

* `Read.unfolded_eq`: an expression takes its tag before its operands are read, and no read goes
  back, so the recursion is over after one level for each byte, and one more;
* `Expr.Spells.size_le`: each node takes two bytes at least, and each text its own length.
-/

import RowLogic.Proofs.Expr.Displacement

namespace RowLogic

/-! ### The recursion of the decoder -/

namespace Read

/-- The reading of an expression with its recursion unfolded so many times, and something else in
place of what is deeper. -/
def unfolded (deepest : Read Expr) : Nat → Read Expr
  | 0 => deepest
  | count + 1 => deeper (taggedBy (unfolded deepest count))

/-- **The recursion ends with the bytes.** Where less than `count` of them are left, so many levels
are all there are, whatever would be read below them and however many the limit allows. -/
theorem unfolded_eq (deepest : Read Expr) {count : Nat} {reader : Reader}
    (enough : reader.remaining < count) : unfolded deepest count reader = nested reader := by
  induction count generalizing reader with
  | zero => exact absurd enough (Nat.not_lt_zero _)
  | succ count ih =>
    have fewer : ∀ (reader : Reader) (taken : Nat), reader.remaining < count →
        (reader.advance taken).remaining < count := by
      intro reader taken here
      rw [Reader.remaining_advance]
      omega
    have operands : SameOn (·.remaining < count) nested (unfolded deepest count) :=
      fun reader here => (ih here).symm
    have tagged : taggedBy nested reader.inside =
        taggedBy (unfolded deepest count) reader.inside := by
      unfold taggedBy
      cases run : tag reader.inside with
      | error fault between => rw [bind_error run, bind_error run]
      | ok tag between =>
        -- the tag is one byte, so the operands find less than `count` bytes
        obtain ⟨_, rfl, begins, rfl⟩ := (recognises_tag reader.inside rfl tag between).mp run
        have taken : 1 ≤ reader.remaining := begins.length_le
        rw [bind_ok run, bind_ok run]
        refine sameOn_contentBy composed_nested fewer operands tag _ ?_
        have left : (reader.inside.advance 1).remaining = reader.remaining - 1 :=
          Reader.remaining_advance _ 1
        show (reader.inside.advance 1).remaining < count
        omega
    rw [nested_eq]
    exact (deeper_congr tagged).symm

theorem whole_congr {α : Type} {body other : Read α} {bytes : List UInt8} {limits : DecodeLimits}
    (same : body { rest := bytes, limits := limits } = other { rest := bytes, limits := limits }) :
    whole body bytes limits = whole other bytes limits := by
  cases run : other { rest := bytes, limits := limits } with
  | error fault after => rw [whole_error run, whole_error (same.trans run)]
  | ok result after => rw [whole_after run, whole_after (same.trans run)]

end Read

/-! ### Sizes -/

namespace Expr

/-- The number of leaves. -/
def leaves : Expr → Nat
  | connective left right .. => left.leaves + right.leaves
  | _ => 1

/-- The number of connectives. -/
def connectives : Expr → Nat
  | connective left right .. => left.connectives + right.connectives + 1
  | _ => 0

/-- The number of nodes of either kind. -/
def nodes (expr : Expr) : Nat :=
  expr.leaves + expr.connectives

/-- The length of all text constants, in bytes. -/
def textBytes : Expr → Nat
  | constant (.utf8 text) => (Utf8.encode text).length
  | connective left right .. => left.textBytes + right.textBytes
  | _ => 0

theorem leaves_eq (expr : Expr) : expr.leaves = expr.connectives + 1 := by
  induction expr with
  | connective left right kind _ _ left_ih right_ih =>
    rw [leaves, connectives, left_ih, right_ih]
    omega
  | _ => rfl

theorem nodes_connective (left right : Expr) (kind : Connective) (leftChecked rightChecked : Bool) :
    (connective left right kind leftChecked rightChecked).nodes = left.nodes + right.nodes + 1 := by
  unfold nodes
  rw [leaves, connectives]
  omega

/-- **A spelling is as long as the expression is large**: two bytes for each node, and the text
constants as they are. -/
theorem Spells.size_le {expr : Expr} {bytes : List UInt8} (spelled : expr.Spells bytes) :
    2 * expr.nodes + expr.textBytes ≤ bytes.length := by
  induction spelled with
  | @constant value payload spelled =>
    obtain ⟨content, content_spelled, rfl⟩ := spelled
    have node : (Expr.constant value).nodes = 1 := rfl
    have text : (Expr.constant value).textBytes ≤ content.length := by
      cases value with
      | utf8 text =>
        obtain ⟨_, rfl⟩ := Emission.result_ofText_iff.mp content_spelled
        rw [textBytes, List.length_append]
        exact Nat.le_add_left _ _
      | _ => exact Nat.zero_le _
    rw [node, List.length_cons, List.length_cons]
    omega
  | @column index type payload spelled | @parameter index type payload spelled =>
    cases spelled
    exact (by decide : 2 * 1 + 0 ≤ 6)
  | connective _ _ left_ih right_ih =>
    rw [nodes_connective, textBytes, List.length_cons, List.length_append, List.length_append,
      List.length_singleton]
    omega

/-! ### Whole streams -/

/-- **Decoding ends, and its result is no larger than the input**, also under a depth limit that is
never reached. The recursion is not deeper than there are bytes. An expression that is decoded has
one connective less than leaves and is within the limit; twice the number of its nodes and the
length of its texts are together no more than the bytes that were consumed for it. -/
theorem decode_bounded (bytes : List UInt8) (limits : DecodeLimits) :
    (∀ deepest, Read.whole (Read.unfolded deepest (bytes.length + 1)) bytes limits =
      decode bytes limits) ∧
    ∀ expr, decode bytes limits = .ok expr →
      expr.leaves = expr.connectives + 1 ∧ expr.depth ≤ limits.maxDepth ∧
      ∃ after, Read.nested { rest := bytes, limits := limits } = .ok expr after ∧
        2 * expr.nodes + expr.textBytes ≤ after.offset ∧ after.offset ≤ bytes.length := by
  refine ⟨fun deepest => ?_, fun expr decoded => ?_⟩
  · exact Read.whole_congr (Read.unfolded_eq deepest (Nat.lt_succ_self bytes.length))
  · obtain ⟨front, readable, begins, -⟩ := decode_ok_iff.mp decoded
    have ⟨shallow, _, spelled⟩ := readable
    let start : Reader := { rest := bytes, limits := limits }
    have run : Read.nested start = .ok expr (start.advance front.length) :=
      (Read.recognises_nested limits.maxDepth start rfl expr _).mpr ⟨front, readable, begins, rfl⟩
    have consumed : (start.advance front.length).offset = front.length := Nat.zero_add _
    refine ⟨expr.leaves_eq, shallow, _, run, ?_, ?_⟩
    · rw [consumed]
      exact spelled.size_le
    · rw [consumed]
      exact begins.length_le

/-- A conjunction of a text and a column with a byte behind it, under a limit of `2 ^ 64 - 1`
levels. -/
theorem decode_bounded_conjunction :
    let bytes : List UInt8 := [4, 1, 5, 2, 0, 0, 0, 0x68, 0x69, 2, 3, 0, 0, 0, 1, 0, 9]
    let limits : DecodeLimits := { maxDepth := 0xffffffffffffffff, allowTrailing := true }
    let expr := combine .and (constant (.utf8 "hi")) (column 3 .boolean)
    decode bytes limits = .ok expr ∧ expr.leaves = 2 ∧ expr.connectives = 1 ∧
      ∃ after, Read.nested { rest := bytes, limits := limits } = .ok expr after ∧
        2 * 3 + 2 ≤ after.offset ∧ after.offset ≤ 17 := by
  intro bytes limits expr
  have decoded : decode bytes limits = .ok expr := rfl
  obtain ⟨-, -, after, run, small, inside⟩ := (decode_bounded bytes limits).2 expr decoded
  exact ⟨decoded, rfl, rfl, after, run, small, inside⟩

end Expr

end RowLogic
