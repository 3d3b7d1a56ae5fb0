/-
**The seats of the operands.**

An operand sits on one side of a connective, which is found at the end of a path from the whole
expression. `Expr.seats` lists all seats, each once (`nodup_seats`), and an operand is held in each
of them and nowhere else (`mem_seats`). A copy holds a copy of each operand, without a mark
(`operandAt?_copy`).
-/

import Mathlib.Data.List.Nodup
import RowLogic.Proofs.Expr.Shape

namespace RowLogic

/-- A side of the connective at the end of a path. -/
structure Seat where
  path : List Side
  side : Side
deriving DecidableEq

/-- An expression as an operand, and whether its connective marked it. -/
structure Operand where
  expr : Expr
  checked : Bool
deriving DecidableEq

namespace Seat

/-- A seat of an operand, as a seat of the expression that has the operand on this side. -/
def under (turn : Side) (seat : Seat) : Seat :=
  ⟨turn :: seat.path, seat.side⟩

/-- The side of the whole expression on which a seat lies. -/
def half : Seat → Side
  | ⟨[], side⟩ => side
  | ⟨turn :: _, _⟩ => turn

theorem under_injective (turn : Side) : Function.Injective (under turn) := by
  rintro ⟨path, side⟩ ⟨path', side'⟩ same
  cases same
  rfl

theorem mem_map_under {seats : List Seat} {turn other side : Side} {path : List Side} :
    ⟨turn :: path, side⟩ ∈ seats.map (under other) ↔ turn = other ∧ ⟨path, side⟩ ∈ seats := by
  constructor
  · intro member
    obtain ⟨seat, inside, same⟩ := List.mem_map.mp member
    cases same
    exact ⟨rfl, inside⟩
  · rintro ⟨rfl, inside⟩
    exact List.mem_map.mpr ⟨_, inside, rfl⟩

end Seat

namespace Expr

/-- The operand on one side of a connective. -/
def operand? (side : Side) : Expr → Option Operand
  | connective left right _ leftChecked rightChecked =>
    match side with
    | .left => some ⟨left, leftChecked⟩
    | .right => some ⟨right, rightChecked⟩
  | _ => none

/-- The operand in a seat. -/
def operandAt? (seat : Seat) (expr : Expr) : Option Operand :=
  (expr.follow? seat.path).bind (operand? seat.side)

/-- The probe of this name is the operand in a seat. -/
def seatsProbe (name : String) (seat : Seat) (expr : Expr) : Bool :=
  (expr.operandAt? seat).any fun operand => operand.expr.isProbe name

/-- The seats of the operands. -/
def seats : Expr → List Seat
  | connective left right .. =>
    ⟨[], .left⟩ :: left.seats.map (Seat.under .left) ++
      ⟨[], .right⟩ :: right.seats.map (Seat.under .right)
  | _ => []

variable {expr : Expr} {seat : Seat} {operand : Operand} {turn : Side}

/-- The operand in a seat below an operand. -/
theorem operandAt?_under (expr : Expr) (turn : Side) (seat : Seat) :
    expr.operandAt? (seat.under turn) =
      (expr.operand? turn).bind fun operand => operand.expr.operandAt? seat := by
  cases expr <;> cases turn <;> rfl

theorem operandAt?_under_of_held (held : expr.operand? turn = some operand) :
    expr.operandAt? (seat.under turn) = operand.expr.operandAt? seat := by
  rw [operandAt?_under, held]
  rfl

/-! ### The list of seats -/

/-- **The seats of an expression** are those in which it holds an operand. -/
theorem mem_seats : seat ∈ expr.seats ↔ (expr.operandAt? seat).isSome := by
  obtain ⟨path, side⟩ := seat
  induction expr generalizing path with
  | connective left right kind leftChecked rightChecked left_ih right_ih =>
    cases path with
    | nil => cases side <;> simp [seats, operandAt?, follow?, operand?, Seat.under]
    | cons turn path =>
      have left_same := left_ih path
      have right_same := right_ih path
      cases turn <;> simp [seats, Seat.mem_map_under, left_same, right_same, operandAt?, follow?]
  | _ =>
    cases path with
    | nil => simp [seats, operandAt?, follow?, operand?]
    | cons turn path => cases turn <;> simp [seats, operandAt?, follow?]

theorem nodup_seats (expr : Expr) : expr.seats.Nodup := by
  induction expr with
  | connective left right kind leftChecked rightChecked left_ih right_ih =>
    have left_nodup := left_ih.map (Seat.under_injective .left)
    have right_nodup := right_ih.map (Seat.under_injective .right)
    simp [seats, List.nodup_append, left_nodup, right_nodup, Seat.under]
  | _ => exact List.nodup_nil

/-! ### Copies -/

theorem operandAt?_copy (expr : Expr) (seat : Seat) :
    expr.copy.operandAt? seat =
      (expr.operandAt? seat).map fun operand => ⟨operand.expr.copy, false⟩ := by
  obtain ⟨path, side⟩ := seat
  induction expr generalizing path with
  | connective left right kind leftChecked rightChecked left_ih right_ih =>
    cases path with
    | nil => cases side <;> rfl
    | cons turn path =>
      cases turn with
      | left => exact left_ih path
      | right => exact right_ih path
  | _ =>
    cases path with
    | nil => rfl
    | cons turn path => cases turn <;> rfl

/-- The operands of an expression without marks have none. -/
theorem Unmarked.checked_eq_false (unmarked : expr.Unmarked)
    (held : expr.operandAt? seat = some operand) : operand.checked = false := by
  rw [← copy_of_unmarked unmarked, operandAt?_copy] at held
  obtain ⟨original, -, rfl⟩ := Option.map_eq_some_iff.mp held
  rfl

theorem isSome_operandAt?_of_copy_eq {other : Expr} (same : expr.copy = other.copy) (seat : Seat) :
    (expr.operandAt? seat).isSome = (other.operandAt? seat).isSome := by
  have some_copy : ∀ expr : Expr,
      (expr.copy.operandAt? seat).isSome = (expr.operandAt? seat).isSome := by
    intro expr
    rw [operandAt?_copy, Option.isSome_map]
  rw [← some_copy expr, same, some_copy]

theorem seatsProbe_of_copy_eq {other : Expr} (same : expr.copy = other.copy) (name : String)
    (seat : Seat) : expr.seatsProbe name seat = other.seatsProbe name seat := by
  have seats_copy : ∀ expr : Expr, expr.copy.seatsProbe name seat = expr.seatsProbe name seat := by
    intro expr
    unfold seatsProbe
    rw [operandAt?_copy]
    cases expr.operandAt? seat with
    | none => rfl
    | some operand => exact isProbe_copy operand.expr name
  rw [← seats_copy expr, same, seats_copy]

end Expr

end RowLogic
