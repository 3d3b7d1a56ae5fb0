/-
**The shortest decimal that reads back.**

A finite number stands for the reals that round to it: those up to half way to its neighbours, the
two ends included when its significand is even. Of the decimals among them the shortest is chosen,
and of several that are equally short the nearest to the number; which of two equally near ones it
is, is left to the caller (`Tie`).

All numbers are whole multiples of `10 ^ -1076` here, because a quarter of the least positive
number is one; so the search is over the grids `10 ^ k` in natural numbers, from the widest one
down, and the first grid with a point among the reals is the one with the fewest digits.
-/

import RowLogic.Real64.Basic

namespace RowLogic

/-- The number `digits * 10 ^ exponent`. -/
structure Decimal where
  digits : Nat
  exponent : Int
deriving DecidableEq, Repr

/-- Which of two equally near candidates is taken. -/
inductive Tie where
  | up
  | toEven
deriving DecidableEq, Repr

/-- A number between the bounds of the reals that round to it, in whole units. -/
structure Span where
  below : Nat
  value : Nat
  above : Nat
  /-- The bounds themselves round to the number as well. -/
  closed : Bool
deriving DecidableEq, Repr

namespace Span

/-- The point rounds to the number. -/
def contains (span : Span) (point : Nat) : Bool :=
  if span.closed then span.below ≤ point && point ≤ span.above
  else span.below < point && point < span.above

/-- Of the two points of a grid around the number, the one that rounds to it; if both do, the
nearer one. It is given as a multiple of the grid; nothing if neither rounds to the number. -/
def hit? (span : Span) (tie : Tie) (grid : Nat) : Option Nat :=
  let floor := span.value / grid
  let rest := span.value % grid
  match span.contains (floor * grid), span.contains ((floor + 1) * grid) with
  | false, false => none
  | true, false => some floor
  | false, true => some (floor + 1)
  | true, true =>
    if 2 * rest < grid then some floor
    else if grid < 2 * rest then some (floor + 1)
    else match tie with
      | .up => some (floor + 1)
      | .toEven => some (if floor % 2 = 0 then floor else floor + 1)

/-- The point of the widest grid, not wider than `10 ^ k`, that rounds to the number: a multiple
and the exponent of its grid. -/
def shortest (span : Span) (tie : Tie) : Nat → Nat × Nat
  | 0 => (span.value, 0)
  | k + 1 =>
    match span.hit? tie (Nat.pow 10 (k + 1)) with
    | some digits => (digits, k + 1)
    | none => span.shortest tie k

/-- The reals that round to a finite magnitude, in units of `10 ^ -1076`. The neighbour below a
power of two is only half as far away as the one above it. -/
def ofMagnitude (magnitude : Nat) : Span :=
  let quarter := Nat.pow 5 1076 <<< (Double.exponent magnitude - 1)
  let value := 4 * Double.unitsOf magnitude * Nat.pow 5 1076
  let narrow := Double.fraction magnitude = 0 ∧ 1 < Double.exponent magnitude
  { below := value - (if narrow then quarter else 2 * quarter)
    value := value
    above := value + 2 * quarter
    closed := Double.fraction magnitude % 2 = 0 }

end Span

/-- The shortest decimal that reads back as a finite magnitude. -/
def Decimal.ofMagnitude (tie : Tie) (magnitude : Nat) : Decimal :=
  let span := Span.ofMagnitude magnitude
  let found := span.shortest tie (span.above.log2 * 31 / 100 + 1)
  ⟨found.1, (found.2 : Int) - 1076⟩

end RowLogic
