/-
**Sessions.**

A session holds expression instances in numbered slots, and the tallies of all probes among them.
An instance is changed by its own evaluations alone; a copy and a decoded expression take a slot
of their own. The tallies are the one thing that instances share.
-/

import RowLogic.Expr.Decoding
import RowLogic.Expr.Evaluation

namespace RowLogic

/-- Some expression instances and the tallies of their probes. -/
structure Session where
  slots : List Expr := []
  tallies : Tallies := []
deriving Inhabited

namespace Session

/-- The instance in a slot. -/
def get? (session : Session) (slot : Nat) : Option Expr :=
  session.slots[slot]?

/-- The session with one more instance, in the next slot. -/
def add (session : Session) (expr : Expr) : Session :=
  { session with slots := session.slots ++ [expr] }

/-- The outcome of an instance for a row, and the session after it. -/
def evaluate? (session : Session) (slot : Nat) (params : Params) (row : Row) :
    Option (Except Fault Value × Session) := do
  let expr ← session.get? slot
  let done := expr.evaluate params row session.tallies
  some (done.outcome, ⟨session.slots.set slot done.expr, done.tallies⟩)

/-- The outcomes of an instance for some rows in turn, and the session after them. -/
def evaluateRows? (session : Session) (slot : Nat) (params : Params) (rows : List Row) :
    Option (List (Except Fault Value) × Session) := do
  let expr ← session.get? slot
  let (outcomes, expr, tallies) := expr.evaluateRows params rows session.tallies
  some (outcomes, ⟨session.slots.set slot expr, tallies⟩)

/-- The declared type of an expression, and the session after the question. -/
def queryType (session : Session) (expr : Expr) : DataType × Session :=
  let (type, tallies) := expr.queryType session.tallies
  (type, { session with tallies := tallies })

/-- The session with a copy of an instance. -/
def copy? (session : Session) (slot : Nat) : Option Session :=
  (session.get? slot).map fun expr => session.add expr.copy

/-- The session with the expression that some bytes encode. -/
def decode (session : Session) (bytes : List UInt8) (limits : DecodeLimits) :
    Except Fault Session :=
  (Expr.decode bytes limits).map session.add

end Session

end RowLogic
