import RowLogic.Diagnostic.Json
import RowLogic.Diagnostic.Rendering
import RowLogic.Json.Printer
import RowLogic.Json.Reader
import RowLogic.Value.Json
import RowLogic.Proofs.Evaluation.LeafOrder
import RowLogic.Proofs.Expr.Canonical
import RowLogic.Proofs.Expr.Delimited
import RowLogic.Proofs.Session.Questions
import RowLogic.Proofs.Stream.Operations
import RowLogic.Proofs.Stream.RoundTrip
import RowLogic.Proofs.Expr.Displacement
import RowLogic.Proofs.Expr.Refusal
import RowLogic.Proofs.Expr.Limits
import RowLogic.Proofs.Stream.Position
import RowLogic.Proofs.Diagnostic.Origins
import RowLogic.Proofs.Expr.Size
import RowLogic.Proofs.Real64.Denotation
import RowLogic.Proofs.Real64.Order
import RowLogic.Proofs.Evaluation.Chains
import RowLogic.Proofs.Expr.Unfinished
import RowLogic.Proofs.Value.Equality
import RowLogic.Proofs.Wire.Text
import RowLogic.Proofs.Json.Numerals
import RowLogic.Proofs.Json.Texts
import RowLogic.Proofs.Json.RoundTrip
import RowLogic.Proofs.Diagnostic.Json
import RowLogic.Proofs.Real64.Shortest
import RowLogic.Proofs.Real64.Layout
import RowLogic.Proofs.Value.Text
import RowLogic.Proofs.Expr.Display
import RowLogic.Proofs.Diagnostic.Rendering
import RowLogic.Proofs.Real64.Rounding
import RowLogic.Proofs.Json.Decimals
import RowLogic.Proofs.Value.Json
