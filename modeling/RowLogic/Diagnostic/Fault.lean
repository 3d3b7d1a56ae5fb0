/-
**Faults.**

Everything that can go wrong, by cause: the bytes handed to a decoder (`WireFault`, and a tag that
no expression has), the expression handed to an encoder, and the values met in an evaluation. Each
fault has one notice, and the wording of all of them is here.
-/

import RowLogic.Bytes.Hex
import RowLogic.Diagnostic.Basic
import RowLogic.Value.DataType

namespace RowLogic

/-- How a field of a byte stream can fail to be read. -/
inductive WireFault where
  /-- The stream ends before the field does. -/
  | truncated (field : String) (needed remaining : Nat)
  /-- A boolean that is neither zero nor one. -/
  | invalidBoolean (byte : UInt8) (offset : Nat)
  /-- A byte that stands for no type. -/
  | unknownTypeTag (tag : UInt8) (offset : Nat)
  /-- Bytes of a text that are not UTF-8. -/
  | invalidUtf8 (offset : Nat) (reason : String)
  /-- A number that is a NaN. -/
  | invalidFloat (offset : Nat)
  /-- One level of nesting too many. -/
  | nestingTooDeep (maxDepth : Nat)
  /-- Bytes that follow a complete value. -/
  | trailingBytes (count : Nat)
deriving DecidableEq, Repr

/-- An operand of a connective. -/
inductive Side where
  | left
  | right
deriving DecidableEq, Repr

/-- The name of a side. -/
def Side.text : Side → String
  | left => "left"
  | right => "right"

/-- A failure, by its cause. -/
inductive Fault where
  /-- A field could not be read. -/
  | wire (fault : WireFault)
  /-- A byte that stands for no kind of expression. -/
  | unknownExpressionTag (tag : UInt8) (offset : Nat)
  /-- An expression without an encoding. -/
  | notEncodable (expression : String)
  /-- A text whose length does not fit its prefix. -/
  | textTooLong (length : Nat)
  /-- A column outside of the row. -/
  | columnNotFound (index width : Nat)
  /-- A parameter that the query does not bind. -/
  | parameterNotBound (index : Nat)
  /-- An operand whose declared type is not boolean. -/
  | operandNotBoolean (side : Side) (operator : String) (declared : DataType)
  /-- An operand that was declared boolean but gave another value. -/
  | operandValueNotBoolean (side : Side) (operator : String) (actual : DataType)
  /-- A probe that was told to fail. -/
  | probeFailure
deriving DecidableEq, Repr

/-- A byte in the notation of the messages. -/
def hexText (byte : UInt8) : String :=
  "0x" ++ String.ofList (Hex.ofByte byte)

namespace WireFault

/-- The fault in one line. -/
def text : WireFault → String
  | truncated field needed remaining =>
    "truncated while reading " ++ field ++ ": needed " ++ toString needed ++ ", remaining " ++
      toString remaining
  | invalidBoolean byte offset =>
    "invalid boolean byte " ++ hexText byte ++ " at offset " ++ toString offset
  | unknownTypeTag tag offset =>
    "unknown type tag " ++ hexText tag ++ " at offset " ++ toString offset
  | invalidUtf8 offset reason =>
    "invalid utf-8 at offset " ++ toString offset ++ ": " ++ reason
  | invalidFloat offset => "NaN float at offset " ++ toString offset
  | nestingTooDeep maxDepth => "nesting exceeds " ++ toString maxDepth
  | trailingBytes count => toString count ++ " trailing byte(s)"

end WireFault

/-- The notice of bytes that no encoder has written. -/
def malformedNotice (code message label : String) (notes : List String) : Notice where
  code := code
  message := message
  label := some label
  help := some "The encoded expression is corrupted or was produced by an incompatible peer"
  notes := notes

/-- The notice of a wire fault. -/
def WireFault.notice : WireFault → Notice
  | truncated field needed remaining =>
    malformedNotice "WIRE_001"
      ("Unexpected end of input while reading " ++ field ++ ": needed " ++ toString needed ++
        " byte(s), " ++ toString remaining ++ " remaining")
      "truncated stream" []
  | invalidBoolean byte offset =>
    malformedNotice "WIRE_002"
      ("Invalid boolean byte " ++ hexText byte ++ " at offset " ++ toString offset ++
        ", expected 0x00 or 0x01")
      "invalid boolean" []
  | unknownTypeTag tag offset =>
    malformedNotice "WIRE_003"
      ("Unknown type tag " ++ hexText tag ++ " at offset " ++ toString offset)
      "unknown type" []
  | invalidUtf8 offset reason =>
    malformedNotice "WIRE_004"
      ("Invalid UTF-8 text at offset " ++ toString offset ++ ": " ++ reason)
      "invalid text" []
  | invalidFloat offset =>
    malformedNotice "WIRE_008" ("NaN float at offset " ++ toString offset) "invalid float" []
  | nestingTooDeep maxDepth =>
    malformedNotice "WIRE_005"
      ("Expression nesting exceeds the configured maximum depth of " ++ toString maxDepth)
      "nesting too deep" ["The limit can be raised through DecodeConfig::max_depth"]
  | trailingBytes count =>
    malformedNotice "WIRE_006"
      (toString count ++ " unexpected trailing byte(s) after the encoded expression")
      "trailing bytes" []

namespace Fault

/-- The notice of a fault. -/
def notice : Fault → Notice
  | wire fault => fault.notice
  | unknownExpressionTag tag offset =>
    malformedNotice "WIRE_007"
      ("Unknown expression tag " ++ hexText tag ++ " at offset " ++ toString offset)
      "unknown expression" []
  | notEncodable expression =>
    { code := "ENCODE_001"
      message := "Expression `" ++ expression ++ "` cannot be encoded"
      label := some "not encodable" }
  | textTooLong length =>
    { code := "ENCODE_002"
      message := "Text of " ++ toString length ++ " bytes does not fit a u32 length prefix"
      label := some "text too long"
      notes := ["At most 4294967295 bytes can be encoded"] }
  | columnNotFound index width =>
    { code := "EVAL_001"
      message := "Column " ++ toString index ++ " does not exist in a row of " ++ toString width ++
        " column(s)"
      label := some "unknown column" }
  | parameterNotBound index =>
    { code := "EVAL_002"
      message := "Parameter $" ++ toString (index + 1) ++ " is not bound"
      label := some "unbound parameter"
      help := some "Pass the parameter when executing the query, e.g. params![...]" }
  | operandNotBoolean side operator declared =>
    { code := match side with
        | .left => "LOGICAL_001"
        | .right => "LOGICAL_002"
      message := "Cannot apply " ++ operator.toUpper ++ " operator: " ++ side.text ++
        " operand is of type " ++ declared.text ++ ", expected " ++ DataType.boolean.text
      label := some (side.text ++ " operand is not boolean")
      help := some ("Logical connectives only accept boolean operands. " ++
        "Use a comparison such as `value != 0` to derive a boolean")
      notes := [operator.toUpper ++ " combines boolean values under three-valued logic"] }
  | operandValueNotBoolean side operator actual =>
    { code := "LOGICAL_003"
      message := "Cannot apply " ++ operator.toUpper ++ " operator: " ++ side.text ++
        " operand evaluated to a value of type " ++ actual.text
      label := some (side.text ++ " operand produced a non-boolean value")
      notes := ["the " ++ side.text ++ " operand declares type " ++ DataType.boolean.text] }
  | probeFailure =>
    { code := "PROBE_001", message := "probe evaluation failed" }

/-- The diagnostic of a fault, which nothing else caused. -/
def diagnostic (fault : Fault) : Diagnostic :=
  ⟨fault.notice, []⟩

end Fault

end RowLogic
