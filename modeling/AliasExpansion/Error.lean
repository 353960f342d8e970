-- SUMMARY: Everything an expansion can fail with, and the wording of each failure.
import AliasExpansion.Syntax.Fault
import AliasExpansion.Token.Literal
import AliasExpansion.Value.Type

/-!
# Errors

An error is the cause of a failure with the place it points at, if one is known. The groups
follow the stages of an expansion: reading (`parse`), typing (`type`, `signature`,
`undefinedFunction`, `redefined`), computing values (`evaluation`) and changing the block
(`substitution`). An `internal` error is a broken invariant. Some failures have no place: a literal
without a value or a value without bytes (`decode`), and a key that is too long for hashing
(`keyTooLong`).
-/

namespace AliasExpansion

inductive TypeFault where
  /-- The tokens of a value do not have the form of the target. -/
  | cast (source target : ValueType) (reason : SyntaxFault)
  | coercion (source target : ValueType)
  | tupleLength
  | tupleShape
  | tupleMismatch
deriving DecidableEq, Repr

def TypeFault.message : TypeFault → String
  | .cast source target reason =>
    "Unable to cast " ++ source.name ++ " to " ++ target.name ++ ": " ++ reason.message
  | .coercion source target =>
    "impossible to coerce from " ++ source.name ++ " to " ++ target.name
  | .tupleLength => "Mismatched number of elements in the tuple"
  | .tupleShape => "Shape of the value tuple doesn't match the shape of the alias tuple"
  | .tupleMismatch => "Mismatched alias and value types"

inductive EvaluationFault where
  | invalidIdentifier (text : String)
  | invalidConcatenation (text : String)
deriving DecidableEq, Repr

def EvaluationFault.message : EvaluationFault → String
  | .invalidIdentifier text => "\x60" ++ text ++ "\x60 is not a valid identifier"
  | .invalidConcatenation text =>
    "Failed to produce a valid identifier from concatenated arguments: " ++ text

inductive InternalFault where
  | untypedAlias (name : String)
  | unresolvedValue (text : String)
  | unresolvedCall (text : String)
  | uncastable (value : String) (target : ValueType) (reason : String)
  | notAGroup (text : String)
  | unrecordedReplacement
  | missingArgument
  | stepLimit
deriving DecidableEq, Repr

def InternalFault.message : InternalFault → String
  | .untypedAlias name => "alias " ++ name ++ " has no resolved type"
  | .unresolvedValue text => "value " ++ text ++ " has not been resolved"
  | .unresolvedCall text => "call " ++ text ++ " has not been resolved"
  | .uncastable value target reason =>
    "resolved value " ++ value ++ " does not cast to " ++ target.name ++ ": " ++ reason
  | .notAGroup text => "expected a group to fold into, found " ++ text
  | .unrecordedReplacement => "replacement recorded no substitution"
  | .missingArgument => "a function was called without its argument"
  | .stepLimit => "a walk did not end within its step limit"

inductive Error where
  | parse (fault : SyntaxFault) (span : Option Span)
  | type (fault : TypeFault) (span : Option Span)
  | evaluation (fault : EvaluationFault) (span : Option Span)
  | redefined (name : String) (span : Option Span)
  | signature (signatures call : String) (span : Option Span)
  | undefinedFunction (name : String) (span : Option Span)
  | substitution (before after : String) (reason : SyntaxFault) (span : Option Span)
  | internal (fault : InternalFault) (span : Option Span)
  | decode (error : DecodeError)
  | keyTooLong
  /-- No frame, or no token in it, where an edit needs one. -/
  | noFrame
deriving DecidableEq, Repr

namespace Error

def ofSyntax (e : SyntaxError) : Error :=
  .parse e.fault e.span

def span : Error → Option Span
  | .parse _ span | .type _ span | .evaluation _ span | .redefined _ span
  | .signature _ _ span | .undefinedFunction _ span | .substitution _ _ _ span
  | .internal _ span => span
  | .decode _ | .keyTooLong | .noFrame => none

/-- The message without the place. -/
def message : Error → String
  | .parse fault _ => fault.message
  | .type fault _ => fault.message
  | .evaluation fault _ => fault.message
  | .redefined name _ => "name " ++ name ++ " has already been defined"
  | .signature signatures call _ =>
    "function " ++ signatures ++ " has been called with incompatible arguments: " ++ call
  | .undefinedFunction name _ => "function \"" ++ name ++ "(...)\" is undefined"
  | .substitution before after reason _ =>
    "failed to substitute:\n\n  " ++ before ++ "\n\nwith:\n\n  " ++ after ++
      "\n\nEncountered an error:\n\n  " ++ reason.message
  | .internal fault _ => fault.message
  | .decode error => error.message
  | .keyTooLong => "maximum key length is 64 bytes"
  | .noFrame => "list index out of range"

/-- The message with the place in front, if it is known. -/
def report (error : Error) : String :=
  match error.span with
  | some span =>
    "line " ++ toString span.line ++ ", col " ++ toString span.column ++ ": " ++ error.message
  | none => error.message

/-- Whether the error belongs to the invocation: one that its author can cause and that names what
    is wrong. -/
def isDiagnostic : Error → Bool
  | .decode _ | .keyTooLong | .noFrame => false
  | _ => true

def isInternal : Error → Bool
  | .internal _ _ => true
  | _ => false

end Error

end AliasExpansion
