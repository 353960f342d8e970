-- SUMMARY: Everything that can be wrong with the form of a text, and how it is worded.
import AliasExpansion.Text.Quoted
import AliasExpansion.Token.Basic

/-!
# Syntax errors

A syntax error is a fault with the place where it was noticed. Faults come from three sources:
the lexer (`Token/Lexeme`, `Token/Tree`), the recognizer of code (`Syntax/Rule`) and the reader
of invocations (`Invocation/Reader`). The wording of each is in `SyntaxFault.message`.
-/

namespace AliasExpansion

/-- What the recognizer of code was looking for. -/
inductive Want where
  | identifier
  | pathSegment
  | type
  | constOrMut
  | expression
  | pattern
  | memberName
  | lifetime
  | stringLiteral
  | integerLiteral
  | item
  | associatedItem
  | macroBody
  | macroArguments
  | usePath
  /-- Punctuation characters written without space between them. -/
  | mark (chars : List Char)
  | keyword (word : String)
  | delimiter (delimiter : Delimiter)
  /-- Nothing more. -/
  | ending
deriving DecidableEq, Repr

def Want.message : Want → String
  | .identifier => "expected identifier"
  | .pathSegment => "expected path segment"
  | .type => "expected type"
  | .constOrMut => "expected \x60const\x60 or \x60mut\x60"
  | .expression => "expected expression"
  | .pattern => "expected pattern"
  | .memberName => "expected field or method name"
  | .lifetime => "expected lifetime"
  | .stringLiteral => "expected string literal"
  | .integerLiteral => "expected integer literal"
  | .item => "expected item"
  | .associatedItem => "expected associated item"
  | .macroBody => "expected macro body"
  | .macroArguments => "expected macro arguments"
  | .usePath => "expected use path"
  | .mark chars => "expected \x60" ++ String.ofList chars ++ "\x60"
  | .keyword word => "expected \x60" ++ word ++ "\x60"
  | .delimiter d => "expected \x60" ++ d.opening ++ "\x60"
  | .ending => "unexpected token"

/-- What is wrong with an invocation outside its code block. -/
inductive InvocationFault where
  | expectedIdentifier
  | expectedWord (word : String)
  | expectedGroup (delimiter : Delimiter)
  | expectedComma
  | expectedEquals
  | expectedValue
  | expectedSeparator
  | emptyItem
  | mixedSeparators
  | afterBlock
deriving DecidableEq, Repr

def InvocationFault.message : InvocationFault → String
  | .expectedIdentifier => "expected identifier"
  | .expectedWord word => "expected \"" ++ word ++ "\""
  | .expectedGroup delimiter => "expected \"" ++ delimiter.opening ++ "\""
  | .expectedComma => "expected \",\""
  | .expectedEquals => "expected \"=\""
  | .expectedValue => "expected alias value"
  | .expectedSeparator => "Expected \",\" or \";\""
  | .emptyItem => "expected a value between commas"
  | .mixedSeparators => "Mixing \",\" and \";\" as separators is not allowed"
  | .afterBlock => "unexpected token after block"

inductive SyntaxFault where
  /-- No lexeme starts with this character. -/
  | unexpectedChar (char : Char)
  /-- The innermost open group, if any, does not close with this delimiter. -/
  | unexpectedClosing (delimiter : Delimiter)
  | unclosed (delimiter : Delimiter)
  /-- The recognizer met the token rendered as `found`, or the end of its input. -/
  | unexpected (want : Want) (found : Option String)
  | invocation (fault : InvocationFault)
  /-- The recognizer ran out of its budget of productions. -/
  | exhausted
deriving DecidableEq, Repr

def SyntaxFault.message : SyntaxFault → String
  | .unexpectedChar char => "unexpected char: " ++ Text.quoted (String.singleton char)
  | .unexpectedClosing delimiter =>
    "unexpected closing delimiter: " ++ Text.quoted delimiter.closing
  | .unclosed delimiter => "unclosed delimiter: " ++ Text.quoted delimiter.opening
  | .unexpected want found =>
    want.message ++ ", found " ++ (found.map Text.quoted).getD "end of input"
  | .invocation fault => fault.message
  | .exhausted => "recognition exhausted its budget"

structure SyntaxError where
  fault : SyntaxFault
  /-- Unknown when there is no token to point at. -/
  span : Option Span
deriving DecidableEq, Repr

end AliasExpansion
