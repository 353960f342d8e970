-- SUMMARY: Alias values: tokens with a type, and the text that a value stands for.
import AliasExpansion.Token.Literal
import AliasExpansion.Token.Render
import AliasExpansion.Value.Type

/-!
# Values

A value is a token list with a type. Its text is the name of an identifier, the content of a
string, the digits of an integer, or else the rendering of its tokens. Values are made from tokens
by `Value/Classify` and converted by `Value/Cast`.
-/

namespace AliasExpansion

structure Value where
  type : ValueType
  tokens : List Token
deriving DecidableEq, Repr, Inhabited

namespace Value

def ofName (name : String) (span : Span := {}) : Value where
  type := .ident
  tokens := [.ident name span]

def ofText (text : String) (span : Span := {}) (lone : Bool := false) : Value where
  type := .str
  tokens := [.literal { Literal.ofContent text span with lone }]

def ofDigits (digits : String) (span : Span := {}) : Value where
  type := .int
  tokens := [.literal (.ofDigits digits span)]

def span (value : Value) : Span :=
  Token.firstSpan value.tokens

def render (value : Value) : String :=
  Token.renderAll value.tokens

def text (value : Value) : Except DecodeError String :=
  match value.type, value.tokens with
  | .ident, .ident name _ :: _ => .ok name
  | .str, .literal lit :: _ => lit.content
  | .int, .literal lit :: _ => lit.digits
  | _, tokens => .ok (Token.renderAll tokens)

/-- Whether the text of a value holds a lone surrogate. -/
def holdsSurrogate (value : Value) : Bool :=
  match value.type, value.tokens with
  | .ident, .ident _ _ :: _ => false
  | .str, .literal lit :: _ => lit.holdsSurrogate
  | .int, .literal _ :: _ => false
  | _, tokens => Token.anyLone tokens

/-- The text as messages show it: a string stands in quotes. -/
def display (value : Value) : Except DecodeError String := do
  let text ← value.text
  return if value.type = .str then "\"" ++ text ++ "\"" else text

/-- The name that an identifier value may refer to. -/
def name? (value : Value) : Option String :=
  match value.type, value.tokens with
  | .ident, .ident name _ :: _ => some name
  | _, _ => none

end Value

end AliasExpansion
