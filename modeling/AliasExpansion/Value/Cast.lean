-- SUMMARY: Converting a value to another type by checking or rebuilding its tokens.
import AliasExpansion.Error
import AliasExpansion.Syntax.Check
import AliasExpansion.Token.Tree
import AliasExpansion.Value.Basic

/-!
# Casts

A cast keeps the tokens of a value and checks that they have the form of the target. Two casts
rebuild the tokens instead: an identifier becomes a string that holds its name, and a string
becomes the identifier that its content spells.
-/

namespace AliasExpansion

/-- The syntactic category of a value type; the types that accept any tokens have none. -/
def ValueType.category? : ValueType → Option Category
  | .ident => some .ident
  | .path => some .path
  | .type => some .type
  | .expr => some .expr
  | .str => some .stringLiteral
  | .int => some .intLiteral
  | .tokens | .raw => none

namespace Value

/-- The tokens as a value of type `target`, if they have its form. -/
def reparse (tokens : List Token) (target : ValueType) : Except SyntaxError Value := do
  if let some category := target.category? then category.check tokens
  return { type := target, tokens }

/-- The identifier that a text spells. -/
def identOfText (text : String) (span : Span) : Except SyntaxError Value := do
  let tokens ← Token.read text
  Category.check .ident tokens
  match tokens with
  | .ident name _ :: _ => return ofName name span
  | _ => throw (Cursor.start tokens |>.unexpected .identifier)

/-- The string literal that the value consists of. -/
def stringLiteral? (value : Value) : Option Literal :=
  match value.tokens with
  | [.literal lit] => if lit.isString then some lit else none
  | _ => none

/-- The name that the value consists of. -/
def identifier? (value : Value) : Option String :=
  match value.tokens with
  | [.ident name _] => if Name.isIdentifier name then some name else none
  | _ => none

def cast (value : Value) (target : ValueType) : Except Error Value :=
  let refuse (e : SyntaxError) : Error :=
    .type (.cast value.type target e.fault) (some value.span)
  if value.type = target then .ok value
  else
    match target with
    | .ident =>
      match value.stringLiteral? with
      | some lit => do
        let text ← lit.content.mapError .decode
        (identOfText text value.span).mapError refuse
      | none => (reparse value.tokens .ident).mapError refuse
    | .str =>
      match value.identifier? with
      | some name => .ok (ofText name value.span)
      | none =>
        if value.type = .ident then do
          return ofText (← value.text.mapError .decode) value.span
        else (reparse value.tokens .str).mapError refuse
    | target => (reparse value.tokens target).mapError refuse

end Value

end AliasExpansion
