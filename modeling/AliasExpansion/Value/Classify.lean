-- SUMMARY: Typing a run of tokens by the narrowest category it belongs to.
import AliasExpansion.Syntax.Check
import AliasExpansion.Value.Basic

/-!
# Classification

A single literal or name has its own type. Other tokens are a path, a type or an expression if
they form one, tried in this order, and plain tokens otherwise.
-/

namespace AliasExpansion.Value

/-- The type of a single token that needs no parsing. -/
def tokenType? : Token → Option ValueType
  | .literal lit => if lit.kind = .int then some .int else if lit.isString then some .str else none
  | .ident name _ => if name = "_" || Name.isIdentifier name then some .ident else none
  | _ => none

/-- The narrowest category that the tokens form. -/
def categoryType (tokens : List Token) : ValueType :=
  if Category.path.accepts tokens then .path
  else if Category.type.accepts tokens then .type
  else if Category.expr.accepts tokens then .expr
  else .tokens

def classify (tokens : List Token) : Value where
  type :=
    match tokens with
    | [token] => (tokenType? token).getD (categoryType tokens)
    | _ => categoryType tokens
  tokens := tokens

end AliasExpansion.Value
