-- SUMMARY: Alias expressions: values and function calls, and how tokens are read as one.
import AliasExpansion.Token.Parts
import AliasExpansion.Value.Classify

/-!
# Alias expressions

An alias expression is a leaf, which holds a value, or a function call. A call keeps its argument
list twice: as expressions, and raw, for functions that take it unread. Every leaf and every
call has an identity, under which resolution records its results; reading hands out fresh ones.

Every nonempty run of tokens reads as an expression: what is no call is a leaf.
-/

namespace AliasExpansion

/-- The identity of an expression node. -/
abbrev NodeId := Nat

structure Leaf where
  id : NodeId
  value : Value
  span : Span
deriving DecidableEq, Repr, Inhabited

inductive Expr where
  | leaf (leaf : Leaf)
  /-- The arguments are empty when the argument list has an empty part between commas. -/
  | call (id : NodeId) (name : String) (arguments : List Expr) (raw : Leaf) (span : Span)
deriving Repr, Inhabited

namespace Expr

def id : Expr → NodeId
  | .leaf node => node.id
  | .call id .. => id

def span : Expr → Span
  | .leaf node => node.span
  | .call _ _ _ _ span => span

mutual

/-- The expression as messages show it. -/
def display : Expr → Except DecodeError String
  | .leaf node => node.value.display
  | .call _ name arguments raw _ =>
    match arguments with
    | [] => .ok (name ++ "(" ++ raw.value.render ++ ")")
    | first :: rest => do
      let first ← first.display
      return name ++ "(" ++ first ++ (← displayRest rest) ++ ")"

/-- Further arguments, each after a comma. -/
def displayRest : List Expr → Except DecodeError String
  | [] => .ok ""
  | argument :: rest => do
    let argument ← argument.display
    return ", " ++ argument ++ (← displayRest rest)

end

-- ---------------------------------------------------------------------------
-- Reading
-- ---------------------------------------------------------------------------

/-- The next fresh identity. -/
def fresh : StateM NodeId NodeId :=
  modifyGet fun next => (next, next + 1)

def readLeaf (tokens : List Token) : StateM NodeId Expr :=
  return .leaf { id := ← fresh, value := Value.classify tokens, span := Token.firstSpan tokens }

/-- A call whose argument list has the tokens `content`. -/
def readCall (readArgument : List Token → StateM NodeId Expr) (name : String)
    (content : List Token) (listSpan span : Span) : StateM NodeId Expr := do
  let parts := Token.commaParts content
  let arguments ← if parts.contains [] then pure [] else parts.mapM readArgument
  let raw := { id := ← fresh, value := { type := .raw, tokens := content }, span := listSpan }
  return .call (← fresh) name arguments raw span

/-- Read an expression in which calls are nested at most `depth` deep. -/
def readWithin : (depth : Nat) → List Token → StateM NodeId Expr
  | 0, tokens => readLeaf tokens
  | depth + 1, tokens =>
    match tokens with
    | [.ident name span, .group .parenthesis content listSpan] =>
      if Name.isIdentifier name then readCall (readWithin depth) name content listSpan span
      else readLeaf tokens
    | _ => readLeaf tokens

def read (tokens : List Token) : StateM NodeId Expr :=
  readWithin (Token.depths tokens) tokens

/-- A concatenation, written as its arguments in brackets. -/
def readConcatenation (content : List Token) (span : Span) : StateM NodeId Expr :=
  readCall read "concat" content span span

end Expr

end AliasExpansion
