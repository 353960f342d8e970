-- SUMMARY: The nonterminals of the grammar of code.
import AliasExpansion.Syntax.Rule

/-!
# Nonterminals

The names by which the rules of the grammar (`Syntax/Grammar`) refer to one another. Some have
parameters, such as where an expression stands. A repetition is a nonterminal that calls itself
last (`pathTail`, `arms`, …); its rule consumes something on every round.
-/

namespace AliasExpansion

/-- Which arguments the segments of a path may have. -/
inductive PathStyle where
  /-- Generic arguments after any segment. -/
  | plain
  /-- Generic arguments only after `::`. -/
  | expression
  /-- Generic arguments, or parameters and a result as in a function trait. -/
  | type
deriving DecidableEq, Repr

/-- Where an expression stands. -/
inductive ExprPosition where
  | free
  /-- Before a block, where a brace group does not continue a path. -/
  | beforeBlock
deriving DecidableEq, Repr

/-- The elements that comma-separated groups are made of. -/
inductive Element where
  | type
  | expression
  | pattern
  | useTree
deriving DecidableEq, Repr

/-- The members that bodies are made of. -/
inductive Member where
  | statement
  | namedField
  | tupleField
  | variant
  | assocItem
deriving DecidableEq, Repr

inductive Nonterminal where
  -- names and paths
  | path (style : PathStyle)
  | pathTail (style : PathStyle)
  | pathSegment (style : PathStyle)
  | genericArgs
  | genericArgList
  | genericArg
  | qualifiedPath
  | qualifiedPathTail
  -- types
  | type (plus : Bool)
  | fnPointer
  | fnPointerParams
  | forLifetimes
  | lifetimeList
  | bounds (plus : Bool)
  | boundsTail
  | typeBounds
  | bound
  -- expressions
  | binary (minPrecedence : Nat) (position : ExprPosition)
  | binaryTail (minPrecedence : Nat) (position : ExprPosition)
  | unary (position : ExprPosition)
  | postfixTail
  | primary (position : ExprPosition)
  | pathExpr (position : ExprPosition)
  | structFields
  | condition
  | ifExpr
  | arms
  | closure
  | closureParams
  -- patterns
  | pattern
  | patternAlternatives
  | patternAtom
  | rangePatternEnd
  | rangeBound
  | fieldPatterns
  -- attributes and items
  | outerAttrs
  | innerAttrs
  | visibility
  | item
  | fn
  | fnQualifiers
  | fnParams
  | generics
  | genericParams
  | lifetimeBounds
  | whereClause
  | wherePredicates
  | typeAlias
  | useTree
  -- repetitions
  | list (element : Element)
  | member (kind : Member)
  | members (kind : Member)
deriving DecidableEq, Repr

/-- A rule of the grammar. -/
abbrev Production := Rule Nonterminal

end AliasExpansion
