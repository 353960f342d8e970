-- SUMMARY: Scopes: the aliases declared so far and what resolution recorded about expressions.
import AliasExpansion.Error
import AliasExpansion.Function.Library
import AliasExpansion.Invocation.Expr
import AliasExpansion.Table

/-!
# Scopes

A scope holds the aliases declared so far and the results of resolution. Expressions are never
changed: results are kept in tables under the identity of the node they belong to. A scope is a
value, so an attempt at resolution works on its own copy and leaves no trace when it is given up.
-/

namespace AliasExpansion

/-- What resolution found for a leaf. -/
structure Typing where
  target : ValueType
  cost : Nat
deriving DecidableEq, Repr

/-- What resolution found for a call. -/
structure Selection where
  overload : Overload
  target : ValueType
  cost : Nat

structure Metadata where
  leaves : Table NodeId Typing
  calls : Table NodeId Selection

namespace Metadata

def empty : Metadata where
  leaves := .empty
  calls := .empty

/-- The type that a node was resolved to. -/
def target? (metadata : Metadata) (id : NodeId) : Option ValueType :=
  ((metadata.leaves.find? id).map Typing.target) <|>
    ((metadata.calls.find? id).map Selection.target)

def recordLeaf (metadata : Metadata) (id : NodeId) (typing : Typing) : Metadata :=
  { metadata with leaves := metadata.leaves.insert id typing }

def recordCall (metadata : Metadata) (id : NodeId) (selection : Selection) : Metadata :=
  { metadata with calls := metadata.calls.insert id selection }

end Metadata

structure Scope where
  aliases : Table String Expr
  metadata : Metadata

namespace Scope

def empty : Scope where
  aliases := .empty
  metadata := .empty

/-- Declare an alias, unless its name is taken. `span` is the place of the declaration. -/
def declare (scope : Scope) (name : String) (expr : Expr) (span : Option Span) :
    Except Error Scope :=
  if scope.aliases.contains name then .error (.redefined name span)
  else .ok { scope with aliases := scope.aliases.insert name expr }

/-- The type of a value, which for a reference to an alias is the type the alias resolved to. -/
def typeOf (scope : Scope) (value : Value) (span : Span) : Except Error ValueType :=
  match value.name? with
  | none => .ok value.type
  | some name =>
    match scope.aliases.find? name with
    | none => .ok value.type
    | some expr =>
      match scope.metadata.target? expr.id with
      | some target => .ok target
      | none => .error (.internal (.untypedAlias name) (some span))

end Scope

end AliasExpansion
