-- SUMMARY: Invocations: loops, alias bindings and the code block, and their combinations.
import AliasExpansion.Invocation.Expr

/-!
# Invocations

An invocation declares aliases for a code block. Loops come first, then bindings of names to
expressions, then the block in braces. `Invocation/Reader` reads an invocation from tokens;
`Invocation/Loops` turns it into one specification per combination of loop values.
-/

namespace AliasExpansion

structure Binding where
  name : String
  span : Span
  expr : Expr
deriving Repr, Inhabited

inductive LoopPattern where
  | name (name : String) (span : Span)
  | tuple (items : List LoopPattern) (span : Span)
deriving Repr, Inhabited

inductive LoopValue where
  | expr (expr : Expr)
  | tuple (items : List LoopValue) (span : Span)
deriving Repr, Inhabited

namespace LoopPattern

def span : LoopPattern → Span
  | .name _ span => span
  | .tuple _ span => span

def isTuple : LoopPattern → Bool
  | .name .. => false
  | .tuple .. => true

end LoopPattern

namespace LoopValue

def span : LoopValue → Span
  | .expr e => e.span
  | .tuple _ span => span

def isTuple : LoopValue → Bool
  | .expr _ => false
  | .tuple .. => true

end LoopValue

/-- `for pattern in [values]`. -/
structure Loop where
  pattern : LoopPattern
  values : List LoopValue
  span : Span
deriving Repr, Inhabited

/-- What stands after each binding. -/
inductive Separator where
  | comma
  | semicolon
deriving DecidableEq, Repr

structure Invocation where
  loops : List Loop
  bindings : List Binding
  /-- Absent when there are no bindings. -/
  separator : Option Separator
  block : List Token
  span : Span
deriving Repr

/-- One choice of loop values: the bindings it makes, before the ones of the invocation. -/
structure Combination where
  bindings : List Binding
  block : List Token
deriving Repr

end AliasExpansion
