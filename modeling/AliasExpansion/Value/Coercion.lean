-- SUMMARY: Which value types coerce into which, and at what cost.
import AliasExpansion.Value.Type

/-!
# Coercion

A coercion turns a value of one type into another type without a call. An identifier is also a
path, a type and an expression; anything is also a token sequence. The cost orders the
alternatives of an overloaded function: the closer type is the cheaper one.
-/

namespace AliasExpansion

def ValueType.coercionCost (source target : ValueType) : Option Nat :=
  if source = target then some 0
  else
    match source, target with
    | .ident, .path => some 1
    | .ident, .type => some 2
    | .ident, .expr => some 3
    | _, .tokens => some 4
    | _, .raw => some 5
    | _, _ => none

/-- Parameters coerce into each other only if they take equally many arguments. -/
def ParamType.coercionCost : ParamType → ParamType → Option Nat
  | .one source, .one target => source.coercionCost target
  | .many source, .many target => source.coercionCost target
  | _, _ => none

end AliasExpansion
