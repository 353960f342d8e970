-- SUMMARY: Choosing an overload for every call and a type for every value.
import AliasExpansion.Invocation.Basic
import AliasExpansion.Scope
import AliasExpansion.Value.Coercion

/-!
# Resolution

Resolution gives every leaf a target type and every call an overload, from the expected type
downwards. All overloads of a name are tried, each on its own copy of the scope. An attempt costs
the coercion of its result plus the costs of its arguments, which count twice in a variadic
position. The cheapest attempt wins; among equals one without a variadic parameter, then one with
fewer parameters, then the one declared first.
-/

namespace AliasExpansion

-- ---------------------------------------------------------------------------
-- Attempts
-- ---------------------------------------------------------------------------

/-- An overload that fits a call, with the scope that resolving its arguments led to. -/
structure Attempt where
  overload : Overload
  cost : Nat
  scope : Scope

namespace Attempt

/-- Whether `a` is preferred to `b` wherever they were declared. -/
def precedes (a b : Attempt) : Bool :=
  let x := a.overload.signature
  let y := b.overload.signature
  a.cost < b.cost ||
    (a.cost == b.cost &&
      ((!x.isVariadic && y.isVariadic) || (x.isVariadic == y.isVariadic && x.arity < y.arity)))

/-- The preferred attempt; of equally good ones the first, whose overload has the lowest number
    because overloads are listed in the order of their declaration. -/
def best? : List Attempt → Option Attempt
  | [] => none
  | attempt :: rest =>
    match best? rest with
    | some other => some (if other.precedes attempt then other else attempt)
    | none => some attempt

/-- Attempts that fit, in order. An attempt that fails with an ordinary error is left out; any
    other error ends the resolution. -/
def collect (attempt : Overload → Except Error Attempt) :
    List Overload → Except Error (List Attempt)
  | [] => .ok []
  | overload :: rest =>
    match attempt overload with
    | .ok fitting => return fitting :: (← collect attempt rest)
    | .error e =>
      if e.isDiagnostic && !e.isInternal then collect attempt rest else .error e

end Attempt

/-- The parameter type that each of `count` arguments meets, and how often its cost counts. -/
def Signature.slots (signature : Signature) (count : Nat) : List (ValueType × Nat) :=
  signature.fixed.map (·, 1) ++
    signature.variadic.toList.flatMap fun value =>
      List.replicate (count - signature.fixed.length) (value, 2)

-- ---------------------------------------------------------------------------
-- Expressions
-- ---------------------------------------------------------------------------

/-- The cost of coercing, or the error that there is no such coercion. -/
def ValueType.coerce (source target : ValueType) (span : Span) : Except Error Nat :=
  match source.coercionCost target with
  | some cost => .ok cost
  | none => .error (.type (.coercion source target) (some span))

/-- Resolve a leaf: its cost, and the scope with its typing. -/
def Leaf.resolve (leaf : Leaf) (expected : Option ValueType) (scope : Scope) :
    Except Error (Nat × Scope) := do
  let source ← scope.typeOf leaf.value leaf.span
  let target := expected.getD source
  let cost ← source.coerce target leaf.span
  let metadata := scope.metadata.recordLeaf leaf.id { target, cost }
  return (cost, { scope with metadata })

namespace Expr

mutual

/-- Resolve an expression: its cost, and the scope with what was recorded. -/
def resolve (library : Library) :
    Expr → Option ValueType → Scope → Except Error (Nat × Scope)
  | .leaf node, expected, scope => node.resolve expected scope
  | .call id name arguments raw span, expected, scope =>
    let call := Expr.call id name arguments raw span
    let overloads := library.find name
    let refuse (signatures : String) : Except Error (Nat × Scope) := do
      throw (.signature signatures (← call.display.mapError .decode) (some span))
    let attempt (overload : Overload) : Except Error Attempt := do
      let signature := overload.signature
      let resultCost ←
        match expected with
        | some target => signature.output.coerce target span
        | none => pure 0
      let (argumentCost, scope) ←
        if signature.isRaw then do
          let (_, scope) ← raw.resolve (some .raw) scope
          pure (0, scope)
        else if signature.admits arguments.length then
          resolveAll library arguments (signature.slots arguments.length) scope
        else refuse signature.render
      return { overload, cost := resultCost + argumentCost, scope }
    if overloads.isEmpty then .error (.undefinedFunction name (some span))
    else do
      match Attempt.best? (← Attempt.collect attempt overloads) with
      | none => refuse (Library.describe overloads)
      | some best =>
        let target := expected.getD best.overload.signature.output
        let selection := { overload := best.overload, target, cost := best.cost }
        let metadata := best.scope.metadata.recordCall id selection
        return (best.cost, { best.scope with metadata })

/-- Resolve arguments against the types they meet: the sum of their costs, and the scope. -/
def resolveAll (library : Library) :
    List Expr → List (ValueType × Nat) → Scope → Except Error (Nat × Scope)
  | argument :: arguments, (target, weight) :: slots, scope => do
    let (cost, scope) ← resolve library argument (some target) scope
    let (total, scope) ← resolveAll library arguments slots scope
    return (weight * cost + total, scope)
  | _, _, scope => .ok (0, scope)

end

end Expr

-- ---------------------------------------------------------------------------
-- Bindings
-- ---------------------------------------------------------------------------

/-- Resolve the value first, then declare the name. -/
def Binding.resolve (library : Library) (binding : Binding) (scope : Scope) :
    Except Error Scope := do
  let (_, scope) ← binding.expr.resolve library none scope
  scope.declare binding.name binding.expr (some binding.span)

def Scope.resolveAll (library : Library) (scope : Scope) (bindings : List Binding) :
    Except Error Scope :=
  bindings.foldlM (fun scope binding => binding.resolve library scope) scope

end AliasExpansion
