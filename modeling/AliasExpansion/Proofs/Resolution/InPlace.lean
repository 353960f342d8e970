-- SUMMARY: Resolution that changes the scope it is given, and what is left of it when it fails.
import AliasExpansion.Proofs.Resolution.Calls

/-!
# Resolution in place

A caller hands over a scope and finds the results of resolution in it. Here the scope is a state
that keeps every change, also the changes of a computation that fails: arguments that have been
resolved stay on record when a later one is refused. Each overload of a call is therefore tried on a
copy, which is lost when the overload does not fit, and the copy of the winner takes the place of
the scope.

`Expr.outcome_resolveIn` says that this comes to the same as resolution of scopes as values, and
`Expr.restores_resolveIn` that a failure leaves the scope as it was.
-/

namespace AliasExpansion

/-- Computations on a scope that is changed in place, and stays changed after a failure. -/
abbrev InPlace := EStateM Error Scope

-- ---------------------------------------------------------------------------
-- Runs
-- ---------------------------------------------------------------------------

namespace InPlace

variable {α β : Type}

/-- The result of a run and the scope that it leads to. The scope of a failed run is dropped. -/
def outcome (run : InPlace α) (scope : Scope) : Except Error (α × Scope) :=
  match run.run scope with
  | .ok a after => .ok (a, after)
  | .error e _ => .error e

/-- A failure leaves the scope as it was. -/
def Restores (run : InPlace α) : Prop :=
  ∀ scope e after, run.run scope = .error e after → after = scope

theorem outcome_bind (run : InPlace α) (next : α → InPlace β) (scope : Scope) :
    (run >>= next).outcome scope =
      run.outcome scope >>= fun result => (next result.1).outcome result.2 := by
  rw [outcome, outcome, EStateM.run_bind]
  cases run.run scope <;> rfl

theorem run_ofExcept_bind (result : Except Error α) (next : α → InPlace β) (scope : Scope) :
    (MonadExcept.ofExcept result >>= next : InPlace β).run scope =
      match result with
      | .ok a => (next a).run scope
      | .error e => .error e scope := by
  cases result <;> rfl

theorem outcome_ofExcept_bind (result : Except Error α) (next : α → InPlace β) (scope : Scope) :
    (MonadExcept.ofExcept result >>= next : InPlace β).outcome scope =
      result >>= fun a => (next a).outcome scope := by
  rw [outcome, run_ofExcept_bind]
  cases result <;> rfl

theorem outcome_ofExcept (result : Except Error α) (scope : Scope) :
    (MonadExcept.ofExcept result : InPlace α).outcome scope = (·, scope) <$> result := by
  cases result <;> rfl

theorem restores_ofExcept (result : Except Error α) :
    (MonadExcept.ofExcept result : InPlace α).Restores := by
  intro scope e after h
  cases result with
  | ok a => cases h
  | error e' =>
    cases h
    rfl

/-- What has no effect on the scope may come before what restores it. -/
theorem restores_ofExcept_bind (result : Except Error α) {next : α → InPlace β}
    (h : ∀ a, (next a).Restores) : (MonadExcept.ofExcept result >>= next : InPlace β).Restores := by
  intro scope e after failed
  rw [run_ofExcept_bind] at failed
  cases result with
  | ok a => exact h a scope e after failed
  | error e' =>
    cases failed
    rfl

theorem restores_get_bind {next : Scope → InPlace β} (h : ∀ scope, (next scope).Restores) :
    (get >>= next : InPlace β).Restores :=
  fun scope e after failed => h scope scope e after failed

end InPlace

-- ---------------------------------------------------------------------------
-- Leaves
-- ---------------------------------------------------------------------------

open MonadExcept (ofExcept)

namespace Leaf

/-- Resolve a leaf and record its typing. -/
def resolveIn (leaf : Leaf) (expected : Option ValueType) : InPlace Nat := do
  let scope ← get
  let source ← ofExcept (scope.typeOf leaf.value leaf.span)
  let target := expected.getD source
  let cost ← ofExcept (source.coerce target leaf.span)
  modify fun scope =>
    { scope with metadata := scope.metadata.recordLeaf leaf.id { target, cost } }
  return cost

variable (leaf : Leaf) (expected : Option ValueType)

theorem outcome_resolveIn (scope : Scope) :
    (leaf.resolveIn expected).outcome scope = leaf.resolve expected scope := by
  show InPlace.outcome (ofExcept (scope.typeOf leaf.value leaf.span) >>= _) scope = _
  simp only [InPlace.outcome_ofExcept_bind]
  rfl

theorem restores_resolveIn : (leaf.resolveIn expected).Restores := by
  refine InPlace.restores_get_bind fun scope => ?_
  refine InPlace.restores_ofExcept_bind _ fun source => ?_
  refine InPlace.restores_ofExcept_bind _ fun cost => ?_
  intro scope e after failed
  cases failed

end Leaf

-- ---------------------------------------------------------------------------
-- Calls
-- ---------------------------------------------------------------------------

namespace Expr

theorem map_refuse {α β : Type} (f : α → β) (call : Expr) (signatures : String) :
    f <$> (call.refuse signatures : Except Error α) = call.refuse signatures := by
  rw [refuse, refuse]
  cases call.display <;> rfl

/-- Resolve what an overload takes of a call: the cost. The scope may be left with the records of
    the arguments before the one that is refused. -/
def takeIn (arguments : List Expr) (resolveArguments : List (ValueType × Nat) → InPlace Nat)
    (call : Expr) (raw : Leaf) (signature : Signature) : InPlace Nat :=
  if signature.isRaw then do
    let _ ← raw.resolveIn (some .raw)
    return 0
  else if signature.admits arguments.length then
    resolveArguments (signature.slots arguments.length)
  else ofExcept (call.refuse signature.render)

/-- Try an overload for a call: what it costs. -/
def trialIn (arguments : List Expr) (resolveArguments : List (ValueType × Nat) → InPlace Nat)
    (call : Expr) (raw : Leaf) (expected : Option ValueType) (overload : Overload) :
    InPlace Nat := do
  let signature := overload.signature
  let resultCost ←
    match expected with
    | some target => ofExcept (signature.output.coerce target call.span)
    | none => pure 0
  let argumentCost ← takeIn arguments resolveArguments call raw signature
  return resultCost + argumentCost

/-- Try an overload on a copy of the scope, which is lost when the trial fails. -/
def attemptOn (scope : Scope) (trial : Overload → InPlace Nat) (overload : Overload) :
    Except Error Attempt := do
  let (cost, copy) ← (trial overload).outcome scope
  return { overload, cost, scope := copy }

/-- Try every overload on a copy of the scope, and continue with the copy of the best one. -/
def callIn (library : Library) (id : NodeId) (name : String) (arguments : List Expr) (raw : Leaf)
    (span : Span) (resolveArguments : List (ValueType × Nat) → InPlace Nat)
    (expected : Option ValueType) : InPlace Nat := do
  let call := Expr.call id name arguments raw span
  let overloads := library.find name
  if overloads.isEmpty then ofExcept (.error (.undefinedFunction name (some span)))
  else do
    let scope ← get
    let trial := trialIn arguments resolveArguments call raw expected
    match Attempt.best? (← ofExcept (Attempt.collect (attemptOn scope trial) overloads)) with
    | none => ofExcept (call.refuse (Library.describe overloads))
    | some best =>
      set best.scope
      modify fun scope =>
        { scope with metadata := scope.metadata.recordCall id (best.selection expected) }
      return best.cost

mutual

/-- Resolve an expression in place: its cost. -/
def resolveIn (library : Library) : Expr → Option ValueType → InPlace Nat
  | .leaf node, expected => node.resolveIn expected
  | .call id name arguments raw span, expected =>
    callIn library id name arguments raw span (fun slots => resolveAllIn library arguments slots)
      expected

/-- Resolve arguments one after the other in the same scope: the sum of their costs. -/
def resolveAllIn (library : Library) : List Expr → List (ValueType × Nat) → InPlace Nat
  | argument :: arguments, (target, weight) :: slots => do
    let cost ← resolveIn library argument (some target)
    let total ← resolveAllIn library arguments slots
    return weight * cost + total
  | _, _ => return 0

end

section

variable {library : Library} {id : NodeId} {name : String} {arguments : List Expr} {raw : Leaf}
  {span : Span} {resolveArguments : List (ValueType × Nat) → InPlace Nat}

/-- Whatever the scope was like, a call that cannot be resolved leaves it so. -/
theorem restores_callIn (expected : Option ValueType) :
    (callIn library id name arguments raw span resolveArguments expected).Restores := by
  rw [callIn]
  split
  · exact InPlace.restores_ofExcept _
  · refine InPlace.restores_get_bind fun scope => ?_
    refine InPlace.restores_ofExcept_bind _ fun attempts => ?_
    split
    · exact InPlace.restores_ofExcept _
    · intro scope e after failed
      cases failed

theorem trialIn_of_resultCost {call : Expr} {expected : Option ValueType} {overload : Overload}
    {cost : Nat} (hresult : overload.resultCost? expected = some cost) :
    trialIn arguments resolveArguments call raw expected overload = do
      let argumentCost ← takeIn arguments resolveArguments call raw overload.signature
      return cost + argumentCost := by
  cases expected with
  | none =>
    cases hresult
    rfl
  | some target =>
    rw [Overload.resultCost?] at hresult
    simp only [trialIn, ValueType.coerce, hresult]
    rfl

variable (arguments_eq : ∀ slots scope,
  (resolveArguments slots).outcome scope = resolveAll library arguments slots scope)

include arguments_eq

theorem outcome_takeIn (call : Expr) (signature : Signature) (scope : Scope) :
    (takeIn arguments resolveArguments call raw signature).outcome scope =
      if signature.isRaw then do
        let (_, scope) ← raw.resolve (some .raw) scope
        pure (0, scope)
      else if signature.admits arguments.length then
        resolveAll library arguments (signature.slots arguments.length) scope
      else call.refuse signature.render := by
  rw [takeIn]
  split
  · rw [InPlace.outcome_bind, Leaf.outcome_resolveIn]
    rfl
  · split
    · exact arguments_eq _ _
    · rw [InPlace.outcome_ofExcept, map_refuse]

/-- A trial on a copy is an attempt. -/
theorem attemptOn_trialIn (expected : Option ValueType) (scope : Scope) (overload : Overload) :
    attemptOn scope (trialIn arguments resolveArguments (.call id name arguments raw span) raw
        expected) overload =
      attempt library id name arguments raw span expected scope overload := by
  cases hresult : overload.resultCost? expected with
  | none =>
    cases expected with
    | none => cases hresult
    | some target =>
      rw [Overload.resultCost?] at hresult
      simp only [attemptOn, trialIn, attempt, ValueType.coerce, Expr.span, hresult]
      rfl
  | some cost =>
    rw [attemptOn, trialIn_of_resultCost hresult, InPlace.outcome_bind, bind_assoc,
      outcome_takeIn arguments_eq, attempt_of_resultCost hresult]
    by_cases hraw : overload.signature.isRaw = true
    · simp only [if_pos hraw, bind_assoc]
      rfl
    · by_cases admits : overload.signature.admits arguments.length = true
      · simp only [if_neg hraw, if_pos admits]
        rfl
      · simp only [if_neg hraw, if_neg admits]
        rfl

/-- Every overload sees the scope that the call began in, whatever the trials before it have done
    to their copies. -/
theorem outcome_callIn (expected : Option ValueType) (scope : Scope) :
    (callIn library id name arguments raw span resolveArguments expected).outcome scope =
      resolve library (.call id name arguments raw span) expected scope := by
  rw [callIn, resolve_call]
  split
  · rfl
  · show InPlace.outcome (ofExcept (Attempt.collect (attemptOn scope _) _) >>= _) scope = _
    rw [funext (attemptOn_trialIn arguments_eq expected scope), InPlace.outcome_ofExcept_bind]
    refine bind_congr fun attempts => ?_
    cases Attempt.best? attempts with
    | none => exact (InPlace.outcome_ofExcept _ _).trans (map_refuse _ _ _)
    | some best => rfl

end

mutual

theorem outcome_resolveIn (library : Library) : ∀ (expr : Expr) (expected : Option ValueType)
    (scope : Scope),
    (expr.resolveIn library expected).outcome scope = expr.resolve library expected scope
  | .leaf node, expected, scope => by
    rw [resolveIn, resolve]
    exact node.outcome_resolveIn expected scope
  | .call id name arguments raw span, expected, scope => by
    rw [resolveIn]
    exact outcome_callIn (fun slots scope => outcome_resolveAllIn library arguments slots scope)
      expected scope

theorem outcome_resolveAllIn (library : Library) : ∀ (arguments : List Expr)
    (slots : List (ValueType × Nat)) (scope : Scope),
    (resolveAllIn library arguments slots).outcome scope = resolveAll library arguments slots scope
  | argument :: arguments, (target, weight) :: slots, scope => by
    rw [resolveAllIn, resolveAll, InPlace.outcome_bind, outcome_resolveIn]
    refine bind_congr fun first => ?_
    rw [InPlace.outcome_bind, outcome_resolveAllIn]
    rfl
  | [], slots, scope => by
    rw [resolveAllIn, resolveAll]
    · rfl
    · nofun
    · nofun
  | argument :: arguments, [], scope => by
    rw [resolveAllIn, resolveAll]
    · rfl
    · nofun
    · nofun

end

/-- An expression that cannot be resolved leaves the scope as it was. -/
theorem restores_resolveIn (library : Library) (expr : Expr) (expected : Option ValueType) :
    (expr.resolveIn library expected).Restores := by
  cases expr with
  | leaf node =>
    rw [resolveIn]
    exact node.restores_resolveIn expected
  | call id name arguments raw span =>
    rw [resolveIn]
    exact restores_callIn expected

end Expr

end AliasExpansion
