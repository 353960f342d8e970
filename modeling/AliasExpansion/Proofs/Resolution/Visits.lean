-- SUMMARY: The leaves that resolution looks at, and the scopes it looks at them in.
import AliasExpansion.Proofs.Resolution.Optimal

/-!
# Visited leaves

Resolution tries overloads on copies of the scope, so a leaf may be looked at several times, each
time in a scope that holds the records of the arguments before it. Whatever the copy, the types of
aliases are those of the scope that the resolution began in.
-/

namespace AliasExpansion

mutual

/-- Resolving the expression in `scope` looks at `leaf` in the scope `reached`, be it in an attempt
    that is given up later. -/
inductive Expr.Visits (library : Library) :
    Expr → Option ValueType → (scope : Scope) → (leaf : Leaf) → (reached : Scope) → Prop
  | leaf {node : Leaf} {expected : Option ValueType} {scope : Scope} :
      Visits library (.leaf node) expected scope node scope
  | raw {id : NodeId} {name : String} {arguments : List Expr} {raw : Leaf} {span : Span}
      {expected : Option ValueType} {scope : Scope} {overload : Overload} {cost : Nat}
      (hmem : overload ∈ library.find name) (hraw : overload.signature.isRaw = true)
      (hresult : overload.resultCost? expected = some cost) :
      Visits library (.call id name arguments raw span) expected scope raw scope
  | argument {id : NodeId} {name : String} {arguments : List Expr} {raw : Leaf} {span : Span}
      {expected : Option ValueType} {scope reached : Scope} {leaf : Leaf} {overload : Overload}
      {cost : Nat} (hmem : overload ∈ library.find name) (hraw : overload.signature.isRaw = false)
      (hresult : overload.resultCost? expected = some cost)
      (htakes : overload.signature.Takes arguments.length)
      (harguments : VisitsAll library arguments (overload.signature.slots arguments.length) scope
        leaf reached) :
      Visits library (.call id name arguments raw span) expected scope leaf reached

/-- The same for arguments, of which each is resolved in the scope that the ones before it led
    to. -/
inductive Expr.VisitsAll (library : Library) :
    List Expr → List (ValueType × Nat) → (scope : Scope) → (leaf : Leaf) → (reached : Scope) → Prop
  | head {argument : Expr} {arguments : List Expr} {slot : ValueType × Nat}
      {slots : List (ValueType × Nat)} {scope reached : Scope} {leaf : Leaf}
      (hargument : Visits library argument (some slot.1) scope leaf reached) :
      VisitsAll library (argument :: arguments) (slot :: slots) scope leaf reached
  | tail {argument : Expr} {arguments : List Expr} {slot : ValueType × Nat}
      {slots : List (ValueType × Nat)} {scope middle reached : Scope} {leaf : Leaf} {cost : Nat}
      (hresolve : argument.resolve library (some slot.1) scope = .ok (cost, middle))
      (harguments : VisitsAll library arguments slots middle leaf reached) :
      VisitsAll library (argument :: arguments) (slot :: slots) scope leaf reached

end

/-- A resolution that succeeds records results for the nodes of the expression only. -/
theorem Expr.sameOutside_of_resolve {library : Library} {expr : Expr} {expected : Option ValueType}
    {scope after : Scope} {cost : Nat} (hosts : scope.Hosts expr.ids) (hnodup : expr.ids.Nodup)
    (h : expr.resolve library expected scope = .ok (cost, after)) :
    scope.SameOutside expr.ids after := by
  have hsettled := resolve_settled library expr expected scope hosts hnodup
  rw [h] at hsettled
  exact hsettled.1

mutual

/-- Wherever a leaf is looked at, aliases have the types they had at the start. -/
theorem Expr.Visits.sameOutside {library : Library} :
    ∀ {expr : Expr} {expected : Option ValueType} {scope reached : Scope} {leaf : Leaf},
      expr.Visits library expected scope leaf reached → scope.Hosts expr.ids → expr.ids.Nodup →
        scope.SameOutside expr.ids reached
  | .leaf _, _, _, _, _, h, _, _ => by
    cases h
    exact .refl _ _
  | .call id name arguments raw span, _, _, _, _, h, hosts, hnodup => by
    cases h with
    | raw _ _ _ => exact .refl _ _
    | argument _ _ _ _ harguments =>
      rw [Expr.ids] at hosts hnodup ⊢
      have hsub : Expr.idsAll arguments ⊆ id :: raw.id :: Expr.idsAll arguments := by simp
      exact (harguments.sameOutside (hosts.mono hsub) hnodup.of_cons.of_cons).mono hsub

theorem Expr.VisitsAll.sameOutside {library : Library} :
    ∀ {arguments : List Expr} {slots : List (ValueType × Nat)} {scope reached : Scope}
      {leaf : Leaf}, Expr.VisitsAll library arguments slots scope leaf reached →
        scope.Hosts (Expr.idsAll arguments) → (Expr.idsAll arguments).Nodup →
          scope.SameOutside (Expr.idsAll arguments) reached
  | [], _, _, _, _, h, _, _ => by cases h
  | argument :: arguments, _, scope, reached, _, h, hosts, hnodup => by
    rw [Expr.idsAll] at hosts hnodup ⊢
    obtain ⟨hargument, harguments, -⟩ := List.nodup_append'.1 hnodup
    have hleft := List.subset_append_left argument.ids (Expr.idsAll arguments)
    have hright := List.subset_append_right argument.ids (Expr.idsAll arguments)
    cases h with
    | head hvisits => exact (hvisits.sameOutside (hosts.mono hleft) hargument).mono hleft
    | tail hresolve hvisits =>
      have hmiddle := (sameOutside_of_resolve (hosts.mono hleft) hargument hresolve).mono hleft
      have hrest := (hosts.of_sameOutside hmiddle).mono hright
      exact hmiddle.trans ((hvisits.sameOutside hrest harguments).mono hright)

end

end AliasExpansion
