-- SUMMARY: Resolution fails with diagnostics, apart from known failures to decode.
import AliasExpansion.Proofs.Evaluation.Yields
import AliasExpansion.Proofs.Failures.Values
import AliasExpansion.Proofs.Resolution.Bindings

/-!
# Failures of resolution

Resolution decodes a literal only to show the text of a call in a message. So what it fails with,
when the values of an expression are accounted for, is a diagnostic or a known failure to decode. In
a scope that is ready for the bindings it is no internal error.
-/

namespace AliasExpansion

variable {known : DecodeError → Prop}

-- ---------------------------------------------------------------------------
-- Expressions
-- ---------------------------------------------------------------------------

namespace Expr

mutual

/-- All values in the expression are accounted for. -/
def Accounted (known : DecodeError → Prop) : Expr → Prop
  | .leaf node => node.value.Accounted known
  | .call _ _ arguments raw _ => AccountedAll known arguments ∧ raw.value.Accounted known

def AccountedAll (known : DecodeError → Prop) : List Expr → Prop
  | [] => True
  | argument :: rest => argument.Accounted known ∧ AccountedAll known rest

end

theorem accountedAll_iff {arguments : List Expr} :
    AccountedAll known arguments ↔ ∀ argument ∈ arguments, argument.Accounted known := by
  induction arguments with
  | nil => simp [AccountedAll]
  | cons argument rest ih => simp [AccountedAll, ih]

mutual

/-- The function is called in the expression. -/
def Calls (function : String) : Expr → Prop
  | .leaf _ => False
  | .call _ name arguments _ _ => name = function ∨ CallsAny function arguments

def CallsAny (function : String) : List Expr → Prop
  | [] => False
  | argument :: rest => argument.Calls function ∨ CallsAny function rest

end

mutual

/-- The text of an expression fails to decode for known reasons only. -/
theorem Accounted.display_error : ∀ {expr : Expr} {error : DecodeError}, expr.Accounted known →
    expr.display = .error error → known error
  | .leaf node, error, h, hfails => by
    rw [Accounted] at h
    rw [display] at hfails
    exact Value.Accounted.display_error h hfails
  | .call _ _ [] raw _, error, h, hfails => by
    rw [display] at hfails
    cases hfails
  | .call _ _ (first :: rest) raw _, error, h, hfails => by
    rw [Accounted, AccountedAll] at h
    rw [display] at hfails
    rcases Outcome.bind_eq_error.mp hfails with hfails | ⟨text, -, hfails⟩
    · exact Accounted.display_error h.1.1 hfails
    · rcases Outcome.bind_eq_error.mp hfails with hfails | ⟨text, -, hfails⟩
      · exact AccountedAll.displayRest_error h.1.2 hfails
      · cases hfails

theorem AccountedAll.displayRest_error : ∀ {arguments : List Expr} {error : DecodeError},
    AccountedAll known arguments → displayRest arguments = .error error → known error
  | [], error, h, hfails => by
    rw [displayRest] at hfails
    cases hfails
  | argument :: rest, error, h, hfails => by
    rw [AccountedAll] at h
    rw [displayRest] at hfails
    rcases Outcome.bind_eq_error.mp hfails with hfails | ⟨text, -, hfails⟩
    · exact Accounted.display_error h.1 hfails
    · rcases Outcome.bind_eq_error.mp hfails with hfails | ⟨text, -, hfails⟩
      · exact AccountedAll.displayRest_error h.2 hfails
      · cases hfails

end

end Expr

-- ---------------------------------------------------------------------------
-- Resolving expressions
-- ---------------------------------------------------------------------------

/-- Nothing is claimed about the result. -/
def TracedAny {α : Type} (known : DecodeError → Prop) (result : Except Error α) : Prop :=
  Traced known (fun _ => True) result

theorem Traced.any {α : Type} {good : α → Prop} {result : Except Error α}
    (h : Traced known good result) : TracedAny known result :=
  h.imp fun _ _ => trivial

theorem ValueType.traced_coerce (source target : ValueType) (span : Span) :
    TracedAny known (source.coerce target span) := by
  rw [coerce]
  split
  · exact trivial
  · exact .error rfl

theorem Scope.traced_typeOf (scope : Scope) (value : Value) (span : Span) :
    TracedAny known (scope.typeOf value span) := by
  rw [typeOf]
  split
  · exact trivial
  · split
    · exact trivial
    · split
      · exact trivial
      · exact .error rfl

theorem Leaf.traced_resolve (node : Leaf) (expected : Option ValueType) (scope : Scope) :
    TracedAny known (node.resolve expected scope) :=
  (scope.traced_typeOf _ _).bind fun _ _ _ =>
    (ValueType.traced_coerce _ _ _).bind fun _ _ _ => trivial

namespace Expr

theorem traced_refuse {α : Type} {call : Expr} (h : call.Accounted known) (signatures : String) :
    TracedAny known (call.refuse signatures : Except Error α) :=
  (Traced.of_decode fun _ => h.display_error).bind fun _ _ _ => .error rfl

variable {library : Library}

/-- An attempt is traced if resolving the arguments is. -/
theorem traced_attempt {id : NodeId} {name : String} {arguments : List Expr} {raw : Leaf}
    {span : Span} (h : (Expr.call id name arguments raw span).Accounted known)
    (harguments : ∀ slots scope, TracedAny known (resolveAll library arguments slots scope))
    (expected : Option ValueType) (scope : Scope) (overload : Overload) :
    TracedAny known (attempt library id name arguments raw span expected scope overload) := by
  have hdone (cost : Nat) {result : Except Error (Nat × Scope)} (h : TracedAny known result) :
      TracedAny known (do
        let done ← result
        return { overload, cost := cost + done.1, scope := done.2 : Attempt }) :=
    h.bind fun _ _ _ => trivial
  have hrest (cost : Nat) : TracedAny known (do
      let done ←
        if overload.signature.isRaw then do
          let resolved ← raw.resolve (some .raw) scope
          pure (0, resolved.2)
        else if overload.signature.admits arguments.length then
          resolveAll library arguments (overload.signature.slots arguments.length) scope
        else refuse (.call id name arguments raw span) overload.signature.render
      return { overload, cost := cost + done.1, scope := done.2 : Attempt }) := by
    split
    · exact (raw.traced_resolve _ _).bind fun _ _ _ => trivial
    · split
      · exact hdone cost (harguments _ _)
      · exact hdone cost (traced_refuse h _)
  unfold attempt
  cases expected with
  | none => exact hrest 0
  | some target => exact (ValueType.traced_coerce _ _ _).bind fun cost _ _ => hrest cost

mutual

theorem traced_resolve : ∀ {expr : Expr}, expr.Accounted known →
    ∀ expected scope, TracedAny known (resolve library expr expected scope)
  | .leaf node, _, expected, scope => by
    rw [resolve]
    exact node.traced_resolve expected scope
  | .call id name arguments raw span, h, expected, scope => by
    have hall : AccountedAll known arguments := by
      rw [Accounted] at h
      exact h.1
    have hattempt := traced_attempt h (fun slots scope => traced_resolveAll hall slots scope)
      expected scope
    rw [resolve_call]
    split
    · exact .error rfl
    · cases hcollect : Attempt.collect
          (attempt library id name arguments raw span expected scope) (library.find name) with
      | error e =>
        obtain ⟨-, overload, -, hfails⟩ := Attempt.collect_eq_error hcollect
        exact (hattempt overload).cases_error hfails
      | ok attempts =>
        dsimp only [Outcome.ok_bind]
        split
        · exact traced_refuse h _
        · exact trivial

theorem traced_resolveAll : ∀ {arguments : List Expr}, AccountedAll known arguments →
    ∀ slots scope, TracedAny known (resolveAll library arguments slots scope)
  | [], _, slots, scope => by
    rw [resolveAll]
    · exact trivial
    · nofun
  | _ :: _, _, [], scope => by
    rw [resolveAll]
    · exact trivial
    · nofun
  | argument :: rest, h, (target, weight) :: slots, scope => by
    rw [AccountedAll] at h
    rw [resolveAll]
    refine (traced_resolve h.1 _ _).bind fun _ _ _ => ?_
    exact (traced_resolveAll h.2 _ _).bind fun _ _ _ => trivial

end

end Expr

-- ---------------------------------------------------------------------------
-- Resolving bindings
-- ---------------------------------------------------------------------------

theorem Scope.traced_declare (scope : Scope) (name : String) (expr : Expr) (span : Option Span) :
    TracedAny known (scope.declare name expr span) := by
  rw [declare]
  split
  · exact .error rfl
  · exact trivial

theorem Scope.traced_resolveAll {library : Library} {bindings : List Binding}
    (h : ∀ binding ∈ bindings, binding.expr.Accounted known) (scope : Scope) :
    TracedAny known (scope.resolveAll library bindings) := by
  induction bindings generalizing scope with
  | nil => exact trivial
  | cons binding rest ih =>
    have hbinding : TracedAny known (binding.resolve library scope) :=
      (Expr.traced_resolve (h binding List.mem_cons_self) none scope).bind fun _ _ _ =>
        Scope.traced_declare _ _ _ _
    exact hbinding.bind fun scope _ _ =>
      ih (fun binding mem => h binding (List.mem_cons_of_mem _ mem)) scope

theorem Scope.ordinary_declare (scope : Scope) (name : String) (expr : Expr)
    (span : Option Span) : Ordinary (scope.declare name expr span) := by
  rw [declare]
  split
  · exact .error rfl
  · exact .ok _

/-- In a ready scope every alias has a type, so that resolution meets no internal error. -/
theorem Binding.ordinary_resolve (library : Library) {binding : Binding} {scope : Scope}
    (hosts : scope.Hosts binding.ids) (hnodup : binding.ids.Nodup) :
    Ordinary (binding.resolve library scope) := by
  have hsettled := AliasExpansion.resolve_settled library binding.expr none scope hosts hnodup
  have hexpr : Ordinary (binding.expr.resolve library none scope) := by
    intro e hfails
    rw [hfails] at hsettled
    obtain ⟨hrefusal, -⟩ | ⟨⟨d, rfl⟩, -⟩ := hsettled
    · rw [Error.isRefusal, Bool.and_eq_true, Bool.not_eq_true'] at hrefusal
      exact hrefusal.2
    · rfl
  exact hexpr.bind fun _ _ => Scope.ordinary_declare _ _ _ _

theorem Scope.ordinary_resolveAll {library : Library} {bindings : List Binding} {scope : Scope}
    (hready : scope.Ready (Binding.idsAll bindings)) (hnodup : (Binding.idsAll bindings).Nodup) :
    Ordinary (scope.resolveAll library bindings) := by
  induction bindings generalizing scope with
  | nil => exact .ok _
  | cons binding rest ih =>
    rw [Binding.idsAll, List.flatMap_cons] at hready hnodup
    have hbinding := (List.nodup_append'.mp hnodup).1
    refine (Binding.ordinary_resolve library
      (hready.hosts.mono (List.subset_append_left _ _)) hbinding).bind fun middle hmiddle => ?_
    obtain ⟨assignment, hresolved⟩ := Binding.resolved_of_resolve hready hbinding hmiddle
    exact ih (hresolved.ready hready hnodup) (List.nodup_append'.mp hnodup).2.1

end AliasExpansion
