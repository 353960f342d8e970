-- SUMMARY: Evaluation fails with diagnostics, apart from known failures to decode.
import AliasExpansion.Proofs.Evaluation.Soundness
import AliasExpansion.Proofs.Failures.Functions
import AliasExpansion.Proofs.Failures.Resolution

/-!
# Failures of evaluation

When the values of an expression and of the aliases are accounted for, so is the value that the
expression evaluates to, if it is known what the numerals that `concat` joins may come to. The
overloads on record are applied to arguments of their parameter types, as type soundness has it.
-/

namespace AliasExpansion

open Assignment

variable {known : DecodeError → Prop} {key : String}

theorem Value.Accounted.castResolved {value : Value} (h : value.Accounted known)
    (target : ValueType) (span : Span) :
    Traced known (Value.Accounted known) (value.castResolved target span) := by
  have hcast := h.cast target
  unfold Value.castResolved
  split
  · exact (Traced.of_decode fun _ => h.display_error).bind fun _ _ _ => .error rfl
  · exact hcast

/-- The values of all aliases are accounted for. -/
def Environment.Accounted (known : DecodeError → Prop) (environment : Environment) : Prop :=
  ∀ name value, environment.find? name = some value → value.Accounted known

theorem Environment.accounted_empty : Environment.Accounted known .empty := nofun

theorem Environment.Accounted.insert {environment : Environment} (h : environment.Accounted known)
    (name : String) {value : Value} (hvalue : value.Accounted known) :
    Environment.Accounted known (Table.insert environment name value) := by
  intro other found hfound
  by_cases hname : name = other
  · subst hname
    rw [Table.find?_insert_self] at hfound
    cases hfound
    exact hvalue
  · rw [Table.find?_insert_of_ne _ _ hname] at hfound
    exact h other found hfound

theorem Environment.Accounted.deref {environment : Environment} (h : environment.Accounted known)
    {value : Value} (hvalue : value.Accounted known) :
    (environment.deref value).Accounted known := by
  rw [Environment.deref]
  split
  · next name hname =>
    cases hfind : environment.find? name with
    | none => exact hvalue
    | some found => exact h name found hfind
  · exact hvalue

section

variable {library : Library} {source : Value → ValueType} {metadata : Metadata}
  {environment : Environment}

theorem Leaf.traced_evaluate (henvironment : environment.Accounted known) {node : Leaf}
    (h : node.value.Accounted known) :
    Traced known (Value.Accounted known) (node.evaluate metadata environment) := by
  unfold Leaf.evaluate
  split
  · exact (henvironment.deref h).castResolved _ _
  · exact (Traced.of_decode fun _ => h.display_error).bind fun _ _ _ => .error rfl

theorem Library.Accounted.overload (h : library.Accounted known key) {name : String}
    {overload : Overload} (mem : overload ∈ library.find name)
    (joins : name = "concat" → Joins known) : overload.Accounted known key := by
  obtain ⟨mem, named⟩ := List.mem_filter.mp mem
  exact h overload mem fun eq => joins ((beq_iff_eq.mp named).symm.trans eq)

/-- What an overload is applied to: some accounted values of its parameter types. -/
def ArgumentsFor (known : DecodeError → Prop) (overload : Overload) (values : List Value) : Prop :=
  values ≠ [] ∧ values.map Value.type = overload.signature.parameterTypes values.length ∧
    ∀ value ∈ values, value.Accounted known

theorem argumentsFor_of_takes {overload : Overload} (hsound : overload.Sound) {count : Nat}
    (htakes : overload.signature.Takes count) {values : List Value}
    (htypes : values.map Value.type = overload.signature.parameterTypes count)
    (h : ∀ value ∈ values, value.Accounted known) : ArgumentsFor known overload values := by
  have hlength : values.length = count := by
    have hmap := congrArg List.length htypes
    rwa [List.length_map, Signature.length_parameterTypes _ htakes] at hmap
  subst hlength
  refine ⟨?_, htypes, h⟩
  rintro rfl
  exact hsound.not_takes_zero htakes

/-- A call is traced if its arguments are. -/
theorem traced_call {id : NodeId} {name : String} {arguments : List Expr} {raw : Leaf} {span : Span}
    {selection : Selection} (haccounted : selection.overload.Accounted known key)
    (hrecorded : metadata.calls.find? id = some selection)
    (hvalues : Traced known (ArgumentsFor known selection.overload)
      (if selection.isRaw then do return [← raw.evaluate metadata environment]
        else Expr.evaluateAll key metadata environment arguments)) :
    Traced known (Value.Accounted known)
      (Expr.evaluate key metadata environment (.call id name arguments raw span)) := by
  have hcompute {values : List Value} (h : ArgumentsFor known selection.overload values) :
      Traced known (Value.Accounted known) (do
        let result ← selection.overload.compute key (some span) values
        result.castResolved selection.target span) :=
    (haccounted (some span) values h.1 h.2.1 h.2.2).bind fun result _ hresult =>
      hresult.castResolved _ _
  rw [Expr.evaluate]
  simp only [hrecorded]
  split at hvalues
  · next hraw =>
    rw [if_pos hraw]
    have htraced := hvalues.bind fun values _ h => hcompute h
    simpa only [bind_assoc] using htraced
  · next hraw =>
    rw [if_neg hraw]
    exact hvalues.bind fun values _ h => hcompute h

mutual

theorem traced_evaluate (hsound : library.Sound) (haccounted : library.Accounted known key)
    (htypes : environment.Types source) (henvironment : environment.Accounted known) :
    ∀ (expr : Expr) {expected : Option ValueType} {assignment : Assignment},
      Fits library source expr expected assignment → Recorded metadata expr assignment →
      expr.Accounted known → (expr.Calls "concat" → Joins known) →
      Traced known (Value.Accounted known) (expr.evaluate key metadata environment)
  | .leaf node, _, _, _, _, h, _ => by
    rw [Expr.Accounted] at h
    rw [Expr.evaluate]
    exact Leaf.traced_evaluate henvironment h
  | .call _ _ _ raw _, _, _, .raw hmem hraw _, hrecorded, h, joins => by
    rw [Expr.Accounted] at h
    rw [Expr.Calls] at joins
    obtain ⟨hcall, rawCost, hrest⟩ := hrecorded.of_raw hraw
    have hoverload := hsound.overload hmem
    obtain ⟨htakes, hparameters⟩ := Signature.takes_one_of_isRaw hraw
    refine traced_call (haccounted.overload hmem fun eq => joins (.inl eq)) hcall ?_
    rw [if_pos (by simp [Selection.isRaw, hraw])]
    have hyields := yieldsAll_raw htypes hrest
    refine (Leaf.traced_evaluate henvironment h.2).bind fun value hvalue hgood => ?_
    rw [hvalue] at hyields
    exact argumentsFor_of_takes hoverload htakes (by rw [hparameters]; exact hyields)
      (List.forall_mem_singleton.mpr hgood)
  | .call _ _ arguments _ _, _, _, .call hmem hraw _ htakes hchildren, hrecorded, h, joins => by
    rw [Expr.Accounted] at h
    rw [Expr.Calls] at joins
    obtain ⟨hcall, hrest⟩ := hrecorded.of_plain hraw
    have hoverload := hsound.overload hmem
    refine traced_call (haccounted.overload hmem fun eq => joins (.inl eq)) hcall ?_
    rw [if_neg (by simp [Selection.isRaw, hraw])]
    have hyields := yieldsAll_evaluateAll hsound htypes key arguments hchildren hrest
      (hoverload.plain_parameterTypes _)
    have htraced := traced_evaluateAll hsound haccounted htypes henvironment arguments hchildren
      hrest h.1 fun calls => joins (.inr calls)
    cases hvalues : Expr.evaluateAll key metadata environment arguments with
    | error e => exact htraced.cases_error hvalues
    | ok values =>
      rw [hvalues] at hyields htraced
      exact argumentsFor_of_takes hoverload htakes hyields htraced

theorem traced_evaluateAll (hsound : library.Sound) (haccounted : library.Accounted known key)
    (htypes : environment.Types source) (henvironment : environment.Accounted known) :
    ∀ (arguments : List Expr) {slots : List ValueType} {children : List Assignment},
      FitsAll library source arguments slots children → RecordedAll metadata arguments children →
      Expr.AccountedAll known arguments → (Expr.CallsAny "concat" arguments → Joins known) →
      Traced known (fun values => ∀ value ∈ values, value.Accounted known)
        (Expr.evaluateAll key metadata environment arguments)
  | [], _, _, .nil, _, _, _ => by
    rw [Expr.evaluateAll]
    exact (nofun : ∀ value ∈ [], Value.Accounted known value)
  | argument :: arguments, _, _, .cons hchild hchildren, hrecorded, h, joins => by
    rw [RecordedAll] at hrecorded
    rw [Expr.AccountedAll] at h
    rw [Expr.CallsAny] at joins
    rw [Expr.evaluateAll]
    refine (traced_evaluate hsound haccounted htypes henvironment argument hchild hrecorded.1
      h.1 fun calls => joins (.inl calls)).bind fun value _ hvalue => ?_
    refine (traced_evaluateAll hsound haccounted htypes henvironment arguments hchildren
      hrecorded.2 h.2 fun calls => joins (.inr calls)).bind fun values _ hvalues => ?_
    exact List.forall_mem_cons.mpr ⟨hvalue, hvalues⟩

end

-- ---------------------------------------------------------------------------
-- Bindings
-- ---------------------------------------------------------------------------

theorem Binding.traced_evaluate {binding : Binding} (henvironment : environment.Accounted known)
    (h : Traced known (Value.Accounted known)
      (binding.expr.evaluate key metadata environment)) :
    Traced known (Environment.Accounted known)
      (binding.evaluate key metadata environment) := by
  refine h.bind fun value _ hvalue => ?_
  split
  · split
    · exact henvironment.insert _ hvalue
    · exact .error rfl
  · exact henvironment.insert _ hvalue

/-- The values of aliases stay accounted for while bindings are evaluated, by the same induction
    that keeps them of the types on record. -/
theorem Environment.traced_ofResolved (hsound : library.Sound)
    (haccounted : library.Accounted known key) {bindings : List Binding} {scope after : Scope}
    {later : List NodeId} (hready : scope.Ready (Binding.idsAll bindings ++ later))
    (hnodup : (Binding.idsAll bindings ++ later).Nodup) (hfollows : environment.Follows scope)
    (hresolve : scope.resolveAll library bindings = .ok after)
    (hlater : after.metadata.SameOutside later metadata)
    (henvironment : environment.Accounted known)
    (h : ∀ binding ∈ bindings,
      binding.expr.Accounted known ∧ (binding.expr.Calls "concat" → Joins known)) :
    Traced known (Environment.Accounted known) (bindings.foldlM (fun environment binding =>
      binding.evaluate key metadata environment) environment) := by
  induction bindings generalizing scope environment with
  | nil => exact henvironment
  | cons binding rest ih =>
    obtain ⟨middle, hbinding, hrest⟩ := Outcome.bind_eq_ok.mp hresolve
    rw [Binding.idsAll, List.flatMap_cons, List.append_assoc] at hready hnodup
    obtain ⟨assignment, hresolved⟩ :=
      Binding.resolved_of_resolve hready (List.nodup_append'.mp hnodup).1 hbinding
    have hmiddle := hresolved.ready hready hnodup
    have hdisjoint := (List.nodup_append'.mp hnodup).2
    have hsame := ((Scope.ready_of_resolveAll hmiddle hdisjoint.1 hrest).2.mono
      (List.subset_append_left _ _)).trans (hlater.mono (List.subset_append_right _ _))
    have hrecorded := hresolved.recorded.of_sameOutside hsame hdisjoint.2
    obtain ⟨haccountedExpr, joins⟩ := h binding List.mem_cons_self
    rw [List.foldlM_cons]
    refine (Binding.traced_evaluate henvironment (AliasExpansion.traced_evaluate hsound haccounted
      hfollows.types henvironment binding.expr hresolved.best.fits hrecorded
      haccountedExpr joins)).bind fun next hnext hgood => ?_
    have hstep := Binding.evaluate_sound key hsound hresolved hnodup hfollows
      (hready.hosts.mono (List.subset_append_left _ _)) hsame
    exact ih hmiddle hdisjoint.1 (hstep.2 next hnext) hrest hgood
      fun binding mem => h binding (List.mem_cons_of_mem _ mem)

end

end AliasExpansion
