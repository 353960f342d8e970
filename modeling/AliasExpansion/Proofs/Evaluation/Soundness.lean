-- SUMMARY: Types that were resolved are the types of the values that are computed.
import AliasExpansion.Expansion
import AliasExpansion.Proofs.Evaluation.Typed
import AliasExpansion.Proofs.Resolution.Bindings
import AliasExpansion.Proofs.Resolution.Visits

/-!
# Type soundness

Resolution and evaluation each go through the bindings once, with tables of their own for the
aliases. The tables stay in step: the same names are in both, and the value of a name has the type
that its expression was resolved to. Hence no evaluation ends in an internal error.
-/

namespace AliasExpansion

open Assignment

/-- The type on record for a node, where evaluation looks for it. -/
def Metadata.typeOf? (metadata : Metadata) : Expr → Option ValueType
  | .leaf node => (metadata.leaves.find? node.id).map Typing.target
  | .call id .. => (metadata.calls.find? id).map Selection.target

-- ---------------------------------------------------------------------------
-- Single expressions
-- ---------------------------------------------------------------------------

theorem Value.type_castResolved {value result : Value} {target : ValueType} {span : Span}
    (h : value.castResolved target span = .ok result) : result.type = target := by
  have hyields := value.yields_cast target
  unfold castResolved at h
  split at h
  · obtain ⟨text, -, h⟩ := Outcome.bind_eq_ok.1 h
    cases h
  · rw [h] at hyields
    exact hyields

/-- Whatever evaluates to a value has the type of the value on record. -/
theorem Expr.typeOf?_of_evaluate {key : String} {metadata : Metadata} {environment : Environment}
    {expr : Expr} {value : Value} (h : expr.evaluate key metadata environment = .ok value) :
    metadata.typeOf? expr = some value.type := by
  cases expr with
  | leaf node =>
    rw [evaluate, Leaf.evaluate] at h
    rw [Metadata.typeOf?]
    cases htyping : metadata.leaves.find? node.id with
    | none =>
      simp only [htyping] at h
      obtain ⟨text, -, h⟩ := Outcome.bind_eq_ok.1 h
      cases h
    | some typing =>
      simp only [htyping] at h
      rw [Value.type_castResolved h]
      rfl
  | call id name arguments raw span =>
    rw [evaluate] at h
    rw [Metadata.typeOf?]
    cases hselection : metadata.calls.find? id with
    | none =>
      simp only [hselection] at h
      obtain ⟨text, -, h⟩ := Outcome.bind_eq_ok.1 h
      cases h
    | some selection =>
      simp only [hselection] at h
      have htype {values : Except Error (List Value)} (h : (do
          let result ← selection.overload.compute key (some span) (← values)
          result.castResolved selection.target span) = .ok value) :
          value.type = selection.target := by
        obtain ⟨_, -, h⟩ := Outcome.bind_eq_ok.1 h
        obtain ⟨_, -, h⟩ := Outcome.bind_eq_ok.1 h
        exact Value.type_castResolved h
      split at h
      · rw [← bind_assoc] at h
        rw [htype h]
        rfl
      · rw [htype h]
        rfl

-- ---------------------------------------------------------------------------
-- Aliases and their values
-- ---------------------------------------------------------------------------

/-- The environment holds a value for every alias of the scope and for nothing else, and the value
    has the type that the alias was resolved to. -/
def Environment.Follows (environment : Environment) (scope : Scope) : Prop :=
  ∀ name, (scope.aliases.find? name = none ∧ environment.find? name = none) ∨
    ∃ expr value, scope.aliases.find? name = some expr ∧ environment.find? name = some value ∧
      scope.metadata.target? expr.id = some value.type

theorem Environment.follows_empty : Environment.Follows .empty .empty :=
  fun _ => .inl ⟨rfl, rfl⟩

theorem Environment.Follows.types {environment : Environment} {scope : Scope}
    (h : environment.Follows scope) : environment.Types scope.sourceType := by
  intro value
  rw [deref, Scope.sourceType]
  cases value.name? with
  | none => rfl
  | some name =>
    obtain ⟨halias, hvalue⟩ | ⟨expr, other, halias, hvalue, htarget⟩ := h name
    · simp [halias, hvalue]
    · simp [halias, hvalue, htarget]

-- ---------------------------------------------------------------------------
-- Bindings
-- ---------------------------------------------------------------------------

section

variable {library : Library} {key : String} {metadata : Metadata} {environment : Environment}

theorem Binding.evaluate_eq_ok {binding : Binding} {after : Environment}
    (h : binding.evaluate key metadata environment = .ok after) :
    ∃ value, binding.expr.evaluate key metadata environment = .ok value ∧
      after = environment.insert binding.name value := by
  obtain ⟨value, hvalue, h⟩ := Outcome.bind_eq_ok.1 h
  refine ⟨value, hvalue, ?_⟩
  split at h
  · split at h
    · cases h
      rfl
    · cases h
  · cases h
    rfl

theorem Binding.ordinary_evaluate {binding : Binding}
    (h : Ordinary (binding.expr.evaluate key metadata environment)) :
    Ordinary (binding.evaluate key metadata environment) := by
  refine h.bind fun value _ => ?_
  split
  · split
    · exact .ok _
    · exact .error rfl
  · exact .ok _

/-- A binding is evaluated with what its resolution put on record, whatever was recorded for other
    nodes later. -/
theorem Binding.evaluate_sound (key : String) (hsound : library.Sound) {binding : Binding}
    {scope after : Scope} {later : List NodeId} {assignment : Assignment}
    (hresolved : binding.Resolved library scope after assignment)
    (hnodup : (binding.ids ++ later).Nodup) (hfollows : environment.Follows scope)
    (haliases : scope.Hosts binding.ids) (hlater : after.metadata.SameOutside later metadata) :
    Ordinary (binding.evaluate key metadata environment) ∧
      ∀ result, binding.evaluate key metadata environment = .ok result → result.Follows after := by
  have hrecorded := hresolved.recorded.of_sameOutside hlater (List.nodup_append'.1 hnodup).2.2
  have hyields := yields_evaluate hsound hfollows.types key binding.expr hresolved.best.fits
    hrecorded nofun
  refine ⟨Binding.ordinary_evaluate hyields.ordinary, fun result hresult name => ?_⟩
  obtain ⟨value, hvalue, rfl⟩ := Binding.evaluate_eq_ok hresult
  rw [hresolved.aliases]
  by_cases hname : binding.name = name
  · subst hname
    rw [hvalue] at hyields
    refine .inr ⟨binding.expr, value, Table.find?_insert_self _ _ _,
      Table.find?_insert_self _ _ _, ?_⟩
    rw [hresolved.target, show value.type = _ from hyields]
  · rw [Table.find?_insert_of_ne _ _ hname, Table.find?_insert_of_ne _ _ hname]
    obtain hnone | ⟨expr, other, halias, hother, htarget⟩ := hfollows name
    · exact .inl hnone
    · refine .inr ⟨expr, other, halias, hother, ?_⟩
      rw [hresolved.metadata.target? (haliases name expr halias).1, htarget]

/-- The tables stay in step while bindings are evaluated. -/
theorem Environment.sound_of_resolveAll (key : String) (hsound : library.Sound)
    {bindings : List Binding} {scope after : Scope} {later : List NodeId}
    (hready : scope.Ready (Binding.idsAll bindings ++ later))
    (hnodup : (Binding.idsAll bindings ++ later).Nodup) (hfollows : environment.Follows scope)
    (hresolve : scope.resolveAll library bindings = .ok after)
    (hlater : after.metadata.SameOutside later metadata) :
    Ordinary (bindings.foldlM (fun environment binding =>
        binding.evaluate key metadata environment) environment) ∧
      ∀ result, bindings.foldlM (fun environment binding =>
        binding.evaluate key metadata environment) environment = .ok result →
          result.Follows after := by
  induction bindings generalizing scope environment with
  | nil =>
    cases hresolve
    refine ⟨.ok _, ?_⟩
    rintro _ ⟨⟩
    exact hfollows
  | cons binding rest ih =>
    obtain ⟨middle, hbinding, hrest⟩ := Outcome.bind_eq_ok.1 hresolve
    rw [Binding.idsAll, List.flatMap_cons, List.append_assoc] at hready hnodup
    obtain ⟨assignment, hresolved⟩ :=
      Binding.resolved_of_resolve hready (List.nodup_append'.1 hnodup).1 hbinding
    have hmiddle := hresolved.ready hready hnodup
    have hsame := (Scope.ready_of_resolveAll hmiddle (List.nodup_append'.1 hnodup).2.1 hrest).2
    obtain ⟨hordinary, hstep⟩ := Binding.evaluate_sound key hsound hresolved hnodup hfollows
      (hready.hosts.mono (List.subset_append_left _ _))
      ((hsame.mono (List.subset_append_left _ _)).trans
        (hlater.mono (List.subset_append_right _ _)))
    rw [List.foldlM_cons]
    refine ⟨hordinary.bind fun result hresult => ?_, fun result hresult => ?_⟩
    · exact (ih hmiddle (List.nodup_append'.1 hnodup).2.1 (hstep result hresult) hrest).1
    · obtain ⟨next, hnext, hresult⟩ := Outcome.bind_eq_ok.1 hresult
      exact (ih hmiddle (List.nodup_append'.1 hnodup).2.1 (hstep next hnext) hrest).2 result hresult

/-- Wherever resolution looks up the type of a name, it is the type of the value that evaluation
    finds under the name. -/
theorem Environment.Follows.typeOf_eq {library : Library} {scope reached : Scope} {expr : Expr}
    {leaf : Leaf} (hfollows : environment.Follows scope) (hosts : scope.Hosts expr.ids)
    (hnodup : expr.ids.Nodup) (hvisits : expr.Visits library none scope leaf reached)
    {name : String} (hname : leaf.value.name? = some name) :
    (reached.aliases.find? name = none ∧ environment.find? name = none) ∨
      ∃ expr value, reached.aliases.find? name = some expr ∧
        environment.find? name = some value ∧
        reached.typeOf leaf.value leaf.span = .ok value.type := by
  have hsame := hvisits.sameOutside hosts hnodup
  rw [hsame.aliases]
  obtain hnone | ⟨expr', value, halias, hvalue, htarget⟩ := hfollows name
  · exact .inl hnone
  · refine .inr ⟨expr', value, halias, hvalue, ?_⟩
    have htypes := hfollows.types leaf.value
    rw [(hosts.of_sameOutside hsame).typeOf_eq, hosts.sourceType_eq hsame, ← htypes]
    simp [deref, hname, hvalue]

end

-- ---------------------------------------------------------------------------
-- Combinations
-- ---------------------------------------------------------------------------

/-- For every combination of an invocation that was read and resolved: evaluation meets no internal
    error, whatever evaluates to a value has the type on record, and at every name that stands for
    an alias the type that resolution uses is the type of the alias's value. -/
theorem evaluation_sound (key source : String) (nextId : NodeId) {invocation : Invocation}
    {state : ReadState} {combinations : List Combination} {combination : Combination}
    {scope : Scope} (hread : Invocation.ofSource source nextId = .ok (invocation, state))
    (hcombinations : invocation.combinations = .ok combinations)
    (hmem : combination ∈ combinations)
    (hresolve : Scope.empty.resolveAll .builtin combination.bindings = .ok scope) :
    (∀ e, Environment.ofBindings key scope.metadata combination.bindings = .error e →
      e.isInternal = false) ∧
    (∀ expr environment value, expr.evaluate key scope.metadata environment = .ok value →
      scope.metadata.typeOf? expr = some value.type) ∧
    (∀ before binding after, combination.bindings = before ++ binding :: after →
      ∃ middle, Scope.empty.resolveAll .builtin before = .ok middle ∧
        ∀ environment, Environment.ofBindings key scope.metadata before = .ok environment →
        ∀ leaf reached, binding.expr.Visits .builtin none middle leaf reached →
        ∀ name, leaf.value.name? = some name →
          (reached.aliases.find? name = none ∧ environment.find? name = none) ∨
          ∃ expr value, reached.aliases.find? name = some expr ∧
            environment.find? name = some value ∧
            reached.typeOf leaf.value leaf.span = .ok value.type) := by
  have hnumbered := Invocation.numbered_of_ofSource hread
  have hnodup : (Binding.idsAll combination.bindings).Nodup :=
    (Invocation.ids_combination_sublist hcombinations hmem).nodup hnumbered.nodup
  have hsound := Library.sound_builtin
  refine ⟨?_, fun expr environment value => Expr.typeOf?_of_evaluate, ?_⟩
  · have hnil : (Binding.idsAll combination.bindings ++ []).Nodup := by simpa using hnodup
    exact (Environment.sound_of_resolveAll key hsound (Scope.ready_empty _) hnil
      Environment.follows_empty hresolve (.refl [] _)).1
  · intro before binding after hsplit
    rw [hsplit] at hresolve hnodup
    rw [Scope.resolveAll, List.foldlM_append] at hresolve
    obtain ⟨middle, hbefore, hrest⟩ := Outcome.bind_eq_ok.1 hresolve
    rw [Binding.idsAll, List.flatMap_append] at hnodup
    obtain ⟨hready, -⟩ := Scope.ready_of_resolveAll (Scope.ready_empty _) hnodup hbefore
    refine ⟨middle, hbefore, fun environment henvironment leaf reached hvisits name hname => ?_⟩
    have hbinding : (Binding.idsAll (binding :: after)).Nodup := (List.nodup_append'.1 hnodup).2.1
    have hrestReady : middle.Ready (Binding.idsAll (binding :: after) ++ []) := by
      rwa [List.append_nil]
    have hlater := (Scope.ready_of_resolveAll hrestReady (by rwa [List.append_nil]) hrest).2
    have hfollows := (Environment.sound_of_resolveAll key hsound (Scope.ready_empty _) hnodup
      Environment.follows_empty hbefore hlater).2 environment henvironment
    rw [Binding.idsAll, List.flatMap_cons] at hbinding
    exact hfollows.typeOf_eq (hready.hosts.mono (by simp [Binding.ids]))
      (List.nodup_append'.1 hbinding).1 hvisits hname

/-- An alias that is bound to another alias, and a call that refers to both. -/
theorem evaluation_sound_chain : ∃ invocation state combinations combination scope,
    Invocation.ofSource "a = x, b = a, c = concat(a, b), { c }" 0 = .ok (invocation, state) ∧
      invocation.combinations = .ok combinations ∧ combination ∈ combinations ∧
      Scope.empty.resolveAll .builtin combination.bindings = .ok scope ∧
      ∀ e, Environment.ofBindings "key" scope.metadata combination.bindings = .error e →
        e.isInternal = false := by
  have hsome : ((Invocation.ofSource "a = x, b = a, c = concat(a, b), { c }" 0).toOption.bind
      fun result => result.1.combinations.toOption.bind fun combinations =>
        combinations.head?.bind fun combination =>
          (Scope.empty.resolveAll .builtin combination.bindings).toOption).isSome = true := by
    decide +kernel
  obtain ⟨scope, hscope⟩ := Option.isSome_iff_exists.1 hsome
  obtain ⟨⟨invocation, state⟩, hread, hscope⟩ := Option.bind_eq_some_iff.1 hscope
  obtain ⟨combinations, hcombinations, hscope⟩ := Option.bind_eq_some_iff.1 hscope
  obtain ⟨combination, hhead, hresolve⟩ := Option.bind_eq_some_iff.1 hscope
  rw [Outcome.toOption_eq_some] at hread hcombinations hresolve
  have hmem := List.mem_of_mem_head? hhead
  exact ⟨invocation, state, combinations, combination, scope, hread, hcombinations, hmem, hresolve,
    (evaluation_sound "key" _ 0 hread hcombinations hmem hresolve).1⟩

end AliasExpansion
