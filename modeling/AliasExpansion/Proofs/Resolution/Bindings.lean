-- SUMMARY: Resolving bindings one after the other.
import AliasExpansion.Proofs.Reading.Combinations
import AliasExpansion.Proofs.Resolution.Optimal

/-!
# Resolving bindings

A scope is ready for bindings when none of their nodes has a record and every alias declared before
has a type. Resolving a binding puts the best assignment of its expression on record and leaves a
scope that is ready for the bindings after it.
-/

namespace AliasExpansion

open Assignment

/-- The nodes `ids` are yet to be resolved. -/
structure Scope.Ready (scope : Scope) (ids : List NodeId) : Prop where
  hosts : scope.Hosts ids
  fresh : ∀ id ∈ ids, scope.metadata.leaves.find? id = none

theorem Scope.ready_empty (ids : List NodeId) : Scope.empty.Ready ids :=
  ⟨nofun, fun _ _ => rfl⟩

/-- A name is declared only once. -/
theorem Scope.declare_eq_ok {scope after : Scope} {name : String} {expr : Expr}
    {span : Option Span} (h : scope.declare name expr span = .ok after) :
    scope.aliases.find? name = none ∧
      after = { scope with aliases := scope.aliases.insert name expr } := by
  rw [declare] at h
  by_cases hcontains : scope.aliases.contains name = true
  · rw [if_pos hcontains] at h
    cases h
  · rw [if_neg hcontains] at h
    cases h
    exact ⟨by simpa [Table.contains] using hcontains, rfl⟩

/-- What the resolution of a binding leaves in the scope. -/
structure Binding.Resolved (library : Library) (binding : Binding) (scope after : Scope)
    (assignment : Assignment) : Prop where
  best : Best library scope.sourceType binding.expr none assignment
  recorded : Recorded after.metadata binding.expr assignment
  target : after.metadata.target? binding.expr.id = some assignment.target
  undeclared : scope.aliases.find? binding.name = none
  aliases : after.aliases = scope.aliases.insert binding.name binding.expr
  metadata : scope.metadata.SameOutside binding.ids after.metadata

section

variable {library : Library} {binding : Binding} {scope after : Scope} {later : List NodeId}

theorem Binding.resolved_of_resolve (hready : scope.Ready (binding.ids ++ later))
    (hnodup : binding.ids.Nodup) (h : binding.resolve library scope = .ok after) :
    ∃ assignment, binding.Resolved library scope after assignment := by
  obtain ⟨⟨cost, middle⟩, hresolve, h⟩ := Outcome.bind_eq_ok.1 h
  have hosts := hready.hosts.mono (List.subset_append_left binding.ids later)
  have hsettled := resolve_settled library binding.expr none scope hosts hnodup
  rw [hresolve] at hsettled
  obtain ⟨hsame, -, assignment, hbest, hrecorded, -, htarget⟩ := hsettled
  have hid : binding.expr.id ∈ binding.ids ++ later :=
    List.mem_append_left _ binding.expr.id_mem_ids
  obtain ⟨hundeclared, rfl⟩ := Scope.declare_eq_ok h
  rw [hsame.aliases] at hundeclared
  exact ⟨assignment, hbest, hrecorded, htarget (hready.fresh _ hid), hundeclared,
    by rw [hsame.aliases], hsame.metadata⟩

/-- A resolved binding leaves the scope ready for the rest. -/
theorem Binding.Resolved.ready {assignment : Assignment}
    (h : binding.Resolved library scope after assignment)
    (hready : scope.Ready (binding.ids ++ later)) (hnodup : (binding.ids ++ later).Nodup) :
    after.Ready later := by
  have hdisjoint := (List.nodup_append'.1 hnodup).2.2
  constructor
  · intro name expr hfind
    rw [h.aliases] at hfind
    by_cases hname : binding.name = name
    · subst hname
      rw [Table.find?_insert_self] at hfind
      cases hfind
      exact ⟨hdisjoint binding.expr.id_mem_ids, _, h.target⟩
    · rw [Table.find?_insert_of_ne _ _ hname] at hfind
      obtain ⟨hforeign, htarget⟩ := hready.hosts name expr hfind
      rw [List.mem_append, not_or] at hforeign
      exact ⟨hforeign.2, by rwa [h.metadata.target? hforeign.1]⟩
  · intro id hid
    rw [h.metadata.leaves id fun hmem => hdisjoint hmem hid]
    exact hready.fresh id (List.mem_append_right _ hid)

end

/-- Resolving bindings records results for their nodes only. -/
theorem Scope.ready_of_resolveAll {library : Library} {bindings : List Binding}
    {scope after : Scope} {later : List NodeId}
    (hready : scope.Ready (Binding.idsAll bindings ++ later))
    (hnodup : (Binding.idsAll bindings ++ later).Nodup)
    (h : scope.resolveAll library bindings = .ok after) :
    after.Ready later ∧ scope.metadata.SameOutside (Binding.idsAll bindings) after.metadata := by
  induction bindings generalizing scope with
  | nil =>
    cases h
    exact ⟨hready, .refl _ _⟩
  | cons binding rest ih =>
    obtain ⟨middle, hbinding, hrest⟩ := Outcome.bind_eq_ok.1 h
    rw [Binding.idsAll, List.flatMap_cons, List.append_assoc] at hready hnodup
    obtain ⟨assignment, hresolved⟩ :=
      Binding.resolved_of_resolve hready (List.nodup_append'.1 hnodup).1 hbinding
    obtain ⟨hafter, hsame⟩ :=
      ih (hresolved.ready hready hnodup) (List.nodup_append'.1 hnodup).2.1 hrest
    refine ⟨hafter, ?_⟩
    rw [Binding.idsAll, List.flatMap_cons]
    exact (hresolved.metadata.mono (List.subset_append_left _ _)).trans
      (hsame.mono (List.subset_append_right _ _))

end AliasExpansion
