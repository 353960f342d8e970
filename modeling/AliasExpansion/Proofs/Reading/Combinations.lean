-- SUMMARY: The bindings of a combination have distinct nodes.
import AliasExpansion.Invocation.Loops
import AliasExpansion.Proofs.Reading.Identities

/-!
# Nodes of combinations

A combination takes one value from every loop and gives each of its parts at most one name. No
node is bound twice, whatever the selection.
-/

namespace AliasExpansion

/-- The identities of all nodes of bindings. -/
def Binding.idsAll (bindings : List Binding) : List NodeId :=
  bindings.flatMap Binding.ids

namespace LoopPattern

mutual

theorem ids_bind_sublist : ∀ {pattern : LoopPattern} {value : LoopValue} {bindings : List Binding},
    bind pattern value = .ok bindings → (Binding.idsAll bindings).Sublist value.ids
  | .name _ _, .expr e, bindings, h => by
    rw [bind] at h
    cases h
    simp [Binding.idsAll, Binding.ids, LoopValue.ids]
  | .tuple patterns _, .tuple values span, bindings, h => by
    rw [bind] at h
    split at h
    · rw [LoopValue.ids]
      exact ids_bindAll_sublist h
    · cases h
  | .name .., .tuple .., _, h => by simp [bind] at h
  | .tuple .., .expr _, _, h => by simp [bind] at h

theorem ids_bindAll_sublist :
    ∀ {patterns : List LoopPattern} {values : List LoopValue} {bindings : List Binding},
      bindAll patterns values = .ok bindings →
        (Binding.idsAll bindings).Sublist (LoopValue.idsAll values)
  | pattern :: patterns, value :: values, bindings, h => by
    rw [bindAll] at h
    split at h
    · obtain ⟨first, hfirst, h⟩ := Outcome.bind_eq_ok.1 h
      obtain ⟨rest, hrest, h⟩ := Outcome.bind_eq_ok.1 h
      cases h
      rw [Binding.idsAll, List.flatMap_append, LoopValue.idsAll]
      exact (ids_bind_sublist hfirst).append (ids_bindAll_sublist hrest)
    · cases h
  | [], _, _, h => by
    rw [bindAll] at h
    · cases h
      exact List.nil_sublist _
    · nofun
  | _ :: _, [], _, h => by
    rw [bindAll] at h
    · cases h
      exact List.nil_sublist _
    · nofun

end

end LoopPattern

/-- A selection takes each element at most once. -/
theorem flatMap_sublist_of_mem_selections {α β : Type} (f : α → List β) {lists : List (List α)}
    {values : List α} (h : values ∈ selections lists) :
    (values.flatMap f).Sublist (lists.flatMap (List.flatMap f)) := by
  induction lists generalizing values with
  | nil =>
    rw [selections, List.mem_singleton] at h
    rw [h]
    exact List.nil_sublist _
  | cons choices rest ih =>
    rw [selections] at h
    obtain ⟨choice, hchoice, h⟩ := List.mem_flatMap.1 h
    obtain ⟨others, hothers, rfl⟩ := List.mem_map.1 h
    rw [List.flatMap_cons, List.flatMap_cons]
    exact (List.sublist_flatten_of_mem (List.mem_map_of_mem hchoice)).append (ih hothers)

namespace Invocation

theorem ids_bindSelection_sublist {loops : List Loop} {values : List LoopValue}
    {bindings : List Binding} (h : bindSelection loops values = .ok bindings) :
    (Binding.idsAll bindings).Sublist (values.flatMap LoopValue.ids) := by
  obtain ⟨parts, hparts, h⟩ := Outcome.bind_eq_ok.1 h
  cases h
  clear h
  induction loops generalizing values parts with
  | nil =>
    cases hparts
    exact List.nil_sublist _
  | cons loop loops ih =>
    cases values with
    | nil =>
      cases hparts
      exact List.nil_sublist _
    | cons value values =>
      rw [List.zip_cons_cons, List.mapM_cons] at hparts
      obtain ⟨first, hfirst, hparts⟩ := Outcome.bind_eq_ok.1 hparts
      obtain ⟨rest, hrest, hparts⟩ := Outcome.bind_eq_ok.1 hparts
      cases hparts
      rw [List.flatten_cons, Binding.idsAll, List.flatMap_append, List.flatMap_cons]
      exact (LoopPattern.ids_bind_sublist hfirst).append (ih rest hrest)

/-- The nodes of a combination are among those of the invocation, each at most once. -/
theorem ids_combination_sublist {invocation : Invocation} {combinations : List Combination}
    (h : invocation.combinations = .ok combinations) {combination : Combination}
    (hmem : combination ∈ combinations) :
    (Binding.idsAll combination.bindings).Sublist invocation.ids := by
  obtain ⟨values, hvalues, hbind⟩ := Outcome.exists_of_mem_mapM h hmem
  obtain ⟨bindings, hbindings, hbind⟩ := Outcome.bind_eq_ok.1 hbind
  cases hbind
  have hloops : (values.flatMap LoopValue.ids).Sublist (invocation.loops.flatMap Loop.ids) := by
    have hselection := flatMap_sublist_of_mem_selections LoopValue.ids hvalues
    rwa [List.flatMap_map] at hselection
  rw [Binding.idsAll, List.flatMap_append]
  exact ((ids_bindSelection_sublist hbindings).trans hloops).append (.refl _)

end Invocation

end AliasExpansion
