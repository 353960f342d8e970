-- SUMMARY: What resolution may put on record, whatever the scope it begins in.
import AliasExpansion.Proofs.Resolution.Bindings

/-!
# Records of a resolution

Whichever attempts win, resolution records types for leaves of the expression and overloads of the
library for calls of the expression, and does nothing else to the scope. So what these records
preserve holds after every resolution (`Expr.kept_of_resolve`): records of other nodes stay, and
every overload on record is one of the library.
-/

namespace AliasExpansion

/-- The property survives records for the nodes `ids`, with overloads of the library. -/
structure Metadata.Kept (library : Library) (ids : List NodeId) (P : Metadata → Prop) : Prop where
  leaf : ∀ metadata id typing, id ∈ ids → P metadata → P (metadata.recordLeaf id typing)
  call : ∀ metadata id selection, id ∈ ids → selection.overload ∈ library.overloads →
    P metadata → P (metadata.recordCall id selection)

open Metadata

section

variable {library : Library} {ids : List NodeId} {P : Metadata → Prop} {scope after : Scope}
  {cost : Nat} {expected : Option ValueType}

theorem Leaf.kept_of_resolve (kept : Kept library ids P) {leaf : Leaf} (mem : leaf.id ∈ ids)
    (h : leaf.resolve expected scope = .ok (cost, after)) (before : P scope.metadata) :
    after.aliases = scope.aliases ∧ P after.metadata := by
  obtain ⟨source, -, h⟩ := Outcome.bind_eq_ok.mp h
  obtain ⟨found, -, h⟩ := Outcome.bind_eq_ok.mp h
  cases h
  exact ⟨rfl, kept.leaf _ _ _ mem before⟩

namespace Expr

theorem kept_of_attempt (kept : Kept library ids P) {id : NodeId} {name : String}
    {arguments : List Expr} {raw : Leaf} {span : Span} (mem : raw.id ∈ ids)
    (resolved : ∀ slots {cost after}, resolveAll library arguments slots scope = .ok (cost, after) →
      after.aliases = scope.aliases ∧ P after.metadata)
    {overload : Overload} {found : Attempt} (before : P scope.metadata)
    (h : attempt library id name arguments raw span expected scope overload = .ok found) :
    found.overload = overload ∧ found.scope.aliases = scope.aliases ∧ P found.scope.metadata := by
  obtain ⟨overload_eq, ⟨-, cost, found_eq⟩ | ⟨-, -, cost, found_eq⟩⟩ := attempt_eq_ok h
  · exact ⟨overload_eq, Leaf.kept_of_resolve kept mem found_eq before⟩
  · exact ⟨overload_eq, resolved _ found_eq⟩

mutual

theorem kept_of_resolve (kept : Kept library ids P) : ∀ {expr : Expr}
    {expected : Option ValueType} {scope after : Scope} {cost : Nat}, expr.ids ⊆ ids →
    resolve library expr expected scope = .ok (cost, after) → P scope.metadata →
      after.aliases = scope.aliases ∧ P after.metadata
  | .leaf node, expected, scope, after, cost, sub, h, before => by
    rw [resolve] at h
    exact Leaf.kept_of_resolve kept (sub (by simp [Expr.ids])) h before
  | .call id name arguments raw span, expected, scope, after, cost, sub, h, before => by
    have rawMem : raw.id ∈ ids := sub (by simp [Expr.ids])
    have argumentIds : idsAll arguments ⊆ ids := fun other mem => sub (by simp [Expr.ids, mem])
    obtain ⟨best, winner, rfl, rfl⟩ := winner_of_resolve h
    obtain ⟨-, aliases, holds⟩ := kept_of_attempt kept rawMem
      (fun slots _ _ h => kept_of_resolveAll kept argumentIds h before) before winner.fits
    have mem := (List.mem_filter.mp winner.overload_mem).1
    exact ⟨aliases, kept.call _ _ _ (sub (by simp [Expr.ids])) mem holds⟩

theorem kept_of_resolveAll (kept : Kept library ids P) : ∀ {arguments : List Expr}
    {slots : List (ValueType × Nat)} {scope after : Scope} {cost : Nat}, idsAll arguments ⊆ ids →
    resolveAll library arguments slots scope = .ok (cost, after) → P scope.metadata →
      after.aliases = scope.aliases ∧ P after.metadata
  | argument :: arguments, (target, weight) :: slots, scope, after, cost, sub, h, before => by
    rw [idsAll, List.append_subset] at sub
    rw [resolveAll] at h
    obtain ⟨⟨first, middle⟩, hfirst, h⟩ := Outcome.bind_eq_ok.mp h
    obtain ⟨⟨total, last⟩, hrest, h⟩ := Outcome.bind_eq_ok.mp h
    cases h
    obtain ⟨aliases, holds⟩ := kept_of_resolve kept sub.1 hfirst before
    obtain ⟨aliases', holds⟩ := kept_of_resolveAll kept sub.2 hrest holds
    exact ⟨aliases'.trans aliases, holds⟩
  | [], slots, scope, after, cost, _, h, before => by
    rw [resolveAll] at h
    · cases h
      exact ⟨rfl, before⟩
    · nofun
  | argument :: arguments, [], scope, after, cost, _, h, before => by
    rw [resolveAll] at h
    · cases h
      exact ⟨rfl, before⟩
    · nofun

end

/-- Resolution records results for the nodes of the expression only, in any scope. -/
theorem confined_of_resolve {expr : Expr}
    (h : resolve library expr expected scope = .ok (cost, after)) :
    scope.SameOutside expr.ids after := by
  have kept : Kept library expr.ids (scope.metadata.SameOutside expr.ids) := by
    constructor
    · intro metadata id typing mem same
      have here : [id] ⊆ expr.ids := by simpa using mem
      exact same.trans ((metadata.sameOutside_recordLeaf id typing).mono here)
    · intro metadata id selection mem _ same
      have here : [id] ⊆ expr.ids := by simpa using mem
      exact same.trans ((metadata.sameOutside_recordCall id selection).mono here)
  obtain ⟨aliases, metadata⟩ := kept_of_resolve kept (List.Subset.refl _) h (.refl _ _)
  exact ⟨aliases, metadata⟩

end Expr

-- ---------------------------------------------------------------------------
-- Overloads on record
-- ---------------------------------------------------------------------------

/-- Every overload on record is one of the library. -/
def Metadata.ChosenFrom (library : Library) (metadata : Metadata) : Prop :=
  ∀ id selection, metadata.calls.find? id = some selection →
    selection.overload ∈ library.overloads

theorem Metadata.chosenFrom_empty : Metadata.empty.ChosenFrom library :=
  nofun

theorem Metadata.kept_chosenFrom (ids : List NodeId) : Kept library ids (ChosenFrom library) := by
  refine ⟨fun metadata id typing _ chosen => chosen, ?_⟩
  intro metadata id selection _ mem chosen other found hfound
  simp only [recordCall] at hfound
  by_cases eq : id = other
  · rw [eq, Table.find?_insert_self] at hfound
    cases hfound
    exact mem
  · rw [Table.find?_insert_of_ne _ _ eq] at hfound
    exact chosen other found hfound

theorem Scope.chosenFrom_of_resolveAll {bindings : List Binding}
    (h : scope.resolveAll library bindings = .ok after)
    (chosen : scope.metadata.ChosenFrom library) : after.metadata.ChosenFrom library := by
  induction bindings generalizing scope with
  | nil =>
    cases h
    exact chosen
  | cons binding rest ih =>
    obtain ⟨middle, hbinding, hrest⟩ := Outcome.bind_eq_ok.mp h
    obtain ⟨⟨cost, resolved⟩, hexpr, hdeclare⟩ := Outcome.bind_eq_ok.mp hbinding
    have later :=
      Expr.kept_of_resolve (Metadata.kept_chosenFrom _) (List.Subset.refl _) hexpr chosen
    obtain ⟨-, rfl⟩ := Scope.declare_eq_ok hdeclare
    exact ih hrest later.2

end

end AliasExpansion
