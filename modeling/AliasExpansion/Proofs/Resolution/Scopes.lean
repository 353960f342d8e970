-- SUMMARY: Scopes that differ only in what was recorded for some nodes.
import AliasExpansion.Proofs.Resolution.Assignment
import Mathlib.Data.List.Nodup

/-!
# Scopes during resolution

Resolving an expression records results for the nodes of the expression and leaves everything else
in the scope alone. Since no alias is one of these nodes, the types of aliases stay what they were.
-/

namespace AliasExpansion

/-- The records agree but for those of the nodes `ids`. -/
structure Metadata.SameOutside (ids : List NodeId) (metadata after : Metadata) : Prop where
  leaves : ∀ id, id ∉ ids → after.leaves.find? id = metadata.leaves.find? id
  calls : ∀ id, id ∉ ids → after.calls.find? id = metadata.calls.find? id

namespace Metadata.SameOutside

variable {ids ids' : List NodeId} {metadata middle after : Metadata}

theorem refl (ids : List NodeId) (metadata : Metadata) : SameOutside ids metadata metadata :=
  ⟨fun _ _ => rfl, fun _ _ => rfl⟩

theorem mono (h : SameOutside ids metadata after) (hsub : ids ⊆ ids') :
    SameOutside ids' metadata after where
  leaves := fun id hid => h.leaves id fun hmem => hid (hsub hmem)
  calls := fun id hid => h.calls id fun hmem => hid (hsub hmem)

theorem trans (h₁ : SameOutside ids metadata middle) (h₂ : SameOutside ids middle after) :
    SameOutside ids metadata after where
  leaves := fun id hid => (h₂.leaves id hid).trans (h₁.leaves id hid)
  calls := fun id hid => (h₂.calls id hid).trans (h₁.calls id hid)

theorem target? (h : SameOutside ids metadata after) {id : NodeId} (hid : id ∉ ids) :
    after.target? id = metadata.target? id := by
  rw [Metadata.target?, Metadata.target?, h.leaves id hid, h.calls id hid]

end Metadata.SameOutside

theorem Metadata.sameOutside_recordLeaf (metadata : Metadata) (id : NodeId) (typing : Typing) :
    SameOutside [id] metadata (metadata.recordLeaf id typing) where
  leaves := fun other hother =>
    Table.find?_insert_of_ne _ typing (by simpa [eq_comm] using hother)
  calls := fun _ _ => rfl

theorem Metadata.sameOutside_recordCall (metadata : Metadata) (id : NodeId)
    (selection : Selection) : SameOutside [id] metadata (metadata.recordCall id selection) where
  leaves := fun _ _ => rfl
  calls := fun other hother =>
    Table.find?_insert_of_ne _ selection (by simpa [eq_comm] using hother)

namespace Scope

/-- The scopes agree in their aliases and in all records but those of the nodes `ids`. -/
structure SameOutside (ids : List NodeId) (scope after : Scope) : Prop where
  aliases : after.aliases = scope.aliases
  metadata : scope.metadata.SameOutside ids after.metadata

namespace SameOutside

variable {ids ids' : List NodeId} {scope middle after : Scope}

theorem refl (ids : List NodeId) (scope : Scope) : SameOutside ids scope scope :=
  ⟨rfl, .refl _ _⟩

theorem mono (h : SameOutside ids scope after) (hsub : ids ⊆ ids') :
    SameOutside ids' scope after :=
  ⟨h.aliases, h.metadata.mono hsub⟩

theorem trans (h₁ : SameOutside ids scope middle) (h₂ : SameOutside ids middle after) :
    SameOutside ids scope after :=
  ⟨h₂.aliases.trans h₁.aliases, h₁.metadata.trans h₂.metadata⟩

end SameOutside

theorem sameOutside_recordLeaf (scope : Scope) (id : NodeId) (typing : Typing) :
    SameOutside [id] scope { scope with metadata := scope.metadata.recordLeaf id typing } :=
  ⟨rfl, scope.metadata.sameOutside_recordLeaf id typing⟩

theorem sameOutside_recordCall (scope : Scope) (id : NodeId) (selection : Selection) :
    SameOutside [id] scope { scope with metadata := scope.metadata.recordCall id selection } :=
  ⟨rfl, scope.metadata.sameOutside_recordCall id selection⟩

/-- Every alias has a recorded type and is none of the nodes `ids`. -/
def Hosts (scope : Scope) (ids : List NodeId) : Prop :=
  ∀ name expr, scope.aliases.find? name = some expr →
    expr.id ∉ ids ∧ ∃ target, scope.metadata.target? expr.id = some target

namespace Hosts

variable {ids ids' : List NodeId} {scope after : Scope}

theorem mono (h : scope.Hosts ids) (hsub : ids' ⊆ ids) : scope.Hosts ids' :=
  fun name expr hfind =>
    ⟨fun hmem => (h name expr hfind).1 (hsub hmem), (h name expr hfind).2⟩

theorem of_sameOutside (h : scope.Hosts ids) (hsame : SameOutside ids scope after) :
    after.Hosts ids := by
  intro name expr hfind
  rw [hsame.aliases] at hfind
  obtain ⟨hforeign, htarget⟩ := h name expr hfind
  exact ⟨hforeign, by rwa [hsame.metadata.target? hforeign]⟩

theorem sourceType_eq (h : scope.Hosts ids) (hsame : SameOutside ids scope after) :
    after.sourceType = scope.sourceType := by
  funext value
  simp only [sourceType, hsame.aliases]
  split
  · rfl
  · split
    · rfl
    · next expr hfind => rw [hsame.metadata.target? (h _ expr hfind).1]

/-- In a scope in which every alias has a type, the type of a value is always known. -/
theorem typeOf_eq (h : scope.Hosts ids) (value : Value) (span : Span) :
    scope.typeOf value span = .ok (scope.sourceType value) := by
  rw [typeOf, sourceType]
  cases value.name? with
  | none => rfl
  | some name =>
    cases hfind : scope.aliases.find? name with
    | none => simp only [hfind]
    | some expr =>
      obtain ⟨-, target, htarget⟩ := h name expr hfind
      simp only [hfind, htarget, Option.getD_some]

end Hosts

end Scope

-- ---------------------------------------------------------------------------
-- Records
-- ---------------------------------------------------------------------------

namespace Assignment

mutual

/-- Records of an expression do not depend on what happens to other nodes. -/
theorem Recorded.of_sameOutside {ids : List NodeId} {metadata after : Metadata}
    (hsame : metadata.SameOutside ids after) :
    ∀ {expr : Expr} {assignment : Assignment}, expr.ids.Disjoint ids →
      Recorded metadata expr assignment → Recorded after expr assignment
  | .leaf node, .leaf typing, hdisjoint, h => by
    rw [Recorded] at h ⊢
    rwa [hsame.leaves node.id (hdisjoint (by simp [Expr.ids]))]
  | .call id name arguments raw span, .call selection children, hdisjoint, h => by
    have hid : id ∉ ids := hdisjoint (by simp [Expr.ids])
    have hraw : raw.id ∉ ids := hdisjoint (by simp [Expr.ids])
    have harguments : (Expr.idsAll arguments).Disjoint ids := fun other hother =>
      hdisjoint (by simp [Expr.ids, hother])
    rw [Recorded] at h ⊢
    rw [hsame.calls id hid, hsame.leaves raw.id hraw]
    refine ⟨h.1, ?_⟩
    split
    · next hisRaw => simpa only [if_pos hisRaw] using h.2
    · next hisRaw =>
      have hrest := h.2
      rw [if_neg hisRaw] at hrest
      exact RecordedAll.of_sameOutside hsame harguments hrest
  | .leaf _, .call _ _, _, h => by simp [Recorded] at h
  | .call _ _ _ _ _, .leaf _, _, h => by simp [Recorded] at h

theorem RecordedAll.of_sameOutside {ids : List NodeId} {metadata after : Metadata}
    (hsame : metadata.SameOutside ids after) :
    ∀ {arguments : List Expr} {children : List Assignment}, (Expr.idsAll arguments).Disjoint ids →
      RecordedAll metadata arguments children → RecordedAll after arguments children
  | [], [], _, _ => by simp [RecordedAll]
  | argument :: arguments, child :: children, hdisjoint, h => by
    rw [Expr.idsAll, List.disjoint_append_left] at hdisjoint
    rw [RecordedAll] at h ⊢
    exact ⟨h.1.of_sameOutside hsame hdisjoint.1, RecordedAll.of_sameOutside hsame hdisjoint.2 h.2⟩
  | [], _ :: _, _, h => by simp [RecordedAll] at h
  | _ :: _, [], _, h => by simp [RecordedAll] at h

end

end Assignment

end AliasExpansion
