-- SUMMARY: The parts of a token list between separators, and how deep their groups are nested.
import AliasExpansion.Token.Parts
import Mathlib.Data.List.Basic

/-!
# Parts of token lists

A part between separators takes its tokens from the list in their order, so the groups in it are
nested no deeper than those of the list.
-/

namespace AliasExpansion.Token

theorem sublist_of_mem_cut (separators : List Char) {tokens part : List Token}
    (mem : part ∈ cut separators tokens) : part.Sublist tokens := by
  induction tokens generalizing part with
  | nil =>
    obtain rfl := List.mem_singleton.mp mem
    exact .slnil
  | cons token rest ih =>
    rw [cut] at mem
    split at mem
    · obtain rfl | mem := List.mem_cons.mp mem
      · exact List.nil_sublist _
      · exact (ih mem).cons token
    · cases split : cut separators rest with
      | nil =>
        rw [split] at mem
        cases mem
      | cons first others =>
        rw [split] at mem ih
        obtain rfl | mem := List.mem_cons.mp mem
        · exact (ih List.mem_cons_self).cons_cons token
        · exact (ih (List.mem_cons_of_mem _ mem)).cons token

/-- A part between commas is cut out of the list, and detached. -/
theorem exists_sublist_of_mem_commaParts {tokens part : List Token}
    (mem : part ∈ commaParts tokens) :
    ∃ piece : List Token, piece.Sublist tokens ∧ detach piece = part := by
  have parts : part ∈ parts [','] tokens := by
    rw [commaParts] at mem
    split at mem
    · exact List.dropLast_subset _ mem
    · exact mem
  obtain ⟨piece, cut, detached⟩ := List.mem_map.mp parts
  exact ⟨piece, sublist_of_mem_cut _ cut, detached⟩

-- ---------------------------------------------------------------------------
-- Depth
-- ---------------------------------------------------------------------------

theorem depths_le_of_sublist {part tokens : List Token} (h : part.Sublist tokens) :
    depths part ≤ depths tokens := by
  induction h with
  | slnil => exact Nat.le_refl _
  | cons token _ ih =>
    rw [depths]
    omega
  | cons_cons token _ ih =>
    rw [depths, depths]
    omega

theorem depths_detach (tokens : List Token) : depths (detach tokens) = depths tokens := by
  induction tokens with
  | nil => rfl
  | cons token rest ih =>
    rw [detach.eq_def]
    split
    · contradiction
    · next eq =>
      cases eq
      rfl
    · next eq =>
      cases eq
      rw [depths, depths, ih]

theorem depths_of_mem_commaParts {tokens part : List Token} (mem : part ∈ commaParts tokens) :
    depths part ≤ depths tokens := by
  obtain ⟨piece, sublist, rfl⟩ := exists_sublist_of_mem_commaParts mem
  rw [depths_detach]
  exact depths_le_of_sublist sublist

end AliasExpansion.Token
