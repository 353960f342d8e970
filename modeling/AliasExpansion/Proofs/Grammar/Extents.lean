-- SUMMARY: The extents of the members of a body stand one behind the other.
import AliasExpansion.Proofs.Grammar.Insertion
import AliasExpansion.Proofs.Grammar.Members

/-!
# Extents

The members of a body stand one behind the other (`Extent.Chained`), and the slice of the tokens at
the extent of a member is what the member takes.
-/

namespace AliasExpansion

-- ---------------------------------------------------------------------------
-- Extents
-- ---------------------------------------------------------------------------

namespace Extent

/-- The tokens at an extent. -/
def slice (extent : Extent) (tokens : List Token) : List Token :=
  (tokens.take extent.stop).drop extent.start

/-- The extents stand one behind the other, from `start` on, in a body of `total` tokens. -/
def Chained (total : Nat) : (start : Nat) → List Extent → Prop
  | _, [] => True
  | start, extent :: rest =>
    start ≤ extent.start ∧ extent.start < extent.stop ∧ extent.stop ≤ total ∧
      Chained total extent.stop rest

variable {total start start' : Nat} {extents : List Extent} {extent : Extent}

theorem Chained.mono (le : start ≤ start') (h : Chained total start' extents) :
    Chained total start extents := by
  cases extents with
  | nil => trivial
  | cons => exact ⟨Nat.le_trans le h.1, h.2⟩

theorem Chained.start_le (h : Chained total start extents) (mem : extent ∈ extents) :
    start ≤ extent.start := by
  induction extents generalizing start with
  | nil => cases mem
  | cons first rest ih =>
    obtain ⟨le, lt, -, chained⟩ := h
    rcases List.mem_cons.mp mem with rfl | mem
    · exact le
    · have := ih chained mem
      omega

theorem Chained.inside (h : Chained total start extents) (mem : extent ∈ extents) :
    extent.start < extent.stop ∧ extent.stop ≤ total := by
  induction extents generalizing start with
  | nil => cases mem
  | cons first rest ih =>
    obtain ⟨-, lt, le, chained⟩ := h
    rcases List.mem_cons.mp mem with rfl | mem
    · exact ⟨lt, le⟩
    · exact ih chained mem

theorem Chained.pairwise (h : Chained total start extents) :
    extents.Pairwise fun extent later => extent.stop ≤ later.start := by
  induction extents generalizing start with
  | nil => exact .nil
  | cons first rest ih =>
    obtain ⟨-, -, -, chained⟩ := h
    exact .cons (fun later mem => chained.start_le mem) (ih chained)

/-- What is left of the tokens is the gap before an extent, its slice, and what follows. -/
theorem drop_eq {tokens : List Token} (le : start ≤ extent.start)
    (lt : extent.start < extent.stop) :
    tokens.drop start
      = (tokens.take extent.start).drop start
        ++ (extent.slice tokens ++ tokens.drop extent.stop) := by
  have behind : extent.slice tokens ++ tokens.drop extent.stop = tokens.drop extent.start := by
    rw [slice, List.drop_take]
    have : tokens.drop extent.stop
        = (tokens.drop extent.start).drop (extent.stop - extent.start) := by
      rw [List.drop_drop, Nat.add_sub_cancel' (Nat.le_of_lt lt)]
    rw [this, List.take_append_drop]
  have before : tokens.drop extent.start = (tokens.drop start).drop (extent.start - start) := by
    rw [List.drop_drop, Nat.add_sub_cancel' le]
  rw [behind, List.drop_take, before, List.take_append_drop]

theorem length_slice {tokens : List Token} (le : extent.stop ≤ tokens.length) :
    (extent.slice tokens).length = extent.stop - extent.start := by
  rw [slice, List.length_drop, List.length_take, Nat.min_eq_left le]

end Extent

namespace Member

variable {kind : Member} {budget total limit : Nat} {cursor head final : Cursor}
  {extents : List Extent} {tokens : List Token}

theorem Reads.length_lt (h : kind.Reads budget cursor head final) :
    final.rest.length < cursor.rest.length := by
  have run : Rule.Runs budget (Rule.member kind) cursor final := .seq h.attributes h.element
  exact run.length_lt h.starts.left (member_least kind)

theorem Located.chained (h : Located kind budget total limit cursor extents)
    (le : cursor.rest.length ≤ total) :
    Extent.Chained total (total - cursor.rest.length) extents := by
  induction h with
  | ending => trivial
  | semicolon _ _ _ _ ih =>
    rw [Cursor.advance_rest, List.length_drop] at ih
    exact (ih (by omega)).mono (by omega)
  | joined _ reads _ ih =>
    have lt := reads.length_lt
    exact ⟨Nat.le_refl _, by simp only [extent]; omega, Nat.sub_le _ _, ih (by omega)⟩
  | separated _ reads _ _ ih =>
    have lt := reads.length_lt
    rw [Cursor.advance_rest, List.length_drop] at ih
    refine ⟨Nat.le_refl _, by simp only [extent]; omega, Nat.sub_le _ _, ?_⟩
    exact (ih (by omega)).mono (by simp only [extent]; omega)
  | last _ reads =>
    have lt := reads.length_lt
    exact ⟨Nat.le_refl _, by simp only [extent]; omega, Nat.sub_le _ _, trivial⟩

/-- The members of a body stand one behind the other. -/
theorem split_chained (h : kind.split tokens = .ok extents) :
    Extent.Chained tokens.length 0 extents := by
  obtain ⟨first, run, located⟩ := split_eq_ok.mp h
  have le : first.rest.length ≤ tokens.length := by
    split at run
    · exact run.length_le
    · exact run ▸ Nat.le_refl _
  exact (located.chained le).mono (Nat.zero_le _)

theorem slice_extent {before passed : List Token} (split : tokens = before ++ cursor.rest)
    (passes : cursor.Passes passed final) :
    (kind.extent tokens.length cursor head final).slice tokens = passed := by
  subst split
  have start : (before ++ cursor.rest).length - cursor.rest.length = before.length := by
    rw [List.length_append, Nat.add_sub_cancel]
  have stop : (before ++ cursor.rest).length - final.rest.length = (before ++ passed).length := by
    rw [passes.rest, ← List.append_assoc, List.length_append,
      Nat.add_sub_cancel]
  simp only [Extent.slice, extent, start, stop]
  rw [passes.rest, ← List.append_assoc, List.take_left, List.drop_left]

end Member

end AliasExpansion
