-- SUMMARY: The statements of a block one after the other, without budget and limit.
import AliasExpansion.Proofs.Grammar.Budget
import AliasExpansion.Proofs.Grammar.Extents

/-!
# Sequences of statements

`Member.Statements total cursor extents` says that the statements from the cursor on stand at the
extents, whatever the budget. A block is split at such a sequence, behind its inner attributes
(`split_iff_statements`), and it is accepted when it can be split (`check_iff_split`).
-/

namespace AliasExpansion

open Grammar Rule

-- ---------------------------------------------------------------------------
-- Statements
-- ---------------------------------------------------------------------------

namespace Member

/-- The statements from the cursor on, in a block of `total` tokens, stand at the extents. -/
inductive Statements (total : Nat) : Cursor → List Extent → Prop where
  | ending {cursor} (ending : cursor.rest = []) : Statements total cursor []
  | semicolon {cursor extents} (holds : (Look.mark 0 [';']).holds cursor = true)
      (more : Statements total (cursor.advance 1) extents) : Statements total cursor extents
  | statement {budget cursor head final extents} (reads : Reads .statement budget cursor head final)
      (more : Statements total final extents) :
      Statements total cursor (extent .statement total cursor head final :: extents)

variable {budget total limit : Nat} {cursor head final : Cursor} {extents : List Extent}
  {tokens : List Token}

theorem rest_ne_of_semicolon (holds : (Look.mark 0 [';']).holds cursor = true) :
    cursor.rest ≠ [] :=
  Look.rest_ne (show (Look.mark 0 [';']).needsToken = true from rfl) holds

theorem Located.statements (h : Located .statement budget total limit cursor extents) :
    Statements total cursor extents := by
  induction h with
  | ending ending => exact .ending ending
  | semicolon _ _ holds _ ih => exact .semicolon holds ih
  | joined _ reads _ ih => exact .statement reads ih
  | separated separated | last separated => cases separated

/-- The budget for some tokens suffices for the tokens that come last. -/
theorem budget_le {passed : List Token} (passes : cursor.Passes passed final) :
    Grammar.budget final.rest ≤ Grammar.budget cursor.rest := by
  unfold Grammar.budget
  rw [passes.rest, Token.weights_append]
  exact Nat.mul_le_mul_left callDepth (by omega)

theorem Reads.within (reads : Reads .statement budget cursor head final) {more : Nat}
    (enough : Grammar.budget cursor.rest ≤ more) : Reads .statement more cursor head final where
  starts := reads.starts
  attributes := reads.attributes.within_budget.mono enough
  element := by
    obtain ⟨passed, passes⟩ := reads.attributes.passes
    exact reads.element.within_budget.mono (Nat.le_trans (budget_le passes) enough)

theorem Reads.passes {kind : Member} (reads : kind.Reads budget cursor head final) :
    ∃ passed, cursor.Passes passed final :=
  (Runs.seq reads.attributes reads.element).passes

theorem Statements.located (h : Statements total cursor extents)
    (enough : Grammar.budget cursor.rest ≤ budget) (lt : cursor.rest.length < limit) :
    Located .statement budget total limit cursor extents := by
  induction h generalizing limit with
  | ending ending =>
    obtain ⟨limit, rfl⟩ := Nat.exists_eq_succ_of_ne_zero (Nat.ne_zero_of_lt lt)
    exact .ending ending
  | @semicolon cursor extents holds _ ih =>
    obtain ⟨limit, rfl⟩ := Nat.exists_eq_succ_of_ne_zero (Nat.ne_zero_of_lt lt)
    have left := rest_ne_of_semicolon holds
    have pos := List.length_pos_iff.mpr left
    refine .semicolon rfl left holds (ih ?_ ?_)
    · exact Nat.le_trans (budget_le (Cursor.passes_advance 1 cursor)) enough
    · rw [Cursor.advance_rest, List.length_drop]
      omega
  | @statement _ cursor head final extents reads _ ih =>
    obtain ⟨limit, rfl⟩ := Nat.exists_eq_succ_of_ne_zero (Nat.ne_zero_of_lt lt)
    obtain ⟨passed, passes⟩ := reads.passes
    have shorter := reads.length_lt
    exact .joined rfl (reads.within enough)
      (ih (Nat.le_trans (budget_le passes) enough) (by omega))

/-- What the repetition of statements goes through is a sequence of statements. -/
theorem exists_statements (run : Runs budget (.call (.members .statement)) cursor final)
    (total : Nat) : ∃ extents, Statements total cursor extents := by
  induction budget generalizing cursor with
  | zero => cases run
  | succ budget ih =>
    rcases run.members_cases with finished | ⟨less, same, left, next⟩
    · exact ⟨[], .ending finished⟩
    · cases same
      rcases next with ⟨next, step, more⟩ | ⟨separated, -⟩
      · obtain ⟨extents, statements⟩ := ih more
        cases step with
        | semicolon _ holds => exact ⟨_, .semicolon holds statements⟩
        | joined _ plain one =>
          cases one with
          | seq attributes element =>
            exact ⟨_, .statement ⟨⟨left, plain⟩, attributes, element⟩ statements⟩
        | separated separated => cases separated
      · cases separated

theorem Statements.runs (h : Statements total cursor extents) :
    ∃ budget final, Runs budget (.call (.members .statement)) cursor final ∧ final.rest = [] := by
  induction h with
  | @ending cursor ending =>
    exact ⟨1, cursor, .call (.yes (Cursor.atEnd_iff.mpr ending) .done), ending⟩
  | @semicolon cursor _ holds _ ih =>
    obtain ⟨budget, final, run, ending⟩ := ih
    have step : Next .statement budget cursor (cursor.advance 1) := .semicolon rfl holds
    exact ⟨budget + 1, final, step.runs (rest_ne_of_semicolon holds) run, ending⟩
  | @statement budget cursor head final extents reads _ ih =>
    obtain ⟨budget', final', run, ending⟩ := ih
    have one : Runs budget (Rule.member .statement) cursor final :=
      .seq reads.attributes reads.element
    have step : Next .statement (max budget budget') cursor final :=
      .joined rfl reads.starts.plain (one.mono (Nat.le_max_left _ _))
    exact ⟨_, final', step.runs reads.starts.left (run.mono (Nat.le_max_right _ _)), ending⟩

-- ---------------------------------------------------------------------------
-- Blocks
-- ---------------------------------------------------------------------------

/-- A block is split at the statements that follow its inner attributes. -/
theorem split_iff_statements :
    Member.statement.split tokens = .ok extents ↔ ∃ budget first,
      Runs budget (.call .innerAttrs) (.start tokens) first
        ∧ Statements tokens.length first extents := by
  rw [split_eq_ok]
  constructor
  · rintro ⟨first, attributes, located⟩
    exact ⟨_, first, attributes, located.statements⟩
  · rintro ⟨budget, first, attributes, statements⟩
    obtain ⟨passed, passes⟩ := attributes.passes
    have le := attributes.length_le
    refine ⟨first, attributes.within_budget, statements.located (budget_le passes) ?_⟩
    rw [Cursor.start_rest] at le
    omega

/-- A block is accepted when it can be split. -/
theorem check_iff_split :
    Category.block.check tokens = .ok () ↔
      ∃ extents, Member.statement.split tokens = .ok extents := by
  rw [← Category.accepts_iff, Category.accepts_iff_accepts]
  constructor
  · rintro ⟨budget, final, run, -⟩
    cases run with
    | seq attributes members =>
      obtain ⟨extents, statements⟩ := exists_statements members tokens.length
      exact ⟨extents, split_iff_statements.mpr ⟨_, _, attributes, statements⟩⟩
  · rintro ⟨extents, split⟩
    obtain ⟨budget, first, attributes, statements⟩ := split_iff_statements.mp split
    obtain ⟨budget', final, members, ending⟩ := statements.runs
    exact ⟨max budget budget', final, .seq (attributes.mono (Nat.le_max_left _ _))
      (members.mono (Nat.le_max_right _ _)), ending⟩

end Member

end AliasExpansion
