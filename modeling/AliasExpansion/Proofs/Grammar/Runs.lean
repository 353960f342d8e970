-- SUMMARY: What a run of the recognizer does to a cursor, as an inductive relation.
import AliasExpansion.Syntax.Check

/-!
# Runs of the recognizer

`Rule.Runs budget rule cursor final` says that the rule, with the given budget of nested calls,
moves one cursor to another. It is the graph of `Rule.run` under `Nonterminal.recognize`
(`Rule.runs_iff`), with one constructor for each kind of step, so that a property of runs is
proved by induction. A run depends on its budget only in whether it ends, and it moves over a
part of the tokens from left to right.
-/

namespace AliasExpansion

-- ---------------------------------------------------------------------------
-- Cursors
-- ---------------------------------------------------------------------------

namespace Cursor

@[simp] theorem start_rest (tokens : List Token) : (start tokens).rest = tokens := rfl

@[simp] theorem advance_zero (cursor : Cursor) : cursor.advance 0 = cursor := rfl

@[simp] theorem advance_nil (count : Nat) (previous : Option Token) :
    advance count { previous, rest := [] } = { previous, rest := [] } := by
  cases count <;> rfl

@[simp] theorem advance_cons (count : Nat) (previous : Option Token) (token : Token)
    (rest : List Token) :
    advance (count + 1) { previous, rest := token :: rest }
      = advance count { previous := some token, rest } := rfl

theorem advance_rest (count : Nat) (cursor : Cursor) :
    (cursor.advance count).rest = cursor.rest.drop count := by
  induction count generalizing cursor with
  | zero => rfl
  | succ count ih =>
    obtain ⟨previous, _ | ⟨token, rest⟩⟩ := cursor
    · rfl
    · exact ih _

theorem atEnd_iff {cursor : Cursor} : cursor.atEnd = true ↔ cursor.rest = [] := by
  unfold atEnd
  exact List.isEmpty_iff

/-- The cursor `final` is `cursor` moved over the tokens `passed`. -/
structure Passes (cursor : Cursor) (passed : List Token) (final : Cursor) : Prop where
  rest : cursor.rest = passed ++ final.rest
  previous : final.previous = passed.getLast?.or cursor.previous

theorem Passes.refl (cursor : Cursor) : cursor.Passes [] cursor :=
  ⟨rfl, rfl⟩

theorem Passes.trans {cursor middle final : Cursor} {first second : List Token}
    (h₁ : cursor.Passes first middle) (h₂ : middle.Passes second final) :
    cursor.Passes (first ++ second) final := by
  constructor
  · rw [h₁.rest, h₂.rest, List.append_assoc]
  · rw [h₂.previous, h₁.previous, List.getLast?_append, Option.or_assoc]

theorem passes_advance (count : Nat) (cursor : Cursor) :
    cursor.Passes (cursor.rest.take count) (cursor.advance count) := by
  induction count generalizing cursor with
  | zero => exact .refl cursor
  | succ count ih =>
    obtain ⟨previous, _ | ⟨token, rest⟩⟩ := cursor
    · exact .refl _
    · have step : Passes ⟨previous, token :: rest⟩ [token] ⟨some token, rest⟩ := ⟨rfl, rfl⟩
      exact step.trans (ih _)

end Cursor

-- ---------------------------------------------------------------------------
-- Runs
-- ---------------------------------------------------------------------------

namespace Rule

inductive Runs : Nat → Production → Cursor → Cursor → Prop where
  | done {budget cursor} : Runs budget .done cursor cursor
  | skip {budget count cursor} : Runs budget (.skip count) cursor (cursor.advance count)
  | seq {budget first second cursor middle final} (run₁ : Runs budget first cursor middle)
      (run₂ : Runs budget second middle final) : Runs budget (.seq first second) cursor final
  | yes {budget look yes no cursor final} (holds : look.holds cursor = true)
      (run : Runs budget yes cursor final) : Runs budget (.ite look yes no) cursor final
  | no {budget look yes no cursor final} (fails : look.holds cursor = false)
      (run : Runs budget no cursor final) : Runs budget (.ite look yes no) cursor final
  | call {budget nonterminal cursor final} (run : Runs budget nonterminal.rule cursor final) :
      Runs (budget + 1) (.call nonterminal) cursor final
  | within {budget delimiter inner cursor content span tail final}
      (rest : cursor.rest = .group delimiter content span :: tail)
      (run : Runs budget inner (.start content) final) (ending : final.rest = []) :
      Runs budget (.within delimiter inner) cursor (cursor.advance 1)

variable {budget : Nat} {rule : Production} {cursor final : Cursor}

theorem Runs.of_run {meaning : Nonterminal → Cursor → Recognition}
    (calls : ∀ nonterminal cursor final, meaning nonterminal cursor = .ok final →
      Runs budget (.call nonterminal) cursor final)
    (h : rule.run meaning cursor = .ok final) : Runs budget rule cursor final := by
  induction rule generalizing cursor final with
  | done => cases h; exact .done
  | fail want => cases h
  | skip count => cases h; exact .skip
  | seq first second ih₁ ih₂ =>
    simp only [run] at h
    split at h
    · next heq => exact .seq (ih₁ heq) (ih₂ h)
    · cases h
  | ite look yes no ih₁ ih₂ =>
    simp only [run] at h
    split at h
    · next holds => exact .yes holds (ih₁ h)
    · next fails => exact .no (by simpa using fails) (ih₂ h)
  | call nonterminal => exact calls _ _ _ h
  | within delimiter inner ih =>
    simp only [run] at h
    split at h
    · next rest =>
      split at h
      · next same =>
        split at h
        · next inside =>
          split at h
          · next ending =>
            cases h
            exact .within (same ▸ rest) (ih inside) (Cursor.atEnd_iff.mp ending)
          · cases h
        · cases h
      · cases h
    · cases h

theorem runs_iff :
    Runs budget rule cursor final ↔ rule.run (Nonterminal.recognize budget) cursor = .ok final := by
  constructor
  · intro h
    induction h with
    | done | skip => rfl
    | seq _ _ ih₁ ih₂ => simp only [run, ih₁, ih₂]
    | yes holds _ ih => simp only [run, holds, if_true, ih]
    | no fails _ ih => simp only [run, fails, Bool.false_eq_true, if_false, ih]
    | call _ ih => exact ih
    | within rest _ ending ih =>
      simp only [run, rest, if_true, ih, Cursor.atEnd_iff.mpr ending]
  · intro h
    induction budget generalizing rule cursor final with
    | zero => exact Runs.of_run (fun _ _ _ h => by cases h) h
    | succ budget ih => exact Runs.of_run (fun _ _ _ h => .call (ih h)) h

theorem Runs.mono {more : Nat} (h : Runs budget rule cursor final) (le : budget ≤ more) :
    Runs more rule cursor final := by
  induction h generalizing more with
  | done => exact .done
  | skip => exact .skip
  | seq _ _ ih₁ ih₂ => exact .seq (ih₁ le) (ih₂ le)
  | yes holds _ ih => exact .yes holds (ih le)
  | no fails _ ih => exact .no fails (ih le)
  | call _ ih =>
    obtain ⟨more, rfl⟩ : ∃ n, more = n + 1 := ⟨more - 1, by omega⟩
    exact .call (ih (by omega))
  | within rest _ ending ih => exact .within rest (ih le) ending

theorem Runs.unique {other : Nat} {final' : Cursor} (h : Runs budget rule cursor final)
    (h' : Runs other rule cursor final') : final = final' := by
  have run := runs_iff.mp (h.mono (Nat.le_max_left budget other))
  have run' := runs_iff.mp (h'.mono (Nat.le_max_right budget other))
  rw [run] at run'
  cases run'
  rfl

/-- A run moves its cursor over some of the tokens. -/
theorem Runs.passes (h : Runs budget rule cursor final) :
    ∃ passed, cursor.Passes passed final := by
  induction h with
  | done => exact ⟨[], .refl _⟩
  | skip => exact ⟨_, Cursor.passes_advance _ _⟩
  | seq _ _ ih₁ ih₂ =>
    obtain ⟨first, h₁⟩ := ih₁
    obtain ⟨second, h₂⟩ := ih₂
    exact ⟨first ++ second, h₁.trans h₂⟩
  | yes _ _ ih | no _ _ ih | call _ ih => exact ih
  | within => exact ⟨_, Cursor.passes_advance _ _⟩

theorem Runs.length_le (h : Runs budget rule cursor final) :
    final.rest.length ≤ cursor.rest.length := by
  obtain ⟨passed, hpass⟩ := h.passes
  rw [hpass.rest, List.length_append]
  omega

end Rule

-- ---------------------------------------------------------------------------
-- Acceptance
-- ---------------------------------------------------------------------------

/-- The rule takes all of the tokens. -/
def Rule.Accepts (rule : Production) (tokens : List Token) : Prop :=
  ∃ budget final, Rule.Runs budget rule (.start tokens) final ∧ final.rest = []

end AliasExpansion
