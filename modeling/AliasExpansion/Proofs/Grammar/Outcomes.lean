-- SUMMARY: Every run of the recognizer ends, and what it ends in does not depend on the budget.
import AliasExpansion.Proofs.Grammar.Budget
import AliasExpansion.Proofs.Outcome

/-!
# Outcomes of the recognizer

The budget never shows: whatever the tokens, a rule that is granted what the tokens ahead bring
ends in the same outcome with any larger budget, and a failure is that of a token, or the end, where
something else was wanted (`Rule.exists_outcome`). `Proofs/Grammar/Budget` says so of runs that
succeed. Here the induction is on the rules themselves, so it also covers runs that fail.
-/

namespace AliasExpansion

/-- Nothing else goes wrong than that a token, or the end, is not what was wanted. -/
def Orderly {α : Type} (outcome : Except SyntaxError α) : Prop :=
  ∀ error, outcome = .error error → ∃ want found, error.fault = .unexpected want found

theorem orderly_ok {α : Type} (result : α) : Orderly (.ok result) :=
  nofun

theorem orderly_unexpected {α : Type} (cursor : Cursor) (want : Want) :
    Orderly (.error (cursor.unexpected want) : Except SyntaxError α) := by
  rintro error ⟨⟩
  unfold Cursor.unexpected
  split
  · exact ⟨_, _, rfl⟩
  · exact ⟨_, _, rfl⟩

theorem Orderly.bind {α β : Type} {outcome : Except SyntaxError α} {next : α → Except SyntaxError β}
    (first : Orderly outcome) (second : ∀ result, outcome = .ok result → Orderly (next result)) :
    Orderly (outcome >>= next) := by
  intro error failed
  rcases Outcome.bind_eq_error.mp failed with failed | ⟨result, ended, failed⟩
  · exact first error failed
  · exact second result ended error failed

namespace Rule

/-- With this budget, or more, the rule ends in the outcome. -/
structure EndsIn (budget : Nat) (rule : Production) (cursor : Cursor) (outcome : Recognition) :
    Prop where
  ends : ∀ more, budget ≤ more → rule.run (Nonterminal.recognize more) cursor = outcome
  orderly : Orderly outcome

variable {budget more : Nat} {rule first second yes no : Production} {cursor : Cursor}
  {outcome : Recognition}

theorem run_within_none {delimiter : Delimiter} {inner : Production}
    {meaning : Nonterminal → Cursor → Recognition}
    (other : ∀ content span tail, cursor.rest ≠ .group delimiter content span :: tail) :
    (within delimiter inner).run meaning cursor
      = .error (cursor.unexpected (.delimiter delimiter)) := by
  unfold run
  split
  · next d content span tail rest =>
    refine if_neg fun same => other content span tail ?_
    rw [rest, same]
  · rfl

-- ---------------------------------------------------------------------------
-- One form of rule after the other
-- ---------------------------------------------------------------------------

namespace EndsIn

theorem seq (h₁ : ∃ outcome, EndsIn budget first cursor outcome)
    (h₂ : ∀ middle, Runs budget first cursor middle →
      ∃ outcome, EndsIn budget second middle outcome) :
    ∃ outcome, EndsIn budget (.seq first second) cursor outcome := by
  obtain ⟨outcome, h₁⟩ := h₁
  cases outcome with
  | error e => exact ⟨_, fun more le => by simp only [run, h₁.ends more le], h₁.orderly⟩
  | ok middle =>
    obtain ⟨outcome, h₂⟩ := h₂ middle (runs_iff.mpr (h₁.ends budget (Nat.le_refl budget)))
    refine ⟨outcome, fun more le => ?_, h₂.orderly⟩
    simp only [run, h₁.ends more le, h₂.ends more le]

theorem ite {look : Look}
    (h₁ : look.holds cursor = true → ∃ outcome, EndsIn budget yes cursor outcome)
    (h₂ : look.holds cursor = false → ∃ outcome, EndsIn budget no cursor outcome) :
    ∃ outcome, EndsIn budget (.ite look yes no) cursor outcome := by
  cases holds : look.holds cursor with
  | true =>
    obtain ⟨outcome, h⟩ := h₁ holds
    refine ⟨outcome, fun more le => ?_, h.orderly⟩
    simp only [run, holds, if_true, h.ends more le]
  | false =>
    obtain ⟨outcome, h⟩ := h₂ holds
    refine ⟨outcome, fun more le => ?_, h.orderly⟩
    simp only [run, holds, Bool.false_eq_true, if_false, h.ends more le]

theorem call {nonterminal : Nonterminal}
    (h : ∃ outcome, EndsIn budget nonterminal.rule cursor outcome) :
    ∃ outcome, EndsIn (budget + 1) (.call nonterminal) cursor outcome := by
  obtain ⟨outcome, h⟩ := h
  refine ⟨outcome, fun more le => ?_, h.orderly⟩
  obtain ⟨more, rfl⟩ := Nat.exists_eq_succ_of_ne_zero (Nat.ne_zero_of_lt le)
  exact h.ends more (Nat.le_of_succ_le_succ le)

theorem within {delimiter : Delimiter} {inner : Production}
    (h : ∀ content span tail, cursor.rest = .group delimiter content span :: tail →
      ∃ outcome, EndsIn budget inner (.start content) outcome) :
    ∃ outcome, EndsIn budget (.within delimiter inner) cursor outcome := by
  by_cases group : ∃ content span tail, cursor.rest = .group delimiter content span :: tail
  · obtain ⟨content, span, tail, rest⟩ := group
    obtain ⟨outcome, h⟩ := h content span tail rest
    cases outcome with
    | error e =>
      refine ⟨.error e, fun more le => ?_, h.orderly⟩
      simp only [run, rest, if_true, h.ends more le]
    | ok final =>
      cases ending : final.atEnd with
      | true =>
        refine ⟨.ok (cursor.advance 1), fun more le => ?_, orderly_ok _⟩
        simp only [run, rest, if_true, h.ends more le, ending]
      | false =>
        refine ⟨_, fun more le => ?_, orderly_unexpected final .ending⟩
        simp only [run, rest, if_true, h.ends more le, ending, Bool.false_eq_true, if_false]
  · refine ⟨_, fun more le => ?_, orderly_unexpected cursor (.delimiter delimiter)⟩
    exact run_within_none fun content span tail rest => group ⟨content, span, tail, rest⟩

end EndsIn

-- ---------------------------------------------------------------------------
-- Every rule
-- ---------------------------------------------------------------------------

open Grammar

/-- A rule ends if the calls do that it can make. -/
theorem ends_of_calls
    (calls : ∀ (nonterminal : Nonterminal) cursor,
      callDepth * Token.weights cursor.rest + nonterminal.rank < budget →
        ∃ outcome, EndsIn budget (.call nonterminal) cursor outcome)
    {ahead : Bool} {bound : Nat} (leads : rule.leading ahead bound = true)
    (left : ahead = true → cursor.rest ≠ [])
    (enough : callDepth * Token.weights cursor.rest + bound ≤ budget) :
    ∃ outcome, EndsIn budget rule cursor outcome := by
  induction rule generalizing cursor ahead bound with
  | done | skip => exact ⟨_, fun _ _ => rfl, orderly_ok _⟩
  | fail want => exact ⟨_, fun _ _ => rfl, orderly_unexpected cursor want⟩
  | seq first second ih₁ ih₂ =>
    obtain ⟨leads₁, leads₂⟩ := Bool.and_eq_true_iff.mp leads
    refine EndsIn.seq (ih₁ leads₁ left enough) fun middle run₁ => ?_
    obtain ⟨ahead', bound', leads₂, left', le⟩ := run₁.leads_on leads₂ left
    exact ih₂ leads₂ left' (Nat.le_trans le enough)
  | ite look yes no ih₁ ih₂ =>
    obtain ⟨leads₁, leads₂⟩ := Bool.and_eq_true_iff.mp leads
    exact EndsIn.ite (fun holds => ih₁ leads₁ (Look.rest_ne_or left holds) enough)
      fun _ => ih₂ leads₂ left enough
  | call nonterminal =>
    have lt := of_decide_eq_true leads
    exact calls nonterminal cursor (by omega)
  | within delimiter inner ih =>
    refine EndsIn.within fun content span tail rest => ih (leading_callDepth false inner) nofun ?_
    rw [rest] at enough
    rw [Cursor.start_rest]
    exact Nat.le_trans content_bound (Nat.le_of_add_right_le enough)

theorem ends_of_leading {ahead : Bool} {bound : Nat} (leads : rule.leading ahead bound = true)
    (left : ahead = true → cursor.rest ≠ [])
    (enough : callDepth * Token.weights cursor.rest + bound ≤ budget) :
    ∃ outcome, EndsIn budget rule cursor outcome := by
  induction budget generalizing rule cursor ahead bound with
  | zero => exact ends_of_calls (fun _ _ lt => absurd lt (Nat.not_lt_zero _)) leads left enough
  | succ budget ih =>
    refine ends_of_calls (fun nonterminal cursor lt => ?_) leads left enough
    exact EndsIn.call (ih nonterminal.rank_leading nofun (Nat.le_of_lt_succ lt))

/-- Every rule ends in one outcome with the budget that the tokens ahead bring, and with any
    more. -/
theorem exists_outcome (rule : Production) (cursor : Cursor) :
    ∃ outcome, EndsIn (Grammar.budget cursor.rest) rule cursor outcome :=
  ends_of_leading (leading_callDepth false rule) nofun (Nat.le_of_eq (Nat.mul_succ _ _).symm)

end Rule

end AliasExpansion
