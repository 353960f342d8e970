-- SUMMARY: A run does not depend on the token before it.
import AliasExpansion.Proofs.Grammar.Measure

/-!
# The token before a run

The grammar looks back at one point only: after an expression, for the body that ends it. So no
rule looks back before it has taken something, and a run is the same whatever token stands before
its start.
-/

namespace AliasExpansion

def Look.looksBack : Look → Bool
  | .afterBrace => true
  | .not look => look.looksBack
  | .and left right | .or left right => left.looksBack || right.looksBack
  | _ => false

theorem Look.holds_of_rest {look : Look} (fresh : look.looksBack = false) {cursor other : Cursor}
    (same : other.rest = cursor.rest) : look.holds other = look.holds cursor := by
  induction look with
  | afterBrace => cases fresh
  | not look ih => simp only [holds, ih fresh]
  | and left right ih₁ ih₂ | or left right ih₁ ih₂ =>
    obtain ⟨freshLeft, freshRight⟩ := Bool.or_eq_false_iff.mp fresh
    simp only [holds, ih₁ freshLeft, ih₂ freshRight]
  | atEnd => simp only [holds, Cursor.atEnd, same]
  | token | mark | fn => simp only [holds, same]

namespace Rule

/-- The rule does not look back before it has taken something. -/
def fresh : Production → Bool
  | .seq first second => first.fresh && (decide (0 < first.least) || second.fresh)
  | .ite look yes no => !look.looksBack && yes.fresh && no.fresh
  | _ => true

end Rule

theorem Nonterminal.fresh (nonterminal : Nonterminal) : nonterminal.rule.fresh = true := by
  cases nonterminal with
  | binaryTail minPrecedence position =>
    match minPrecedence with
    | 0 | 1 | 2 | 3 | 4 | 5 | 6 | 7 | 8 | 9 | 10 | 11 | n + 12 => rfl
  | path x | pathTail x | pathSegment x | type x | bounds x | unary x | primary x | pathExpr x
  | list x | member x | members x | binary n x => cases x <;> rfl
  | _ => rfl

/-- Two cursors that move over the same tokens, and over some, come to the same cursor. -/
theorem Cursor.Passes.final_eq {cursor other final final' : Cursor} {passed passed' : List Token}
    (h : cursor.Passes passed final) (h' : other.Passes passed' final')
    (same : other.rest = cursor.rest) (same' : final'.rest = final.rest)
    (moved : final.rest ≠ cursor.rest) : final' = final := by
  obtain rfl : passed' = passed := by
    have := h'.rest.symm.trans (same.trans h.rest)
    rw [same'] at this
    exact (List.append_left_inj _).mp this
  cases final with
  | mk previous rest =>
    cases final' with
    | mk previous' rest' =>
      obtain rfl : rest' = rest := same'
      have ne : passed' ≠ [] := by
        rintro rfl
        exact moved h.rest.symm
      rw [Cursor.mk.injEq]
      refine ⟨?_, rfl⟩
      have h₁ : previous = _ := h.previous
      have h₂ : previous' = _ := h'.previous
      rw [h₁, h₂, List.getLast?_eq_some_getLast ne]
      rfl

namespace Rule

variable {budget : Nat} {rule : Production} {cursor final other : Cursor}

theorem Runs.fresh_rest (run : Runs budget rule cursor final) (fresh : rule.fresh = true)
    (left : cursor.rest ≠ []) (same : other.rest = cursor.rest) :
    ∃ final', Runs budget rule other final' ∧ final'.rest = final.rest := by
  induction run generalizing other with
  | done => exact ⟨other, .done, same⟩
  | skip => exact ⟨_, .skip, by rw [Cursor.advance_rest, Cursor.advance_rest, same]⟩
  | @seq _ first second cursor middle final run₁ run₂ ih₁ ih₂ =>
    obtain ⟨firstFresh, rest⟩ := Bool.and_eq_true_iff.mp fresh
    obtain ⟨middle', run₁', same'⟩ := ih₁ firstFresh left same
    by_cases moved : middle.rest = cursor.rest
    · have still : ¬ 0 < first.least := fun pos => by
        have := run₁.length_lt left pos
        rw [moved] at this
        exact Nat.lt_irrefl _ this
      rw [decide_eq_false still, Bool.false_or] at rest
      obtain ⟨final', run₂', same''⟩ := ih₂ rest (moved ▸ left) same'
      exact ⟨final', .seq run₁' run₂', same''⟩
    · obtain ⟨passed, h⟩ := run₁.passes
      obtain ⟨passed', h'⟩ := run₁'.passes
      obtain rfl := h.final_eq h' same same' moved
      exact ⟨final, .seq run₁' run₂, rfl⟩
  | yes holds _ ih =>
    obtain ⟨both, -⟩ := Bool.and_eq_true_iff.mp fresh
    obtain ⟨forward, yesFresh⟩ := Bool.and_eq_true_iff.mp both
    obtain ⟨final', run', same'⟩ := ih yesFresh left same
    have forward := Bool.not_eq_true' _ ▸ forward
    exact ⟨final', .yes ((Look.holds_of_rest forward same).trans holds) run', same'⟩
  | no fails _ ih =>
    obtain ⟨both, noFresh⟩ := Bool.and_eq_true_iff.mp fresh
    obtain ⟨forward, -⟩ := Bool.and_eq_true_iff.mp both
    obtain ⟨final', run', same'⟩ := ih noFresh left same
    have forward := Bool.not_eq_true' _ ▸ forward
    exact ⟨final', .no ((Look.holds_of_rest forward same).trans fails) run', same'⟩
  | @call _ nonterminal _ _ _ ih =>
    obtain ⟨final', run', same'⟩ := ih nonterminal.fresh left same
    exact ⟨final', .call run', same'⟩
  | within rest run ending =>
    refine ⟨_, .within (same.trans rest) run ending, ?_⟩
    rw [Cursor.advance_rest, Cursor.advance_rest, same]

/-- A run that takes something does not depend on the token before it. -/
theorem Runs.previous_irrelevant (run : Runs budget rule cursor final) (fresh : rule.fresh = true)
    (left : cursor.rest ≠ []) (same : other.rest = cursor.rest)
    (moved : final.rest ≠ cursor.rest) : Runs budget rule other final := by
  obtain ⟨final', run', same'⟩ := run.fresh_rest fresh left same
  obtain ⟨passed, h⟩ := run.passes
  obtain ⟨passed', h'⟩ := run'.passes
  exact h.final_eq h' same same' moved ▸ run'

end Rule

end AliasExpansion
