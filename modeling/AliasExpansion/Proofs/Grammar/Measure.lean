-- SUMMARY: How many tokens a rule takes at least, and which rules pass the word `fn`.
import AliasExpansion.Proofs.Grammar.Runs

/-!
# What a run takes at least

`Rule.least` is computed from the text of a rule, with a table for nonterminals; the table is
consistent with the grammar (`Nonterminal.least_le`), so it bounds every run. The bound is about
runs that leave something: skipping stops silently at the end of the tokens.
-/

namespace AliasExpansion

-- ---------------------------------------------------------------------------
-- Number of tokens
-- ---------------------------------------------------------------------------

/-- A number of tokens that every run of the nonterminal takes. -/
def Nonterminal.least : Nonterminal → Nat
  | .genericArgs | .item | .fn | .typeAlias => 2
  | .path _ | .pathSegment _ | .genericArg | .qualifiedPath | .type _ | .fnPointer
  | .forLifetimes | .bounds _ | .bound | .binary _ _ | .unary _ | .primary _ | .pathExpr _
  | .condition | .ifExpr | .closure | .pattern | .patternAtom | .rangeBound | .useTree
  | .member _ => 1
  | _ => 0

namespace Rule

/-- A number of tokens that every run of the rule takes. A failing rule has no runs, so any number
    will do for it. -/
def least : Production → Nat
  | .done => 0
  | .fail _ => 8
  | .skip count => count
  | .seq first second => first.least + second.least
  | .ite _ yes no => min yes.least no.least
  | .call nonterminal => nonterminal.least
  | .within _ _ => 1

end Rule

theorem Nonterminal.least_le (nonterminal : Nonterminal) :
    nonterminal.least ≤ nonterminal.rule.least := by
  cases nonterminal with
  | path x | pathSegment x | type x | bounds x | primary x | pathExpr x | member x =>
    cases x <;> exact Nat.le_of_ble_eq_true rfl
  | _ => exact Nat.le_of_ble_eq_true rfl

namespace Rule

variable {budget : Nat} {rule : Production} {cursor final : Cursor}

theorem Runs.least_le (h : Runs budget rule cursor final) (left : final.rest ≠ []) :
    final.rest.length + rule.least ≤ cursor.rest.length := by
  induction h with
  | done => simp only [least, Nat.add_zero, Nat.le_refl]
  | skip =>
    rw [Cursor.advance_rest] at left ⊢
    have := List.length_drop.symm ▸ List.length_pos_iff.mpr left
    simp only [least, List.length_drop]
    omega
  | seq run₁ run₂ ih₁ ih₂ =>
    have second := ih₂ left
    have pos := List.length_pos_iff.mpr left
    have first := ih₁ (List.length_pos_iff.mp (by omega))
    simp only [least]
    omega
  | yes _ _ ih | no _ _ ih =>
    have := ih left
    simp only [least]
    omega
  | call _ ih =>
    have := ih left
    exact Nat.le_trans (Nat.add_le_add_left (Nonterminal.least_le _) _) this
  | within rest =>
    rw [Cursor.advance_rest, rest]
    simp only [least, List.drop_one, List.tail_cons, List.length_cons, Nat.le_refl]

/-- A rule that takes something does not stand still where something is left. -/
theorem Runs.length_lt (h : Runs budget rule cursor final) (left : cursor.rest ≠ [])
    (pos : 0 < rule.least) : final.rest.length < cursor.rest.length := by
  by_cases ending : final.rest = []
  · rw [ending]
    exact List.length_pos_iff.mpr left
  · have := h.least_le ending
    omega

end Rule

-- ---------------------------------------------------------------------------
-- The word `fn`
-- ---------------------------------------------------------------------------

def Token.isFnWord : Token → Bool
  | .ident name _ => name == "fn"
  | _ => false

namespace Rule

/-- Every run of the rule moves over the word `fn`. -/
def PassesFn (rule : Production) : Prop :=
  ∀ budget cursor final, Runs budget rule cursor final →
    ∃ passed, cursor.Passes passed final ∧ passed.any Token.isFnWord = true

theorem PassesFn.word : PassesFn (expectWord "fn") := by
  intro budget cursor final h
  cases h with
  | yes holds run =>
    cases run
    obtain ⟨previous, _ | ⟨token, rest⟩⟩ := cursor
    · cases holds
    · refine ⟨[token], Cursor.passes_advance 1 _, ?_⟩
      cases token with
      | ident name span =>
        have : name = "fn" := by simpa [Look.holds, TokenTest.holds] using holds
        simp only [List.any_cons, Token.isFnWord, this, beq_self_eq_true, Bool.true_or]
      | _ => cases holds
  | no _ run => cases run

theorem PassesFn.first {first second : Production} (fn : PassesFn first) :
    PassesFn (.seq first second) := by
  intro budget cursor final h
  cases h with
  | seq run₁ run₂ =>
    obtain ⟨passed, h₁, word⟩ := fn _ _ _ run₁
    obtain ⟨more, h₂⟩ := run₂.passes
    exact ⟨_, h₁.trans h₂, by rw [List.any_append, word, Bool.true_or]⟩

theorem PassesFn.second {first second : Production} (fn : PassesFn second) :
    PassesFn (.seq first second) := by
  intro budget cursor final h
  cases h with
  | seq run₁ run₂ =>
    obtain ⟨before, h₁⟩ := run₁.passes
    obtain ⟨passed, h₂, word⟩ := fn _ _ _ run₂
    exact ⟨_, h₁.trans h₂, by rw [List.any_append, word, Bool.or_true]⟩

theorem PassesFn.call {nonterminal : Nonterminal} (fn : PassesFn nonterminal.rule) :
    PassesFn (.call nonterminal) := by
  intro budget cursor final h
  cases h with
  | call run => exact fn _ _ _ run

theorem fn_passesFn : PassesFn (.call .fn) :=
  .call (.second (.second (.first .word)))

theorem fnPointer_passesFn : PassesFn (.call .fnPointer) :=
  .call (.second (.second (.first .word)))

end Rule

end AliasExpansion
