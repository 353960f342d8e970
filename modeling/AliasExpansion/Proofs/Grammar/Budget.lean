-- SUMMARY: The budget that is granted for recognizing a token list always suffices.
import AliasExpansion.Proofs.Grammar.Measure

/-!
# The budget suffices

A rule that succeeds with some budget succeeds with the one that `Category.check` grants. The
calls that a rule makes before it has taken a token are ranked: `Nonterminal.rank` bounds how many
such calls stand inside one another, and the ranks are consistent with the grammar
(`Nonterminal.rank_leading`). Once a token is taken the chain of calls starts anew, with the share
of the budget that the token brings.
-/

namespace AliasExpansion

-- ---------------------------------------------------------------------------
-- Rules that take something
-- ---------------------------------------------------------------------------

/-- The lookahead does not hold at the end. -/
def Look.needsToken : Look → Bool
  | .token _ _ | .fn _ => true
  | .mark _ chars => !chars.isEmpty
  | .atEnd | .afterBrace | .not _ => false
  | .and left right => left.needsToken || right.needsToken
  | .or left right => left.needsToken && right.needsToken

theorem Look.rest_ne {look : Look} (needs : look.needsToken = true) {cursor : Cursor}
    (holds : look.holds cursor = true) : cursor.rest ≠ [] := by
  induction look with
  | token offset test =>
    intro ending
    rw [Look.holds, ending] at holds
    cases holds
  | mark offset chars =>
    intro ending
    rw [Look.holds, ending, List.drop_nil] at holds
    rcases chars with _ | ⟨_, _ | _⟩
    · cases needs
    · cases holds
    · cases holds
  | fn qualifiers =>
    intro ending
    rw [Look.holds, ending] at holds
    cases holds
  | atEnd | afterBrace | not => cases needs
  | and left right ih₁ ih₂ =>
    obtain ⟨holdsLeft, holdsRight⟩ := Bool.and_eq_true_iff.mp holds
    rcases Bool.or_eq_true_iff.mp needs with needs | needs
    · exact ih₁ needs holdsLeft
    · exact ih₂ needs holdsRight
  | or left right ih₁ ih₂ =>
    obtain ⟨needsLeft, needsRight⟩ := Bool.and_eq_true_iff.mp needs
    rcases Bool.or_eq_true_iff.mp holds with holds | holds
    · exact ih₁ needsLeft holds
    · exact ih₂ needsRight holds

/-- Something is there if that was known, or if a lookahead that holds needs it. -/
theorem Look.rest_ne_or {look : Look} {ahead : Bool} {cursor : Cursor}
    (left : ahead = true → cursor.rest ≠ []) (holds : look.holds cursor = true)
    (known : (ahead || look.needsToken) = true) : cursor.rest ≠ [] :=
  (Bool.or_eq_true_iff.mp known).elim left fun needs => rest_ne needs holds

namespace Rule

/-- The rule fails at the end. -/
def blocked : Production → Bool
  | .fail _ | .within _ _ => true
  | .done | .skip _ => false
  | .seq first second => first.blocked || second.blocked
  | .ite look yes no => (look.needsToken || yes.blocked) && no.blocked
  | .call nonterminal => decide (0 < nonterminal.least)

end Rule

theorem Nonterminal.blocked {nonterminal : Nonterminal} (pos : 0 < nonterminal.least) :
    nonterminal.rule.blocked = true := by
  cases nonterminal with
  | path x | pathSegment x | type x | bounds x | unary x | primary x | pathExpr x | member x
  | binary n x => cases x <;> rfl
  | genericArgs | item | fn | typeAlias | genericArg | qualifiedPath | fnPointer | forLifetimes
  | bound | condition | ifExpr | closure | pattern | patternAtom | rangeBound | useTree => rfl
  | _ => cases pos

namespace Rule

variable {budget : Nat} {rule : Production} {cursor final : Cursor}

theorem Runs.rest_ne (h : Runs budget rule cursor final) (blocked : rule.blocked = true) :
    cursor.rest ≠ [] := by
  induction h with
  | done | skip => cases blocked
  | seq run₁ run₂ ih₁ ih₂ =>
    rcases Bool.or_eq_true_iff.mp blocked with blocked | blocked
    · exact ih₁ blocked
    · intro ending
      have := run₁.length_le
      rw [ending, List.length_nil] at this
      exact ih₂ blocked (List.length_eq_zero_iff.mp (by omega))
  | yes holds _ ih =>
    rcases Bool.or_eq_true_iff.mp (Bool.and_eq_true_iff.mp blocked).1 with needs | blocked
    · exact Look.rest_ne needs holds
    · exact ih blocked
  | no _ _ ih => exact ih (Bool.and_eq_true_iff.mp blocked).2
  | call _ ih => exact ih (Nonterminal.blocked (of_decide_eq_true blocked))
  | within rest =>
    rw [rest]
    exact List.cons_ne_nil _ _

/-- Every run of the rule takes something. If `ahead`, it is known that something is there. -/
def takes (ahead : Bool) (rule : Production) : Bool :=
  decide (0 < rule.least) && (ahead || rule.blocked)

theorem Runs.length_lt_of_takes {ahead : Bool} (h : Runs budget rule cursor final)
    (takes : rule.takes ahead = true) (left : ahead = true → cursor.rest ≠ []) :
    final.rest.length < cursor.rest.length := by
  obtain ⟨pos, cond⟩ := Bool.and_eq_true_iff.mp takes
  refine h.length_lt ?_ (of_decide_eq_true pos)
  rcases Bool.or_eq_true_iff.mp cond with known | blocked
  · exact left known
  · exact h.rest_ne blocked

end Rule

-- ---------------------------------------------------------------------------
-- Ranks
-- ---------------------------------------------------------------------------

/-- How many calls stand inside one another before the nonterminal takes a token, at most. -/
def Nonterminal.rank : Nonterminal → Nat
  | .path _ | .fn | .genericParams | .fieldPatterns | .list .useTree | .member .namedField
  | .member .variant => 1
  | .type _ | .bound | .pathExpr _ | .patternAtom | .rangeBound | .item | .member .assocItem
  | .members .namedField | .members .variant => 2
  | .genericArg | .fnPointerParams | .bounds _ | .primary _ | .closureParams | .pattern | .fnParams
  | .wherePredicates | .list .type | .member .tupleField | .members .assocItem => 3
  | .genericArgList | .unary _ | .arms | .list .pattern | .members .tupleField => 4
  | .binary _ _ => 5
  | .condition | .list .expression | .member .statement => 6
  | .members .statement => 7
  | _ => 0

theorem Nonterminal.rank_lt (nonterminal : Nonterminal) : nonterminal.rank < Grammar.callDepth := by
  cases nonterminal with
  | list x | member x | members x => cases x <;> exact Nat.le_of_ble_eq_true rfl
  | _ => exact Nat.le_of_ble_eq_true rfl

namespace Rule

/-- The calls that the rule makes before it has taken something have ranks below `bound`. If
    `ahead`, it is known that something is there. -/
def leading (ahead : Bool) (bound : Nat) : Production → Bool
  | .seq first second =>
    first.leading ahead bound && (first.takes ahead || second.leading ahead bound)
  | .ite look yes no =>
    yes.leading (ahead || look.needsToken) bound && no.leading ahead bound
  | .call nonterminal => decide (nonterminal.rank < bound)
  | _ => true

theorem leading_callDepth (ahead : Bool) (rule : Production) :
    rule.leading ahead Grammar.callDepth = true := by
  induction rule generalizing ahead with
  | seq first second ih₁ ih₂ => simp only [leading, ih₁, ih₂, Bool.or_true, Bool.and_true]
  | ite look yes no ih₁ ih₂ => simp only [leading, ih₁, ih₂, Bool.and_true]
  | call nonterminal => exact decide_eq_true nonterminal.rank_lt
  | _ => rfl

end Rule

theorem Nonterminal.rank_leading (nonterminal : Nonterminal) :
    nonterminal.rule.leading false nonterminal.rank = true := by
  cases nonterminal with
  | binaryTail minPrecedence position =>
    match minPrecedence with
    | 0 | 1 | 2 | 3 | 4 | 5 | 6 | 7 | 8 | 9 | 10 | 11 | n + 12 => rfl
  | path x | pathTail x | pathSegment x | type x | bounds x | unary x | primary x | pathExpr x
  | list x | member x | members x | binary n x => cases x <;> rfl
  | _ => rfl

-- ---------------------------------------------------------------------------
-- Budget
-- ---------------------------------------------------------------------------

theorem Token.weights_append (before after : List Token) :
    weights (before ++ after) = weights before + weights after := by
  induction before with
  | nil => exact (Nat.zero_add _).symm
  | cons token before ih => rw [List.cons_append, weights, weights, ih, Nat.add_assoc]

theorem Cursor.Passes.weights_lt {cursor final : Cursor} {passed : List Token}
    (h : cursor.Passes passed final) (shorter : final.rest.length < cursor.rest.length) :
    Token.weights final.rest < Token.weights cursor.rest := by
  rw [h.rest, Token.weights_append]
  cases passed with
  | nil =>
    rw [h.rest] at shorter
    exact absurd shorter (Nat.lt_irrefl _)
  | cons token passed =>
    have := token.weight_pos
    rw [Token.weights]
    omega

namespace Rule

variable {budget : Nat} {rule : Production} {cursor final : Cursor}

/-- Behind the first of two rules something has been taken, or the second rule still leads. -/
theorem Runs.shorter_or_leads {first second : Production} {middle : Cursor} {ahead : Bool}
    {bound : Nat} (run : Runs budget first cursor middle)
    (leads : (first.takes ahead || second.leading ahead bound) = true)
    (left : ahead = true → cursor.rest ≠ []) :
    middle.rest.length < cursor.rest.length
      ∨ middle.rest = cursor.rest ∧ second.leading ahead bound = true := by
  by_cases shorter : middle.rest.length < cursor.rest.length
  · exact .inl shorter
  · obtain ⟨passed, passes⟩ := run.passes
    have same : middle.rest = cursor.rest := by
      have eq := passes.rest
      rw [eq, List.length_append] at shorter
      rw [eq, List.length_eq_zero_iff.mp (show passed.length = 0 by omega), List.nil_append]
    rcases Bool.or_eq_true_iff.mp leads with takes | leads
    · exact absurd (run.length_lt_of_takes takes left) shorter
    · exact .inr ⟨same, leads⟩

open Grammar in
/-- The second of two rules needs no more than both of them were granted. -/
theorem Runs.leads_on {first second : Production} {middle : Cursor} {ahead : Bool} {bound : Nat}
    (run : Runs budget first cursor middle)
    (leads : (first.takes ahead || second.leading ahead bound) = true)
    (left : ahead = true → cursor.rest ≠ []) :
    ∃ ahead' bound', second.leading ahead' bound' = true ∧ (ahead' = true → middle.rest ≠ [])
      ∧ callDepth * Token.weights middle.rest + bound'
        ≤ callDepth * Token.weights cursor.rest + bound := by
  rcases run.shorter_or_leads leads left with shorter | ⟨same, leads⟩
  · obtain ⟨passed, passes⟩ := run.passes
    have weight := Nat.mul_le_mul_left callDepth (passes.weights_lt shorter)
    rw [Nat.mul_succ] at weight
    exact ⟨false, callDepth, leading_callDepth false second, nofun, by omega⟩
  · exact ⟨ahead, bound, leads, fun known => same ▸ left known, same ▸ Nat.le_refl _⟩

open Grammar in
/-- A group brings what its content needs. -/
theorem content_bound {delimiter : Delimiter} {content tail : List Token} {span : Span} :
    callDepth * Token.weights content + callDepth
      ≤ callDepth * Token.weights (.group delimiter content span :: tail) := by
  rw [Token.weights, Token.weight, ← Nat.mul_succ]
  exact Nat.mul_le_mul_left callDepth (Nat.le_add_right _ _)

open Grammar in
/-- A run needs no more than what the tokens ahead bring and the rank of its first calls. -/
theorem Runs.within_bound (h : Runs budget rule cursor final) {ahead : Bool} {bound : Nat}
    (leads : rule.leading ahead bound = true) (left : ahead = true → cursor.rest ≠ []) :
    Runs (callDepth * Token.weights cursor.rest + bound) rule cursor final := by
  induction h generalizing ahead bound with
  | done => exact .done
  | skip => exact .skip
  | seq run₁ run₂ ih₁ ih₂ =>
    obtain ⟨leads₁, leads₂⟩ := Bool.and_eq_true_iff.mp leads
    obtain ⟨ahead', bound', leads₂, left', le⟩ := run₁.leads_on leads₂ left
    exact .seq (ih₁ leads₁ left) ((ih₂ leads₂ left').mono le)
  | yes holds _ ih =>
    exact .yes holds (ih (Bool.and_eq_true_iff.mp leads).1 (Look.rest_ne_or left holds))
  | no fails _ ih => exact .no fails (ih (Bool.and_eq_true_iff.mp leads).2 left)
  | @call _ nonterminal cursor final _ ih =>
    have lt := of_decide_eq_true leads
    have run := ih nonterminal.rank_leading (fun h => by cases h)
    exact (Runs.call run).mono (by omega)
  | @within _ delimiter inner cursor content span tail final rest run ending ih =>
    refine .within rest ((ih (leading_callDepth false inner) nofun).mono ?_) ending
    rw [Cursor.start_rest, rest]
    exact Nat.le_trans content_bound (Nat.le_add_right _ _)

/-- The granted budget suffices for every run. -/
theorem Runs.within_budget (h : Runs budget rule cursor final) :
    Runs (Grammar.budget cursor.rest) rule cursor final :=
  (h.within_bound (leading_callDepth false rule) (fun h => by cases h)).mono
    (Nat.le_of_eq (Nat.mul_succ _ _).symm)

end Rule

/-- A category accepts what its rule takes, whatever the budget. -/
theorem Category.accepts_iff_accepts {category : Category} {tokens : List Token} :
    category.accepts tokens = true ↔ category.rule.Accepts tokens := by
  rw [accepts_iff, check]
  constructor
  · intro h
    split at h
    · next final run =>
      split at h
      · next ending => exact ⟨_, final, Rule.runs_iff.mpr run, Cursor.atEnd_iff.mp ending⟩
      · cases h
    · cases h
  · rintro ⟨budget, final, run, ending⟩
    have run := Rule.runs_iff.mp run.within_budget
    rw [Cursor.start_rest] at run
    rw [run]
    simp only [Cursor.atEnd_iff.mpr ending, if_true]

end AliasExpansion
