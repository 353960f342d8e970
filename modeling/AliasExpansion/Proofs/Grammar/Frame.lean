-- SUMMARY: A run over the tokens before a seam does not depend on the tokens behind it.
import AliasExpansion.Proofs.Grammar.Lookahead
import AliasExpansion.Proofs.Grammar.Measure

/-!
# Frames

A run that ends before a seam is the same run when the tokens behind the seam change, provided
that every lookahead on its way gives the same answer. `Rule.Framed` collects this condition over
the text of a rule, and `Runs.frame` carries a run over. A lookahead that would change its answer
does no harm where the run then takes tokens from behind the seam, and so does not end before it.
How many tokens are left before the seam when a part of a rule ends is its `slack`.
-/

namespace AliasExpansion

namespace Rule

-- ---------------------------------------------------------------------------
-- The frame of a run
-- ---------------------------------------------------------------------------

/-- Where a run of the branch ends before the seam, the lookahead answers alike on both lists. -/
def Keeps (P : List Token → Prop) (old new : List Token) (slack : Nat) (look : Look)
    (branch : Production) (answer : Bool) : Prop :=
  ∀ budget previous previous' before after, P after → slack ≤ after.length →
    Runs budget branch ⟨previous, before ++ old⟩ ⟨previous', after ++ old⟩ →
    look.holds ⟨previous, before ++ old⟩ = answer → look.holds ⟨previous, before ++ new⟩ = answer

/-- Every lookahead of the rule keeps its answer. -/
def Framed (P : List Token → Prop) (old new : List Token) (calls : Nat → Nonterminal → Prop) :
    Nat → Production → Prop
  | slack, .seq first second =>
    Framed P old new calls (slack + second.least) first ∧ Framed P old new calls slack second
  | slack, .ite look yes no =>
    (Keeps P old new slack look yes true ∧ Keeps P old new slack look no false) ∧
      Framed P old new calls slack yes ∧ Framed P old new calls slack no
  | slack, .call nonterminal => calls slack nonterminal
  | _, _ => True

theorem advance_append {count : Nat} {before : List Token} (le : count ≤ before.length)
    (previous : Option Token) (rest : List Token) :
    Cursor.advance count ⟨previous, before ++ rest⟩
      = ⟨(before.take count).getLast?.or previous, before.drop count ++ rest⟩ := by
  induction count generalizing before previous with
  | zero => rfl
  | succ count ih =>
    match before with
    | [] => cases le
    | token :: before =>
      have le : count ≤ before.length := by simpa using le
      rw [List.cons_append, Cursor.advance_cons, ih le]
      rw [List.take_succ_cons, List.getLast?_cons, List.drop_succ_cons]
      cases (before.take count).getLast? <;> rfl

section Seam

variable {count : Nat} {previous previous' : Option Token} {before after old : List Token}

/-- A cursor that stays in front of something has not been moved over the seam. -/
theorem le_of_advance (left : after ++ old ≠ [])
    (h : Cursor.mk previous' (after ++ old) = Cursor.advance count ⟨previous, before ++ old⟩) :
    count ≤ before.length := by
  have rest := congrArg (List.length ∘ Cursor.rest) h
  have pos := List.length_pos_iff.mpr left
  simp only [Function.comp_apply, Cursor.advance_rest, List.length_append, List.length_drop]
    at rest pos
  omega

/-- Tokens before the seam are skipped alike whatever is behind it. -/
theorem advance_frame (le : count ≤ before.length)
    (h : Cursor.mk previous' (after ++ old) = Cursor.advance count ⟨previous, before ++ old⟩)
    (new : List Token) :
    Cursor.mk previous' (after ++ new) = Cursor.advance count ⟨previous, before ++ new⟩ := by
  rw [advance_append le, Cursor.mk.injEq, List.append_left_inj] at h
  rw [advance_append le, h.1, h.2]

/-- The first token before the seam stays whatever is behind it. -/
theorem cons_frame {token : Token} {tail : List Token} (pos : 1 ≤ before.length)
    (h : before ++ old = token :: tail) (new : List Token) :
    ∃ tail', before ++ new = token :: tail' := by
  match before with
  | head :: before =>
    obtain ⟨rfl, -⟩ := List.cons.inj h
    exact ⟨before ++ new, rfl⟩

end Seam

/-- A run that ends before the seam passes tokens before the seam only. -/
theorem Runs.passed_before {budget : Nat} {rule : Production} {previous previous' : Option Token}
    {before after old : List Token}
    (run : Runs budget rule ⟨previous, before ++ old⟩ ⟨previous', after ++ old⟩) :
    ∃ passed, before = passed ++ after
      ∧ Cursor.Passes ⟨previous, before ++ old⟩ passed ⟨previous', after ++ old⟩ := by
  obtain ⟨passed, hpassed⟩ := run.passes
  have rest := hpassed.rest
  rw [← List.append_assoc, List.append_left_inj] at rest
  exact ⟨passed, rest, hpassed⟩

theorem Runs.frame {P : List Token → Prop} {old new : List Token}
    {calls : Nat → Nonterminal → Prop} (up : ∀ front back, P back → P (front ++ back))
    (table : ∀ slack nonterminal, calls slack nonterminal →
      ∃ less ≤ slack, Framed P old new calls less nonterminal.rule)
    (left : ∀ after, P after → after ++ old ≠ []) {budget : Nat} {rule : Production}
    {previous previous' : Option Token} {before after : List Token} {slack : Nat}
    (run : Runs budget rule ⟨previous, before ++ old⟩ ⟨previous', after ++ old⟩)
    (le : slack ≤ after.length) (ok : P after) (framed : Framed P old new calls slack rule) :
    Runs budget rule ⟨previous, before ++ new⟩ ⟨previous', after ++ new⟩ := by
  generalize hcursor : Cursor.mk previous (before ++ old) = cursor at run
  generalize hfinal : Cursor.mk previous' (after ++ old) = final at run
  induction run generalizing previous previous' before after slack with
  | done =>
    subst hcursor
    simp only [Cursor.mk.injEq, List.append_left_inj] at hfinal
    obtain ⟨rfl, rfl⟩ := hfinal
    exact .done
  | skip =>
    subst hcursor
    rw [advance_frame (le_of_advance (left _ ok) hfinal) hfinal new]
    exact .skip
  | @seq _ first second cursor middle final run₁ run₂ ih₁ ih₂ =>
    subst hcursor hfinal
    obtain ⟨passed, hpassed⟩ := run₂.passes
    obtain ⟨previous'', rest⟩ := middle
    have split : rest = (passed ++ after) ++ old := by
      rw [List.append_assoc]
      exact hpassed.rest
    subst split
    have taken := run₂.least_le (left _ ok)
    simp only [List.length_append] at taken
    have enough : slack + second.least ≤ (passed ++ after).length := by
      rw [List.length_append]
      omega
    exact .seq (ih₁ enough (up _ _ ok) framed.1 rfl rfl) (ih₂ le ok framed.2 rfl rfl)
  | yes holds run ih =>
    subst hcursor hfinal
    exact .yes (framed.1.1 _ _ _ _ _ ok le run holds) (ih le ok framed.2.1 rfl rfl)
  | no fails run ih =>
    subst hcursor hfinal
    exact .no (framed.1.2 _ _ _ _ _ ok le run fails) (ih le ok framed.2.2 rfl rfl)
  | call run ih =>
    obtain ⟨less, less_le, framed⟩ := table _ _ framed
    exact .call (ih (Nat.le_trans less_le le) ok framed hcursor hfinal)
  | within rest run ending =>
    subst hcursor
    have pos := le_of_advance (left _ ok) hfinal
    obtain ⟨tail, rest⟩ := cons_frame pos rest new
    rw [advance_frame pos hfinal new]
    exact .within rest run ending

-- ---------------------------------------------------------------------------
-- Behind a barrier
-- ---------------------------------------------------------------------------

/-- No lookahead of the rule sees over a barrier. -/
def closed : Production → Bool
  | .seq first second => first.closed && second.closed
  | .ite look yes no =>
    (List.range (look.reach + 1)).all (fun count => (look.peek .barrier count).settled)
      && yes.closed && no.closed
  | _ => true

end Rule

theorem Nonterminal.closed (nonterminal : Nonterminal) : nonterminal.rule.closed = true := by
  cases nonterminal with
  | binaryTail minPrecedence position =>
    match minPrecedence with
    | 0 | 1 | 2 | 3 | 4 | 5 | 6 | 7 | 8 | 9 | 10 | 11 | n + 12 => rfl
  | path x | pathTail x | pathSegment x | type x | bounds x | unary x | primary x | pathExpr x
  | list x | member x | members x | binary n x => cases x <;> rfl
  | _ => rfl

/-- What stands behind a barrier does not matter to a lookahead. -/
theorem Look.holds_of_barrier {look : Look}
    (closed : (List.range (look.reach + 1)).all (fun count => (look.peek .barrier count).settled)
      = true)
    {before : List Token} (barrier : before.any Token.isBarrier = true) (previous : Option Token)
    (old new : List Token) :
    look.holds ⟨previous, before ++ old⟩ = look.holds ⟨previous, before ++ new⟩ := by
  obtain ⟨token, mem, isBarrier⟩ := List.any_eq_true.mp barrier
  obtain ⟨front, back, rfl⟩ := List.append_of_mem mem
  have sound := look.peek_sound (Seam.barrier_fits isBarrier (back ++ old) (back ++ new))
    previous front
  have settled : (look.peek .barrier front.length).settled = true := by
    rw [List.all_eq_true] at closed
    by_cases far : look.reach ≤ front.length
    · rw [peek_of_reach far]
      exact closed _ (List.mem_range.mpr (Nat.lt_succ_self _))
    · exact closed _ (List.mem_range.mpr (by omega))
  simp only [List.append_assoc, List.cons_append]
  exact Outlook.eq_of_settled settled sound

/-- Behind a barrier, more tokens do not matter to a lookahead. -/
theorem Look.holds_append {look : Look}
    (closed : (List.range (look.reach + 1)).all (fun count => (look.peek .barrier count).settled)
      = true)
    {before : List Token} (barrier : before.any Token.isBarrier = true) (previous : Option Token)
    (tail : List Token) : look.holds ⟨previous, before ++ tail⟩ = look.holds ⟨previous, before⟩ := by
  rw [holds_of_barrier closed barrier previous tail [], List.append_nil]

namespace Rule

theorem framed_of_closed {rule : Production} (closed : rule.closed = true) (slack : Nat)
    {old new : List Token} :
    Framed (fun tokens => tokens.any Token.isBarrier = true) old new (fun _ _ => True) slack
      rule := by
  induction rule generalizing slack with
  | seq first second ih₁ ih₂ =>
    obtain ⟨first, second⟩ := Bool.and_eq_true_iff.mp closed
    exact ⟨ih₁ first _, ih₂ second _⟩
  | ite look yes no ih₁ ih₂ =>
    obtain ⟨both, noClosed⟩ := Bool.and_eq_true_iff.mp closed
    obtain ⟨lookClosed, yesClosed⟩ := Bool.and_eq_true_iff.mp both
    have keeps : ∀ branch answer,
        Keeps (fun tokens => tokens.any Token.isBarrier = true) old new slack look branch
          answer := by
      intro branch answer budget previous previous' before after barrier _ run holds
      rw [← holds]
      obtain ⟨passed, eq, _⟩ := run.passed_before
      exact (Look.holds_of_barrier lookClosed
        (by rw [eq, List.any_append, barrier, Bool.or_true]) previous old new).symm
    exact ⟨⟨keeps yes true, keeps no false⟩, ih₁ yesClosed _, ih₂ noClosed _⟩
  | call => trivial
  | done | fail | skip | within => trivial

/-- A run that leaves a barrier does not depend on what stands behind it. -/
theorem Runs.frame_barrier {budget : Nat} {rule : Production} {previous previous' : Option Token}
    {before after old new : List Token}
    (run : Runs budget rule ⟨previous, before ++ old⟩ ⟨previous', after ++ old⟩)
    (closed : rule.closed = true) (barrier : after.any Token.isBarrier = true) :
    Runs budget rule ⟨previous, before ++ new⟩ ⟨previous', after ++ new⟩ := by
  have left : ∀ after : List Token, after.any Token.isBarrier = true → after ++ old ≠ [] := by
    rintro (_ | ⟨token, after⟩) barrier
    · cases barrier
    · exact List.cons_ne_nil _ _
  refine run.frame ?_ ?_ left (Nat.zero_le _) barrier (framed_of_closed closed 0)
  · intro front back h
    rw [List.any_append, h, Bool.or_true]
  · exact fun slack nonterminal _ => ⟨slack, Nat.le_refl _, framed_of_closed nonterminal.closed _⟩

end Rule

-- ---------------------------------------------------------------------------
-- Before an item
-- ---------------------------------------------------------------------------

/-- How many tokens must be left before the seam for the nonterminal to keep clear of it.
    Attributes stop at the start of an item, but not at an attribute put before it. -/
def Nonterminal.slack : Nonterminal → Nat
  | .outerAttrs => 1
  | _ => 0

/-- A nonterminal that never stands before an item, or whose lookahead for items needs an argument
    of its own. -/
def Nonterminal.isGuarded : Nonterminal → Bool
  | .innerAttrs | .fnParams | .member .statement | .members _ => false
  | _ => true

namespace Rule

def callsFn : Production → Bool
  | .call .fn | .call .fnPointer => true
  | _ => false

/-- Where the lookahead may lose its answer, the branch takes tokens from behind the seam. -/
def guardsYes (slack : Nat) (yes : Production) (look : Look) : Bool :=
  !(look.peek .opening look.reach).drops && (List.range look.reach).all fun count =>
    !(look.peek .opening count).drops || decide (count < yes.least + slack)

/-- Where the lookahead may gain an answer, the branch takes tokens from behind the seam. -/
def guardsNo (slack : Nat) (no : Production) (look : Look) : Bool :=
  !(look.peek .opening look.reach).rises && (List.range look.reach).all fun count =>
    !(look.peek .opening count).rises || decide (count < no.least + slack)

def guards (slack : Nat) (yes no : Production) : Look → Bool
  | .fn qualifiers => !(qualifiers.contains "fn") && yes.callsFn
  | look => guardsYes slack yes look && guardsNo slack no look

/-- Every lookahead of the rule guards its branches. -/
def steady : Nat → Production → Bool
  | slack, .seq first second => first.steady (slack + second.least) && second.steady slack
  | slack, .ite look yes no =>
    guards slack yes no look && yes.steady slack && no.steady slack
  | slack, .call nonterminal => nonterminal.isGuarded && decide (nonterminal.slack ≤ slack)
  | _, _ => true

end Rule

theorem Nonterminal.steady {nonterminal : Nonterminal} (guarded : nonterminal.isGuarded = true) :
    nonterminal.rule.steady nonterminal.slack = true := by
  cases nonterminal with
  | binaryTail minPrecedence position =>
    match minPrecedence with
    | 0 | 1 | 2 | 3 | 4 | 5 | 6 | 7 | 8 | 9 | 10 | 11 | n + 12 => rfl
  | path x | pathTail x | pathSegment x | type x | bounds x | unary x | primary x | pathExpr x
  | list x | binary n x => cases x <;> rfl
  | member x | members x => cases x <;> first | rfl | cases guarded
  | innerAttrs | fnParams => cases guarded
  | _ => rfl

namespace Rule

section

variable {P : List Token → Prop} {old new : List Token} {slack : Nat} {look : Look}
  {yes no : Production}

theorem Runs.least_le_before {budget : Nat} {branch : Production}
    {previous previous' : Option Token} {before after : List Token} (left : old ≠ [])
    (run : Runs budget branch ⟨previous, before ++ old⟩ ⟨previous', after ++ old⟩) :
    after.length + branch.least ≤ before.length := by
  have := run.least_le (by simp [left])
  simp only [List.length_append] at this
  omega

theorem keeps_yes (fits : Seam.opening.Fits old new) (guarded : guardsYes slack yes look = true) :
    Keeps P old new slack look yes true := by
  obtain ⟨far, near⟩ := Bool.and_eq_true_iff.mp guarded
  intro budget previous previous' before after _ le run holds
  have sound := look.peek_sound fits previous before
  have taken := run.least_le_before fits.old_ne
  cases h : look.holds ⟨previous, before ++ new⟩ with
  | true => rfl
  | false =>
    -- The answer was lost, so few tokens stand before the seam, and the run has taken too many.
    rw [holds, h] at sound
    have drops : (look.peek .opening before.length).drops = true := sound
    by_cases lt : before.length < look.reach
    · have := List.all_eq_true.mp near _ (List.mem_range.mpr lt)
      rw [drops, Bool.not_true, Bool.false_or, decide_eq_true_eq] at this
      omega
    · rw [Look.peek_of_reach (by omega)] at drops
      rw [drops] at far
      cases far

theorem keeps_no (fits : Seam.opening.Fits old new) (guarded : guardsNo slack no look = true) :
    Keeps P old new slack look no false := by
  obtain ⟨far, near⟩ := Bool.and_eq_true_iff.mp guarded
  intro budget previous previous' before after _ le run fails
  have sound := look.peek_sound fits previous before
  have taken := run.least_le_before fits.old_ne
  cases h : look.holds ⟨previous, before ++ new⟩ with
  | false => rfl
  | true =>
    rw [fails, h] at sound
    have rises : (look.peek .opening before.length).rises = true := sound
    by_cases lt : before.length < look.reach
    · have := List.all_eq_true.mp near _ (List.mem_range.mpr lt)
      rw [rises, Bool.not_true, Bool.false_or, decide_eq_true_eq] at this
      omega
    · rw [Look.peek_of_reach (by omega)] at rises
      rw [rises] at far
      cases far

/-- A function that follows is still there when the branch passes its word before the seam. -/
theorem keeps_fn {qualifiers : List String} (plain : qualifiers.contains "fn" = false)
    (fn : PassesFn yes) : Keeps P old new slack (.fn qualifiers) yes true := by
  intro budget previous previous' before after _ _ run holds
  obtain ⟨passed, eq, hpassed⟩ := run.passed_before
  obtain ⟨passed', hpassed', word⟩ := fn _ _ _ run
  have same : passed = passed' := by
    have := hpassed.rest.symm.trans hpassed'.rest
    simpa using this
  have decided : before.any (Token.decidesFn qualifiers) = true := by
    obtain ⟨token, mem, isFn⟩ := List.any_eq_true.mp word
    refine List.any_eq_true.mpr ⟨token, ?_, ?_⟩
    · rw [eq, same]
      exact List.mem_append_left _ mem
    · cases token with
      | ident name span =>
        rw [Token.isFnWord, beq_iff_eq] at isFn
        rw [Token.decidesFn, isFn, plain, Bool.not_false]
      | _ => cases isFn
  exact (Token.fnFollows_append decided new old).trans holds

theorem passesFn_of_callsFn {rule : Production} (calls : rule.callsFn = true) : PassesFn rule := by
  unfold callsFn at calls
  split at calls
  · exact fn_passesFn
  · exact fnPointer_passesFn
  · cases calls

theorem keeps_of_guards (fits : Seam.opening.Fits old new)
    (guarded : guards slack yes no look = true) :
    Keeps P old new slack look yes true ∧ Keeps P old new slack look no false := by
  cases look with
  | fn qualifiers =>
    obtain ⟨plain, calls⟩ := Bool.and_eq_true_iff.mp guarded
    exact ⟨keeps_fn (by simpa using plain) (passesFn_of_callsFn calls), keeps_no fits rfl⟩
  | _ =>
    unfold guards at guarded
    obtain ⟨guardedYes, guardedNo⟩ := Bool.and_eq_true_iff.mp guarded
    exact ⟨keeps_yes fits guardedYes, keeps_no fits guardedNo⟩

theorem Keeps.or {left right : Look} {answer : Bool} (h₁ : Keeps P old new slack left yes answer)
    (h₂ : Keeps P old new slack right yes answer) :
    Keeps P old new slack (.or left right) yes answer := by
  intro budget previous previous' before after ok le run holds
  cases answer with
  | true =>
    rcases Bool.or_eq_true_iff.mp holds with h | h
    · exact Bool.or_eq_true_iff.mpr (.inl (h₁ _ _ _ _ _ ok le run h))
    · exact Bool.or_eq_true_iff.mpr (.inr (h₂ _ _ _ _ _ ok le run h))
  | false =>
    obtain ⟨hl, hr⟩ := Bool.or_eq_false_iff.mp holds
    exact Bool.or_eq_false_iff.mpr ⟨h₁ _ _ _ _ _ ok le run hl, h₂ _ _ _ _ _ ok le run hr⟩

end

/-- The nonterminal keeps clear of an item as long as its slack is left. -/
def Clear (slack : Nat) (nonterminal : Nonterminal) : Prop :=
  (nonterminal.isGuarded = true ∨ nonterminal = .member .statement) ∧ nonterminal.slack ≤ slack

theorem framed_of_steady {P : List Token → Prop} {old new : List Token}
    (fits : Seam.opening.Fits old new) {slack : Nat} {rule : Production}
    (steady : rule.steady slack = true) : Framed P old new Clear slack rule := by
  induction rule generalizing slack with
  | seq first second ih₁ ih₂ =>
    obtain ⟨first, second⟩ := Bool.and_eq_true_iff.mp steady
    exact ⟨ih₁ first, ih₂ second⟩
  | ite look yes no ih₁ ih₂ =>
    obtain ⟨both, noSteady⟩ := Bool.and_eq_true_iff.mp steady
    obtain ⟨guarded, yesSteady⟩ := Bool.and_eq_true_iff.mp both
    exact ⟨keeps_of_guards fits guarded, ih₁ yesSteady, ih₂ noSteady⟩
  | call nonterminal =>
    obtain ⟨guarded, le⟩ := Bool.and_eq_true_iff.mp steady
    exact ⟨.inl guarded, of_decide_eq_true le⟩
  | done | fail | skip | within => trivial

-- ---------------------------------------------------------------------------
-- Statements before an item
-- ---------------------------------------------------------------------------

open Grammar

/-- An item that starts with a qualifier and is a function is read as a function. -/
theorem Runs.fn_of_item {budget : Nat} {cursor final : Cursor}
    (run : Runs budget (.call .item) cursor final)
    (qualified : (word ["unsafe", "async"]).holds cursor = true)
    (ahead : fnAhead.holds cursor = true) : ∃ less, Runs less (.call .fn) cursor final := by
  cases run with
  | call run =>
    cases run with
    | seq visibility item =>
      cases visibility with
      | call visibility =>
        cases visibility with
        | yes isPub =>
          obtain ⟨previous, _ | ⟨_ | _ | _ | _, rest⟩⟩ := cursor <;> try cases isPub
          simp_all [Look.holds, word, wordAt, TokenTest.holds]
        | no _ stay =>
          cases stay
          cases item with
          | yes _ fn => exact ⟨_, fn⟩
          | no not_ahead => rw [ahead] at not_ahead; cases not_ahead

/-- A labelled expression takes its label. -/
theorem Runs.label_of_primary {budget : Nat} {position : ExprPosition} {cursor final : Cursor}
    (run : Runs budget (.call (.primary position)) cursor final)
    (label : lifetime.holds cursor = true) :
    ∃ less, Runs less
      (steps [.skip 2, expectMark [':'], .call (.primary position)]) cursor final := by
  have quote : ∀ test, (test = .anyLiteral ∨ ∃ delimiter, test = .group delimiter) →
      (Look.token 0 test).holds cursor = false := by
    intro test h
    obtain ⟨quoted, -⟩ := Bool.and_eq_true_iff.mp label
    obtain ⟨previous, _ | ⟨_ | _ | _ | _, rest⟩⟩ := cursor <;> try cases quoted
    rcases h with rfl | ⟨delimiter, rfl⟩ <;> rfl
  cases run with
  | call run =>
    -- A quote is no literal and no group, so the label is the sixth case.
    rcases run with _ | _ | _ | holds | ⟨_, run⟩
    · cases (quote _ (.inl rfl)).symm.trans holds
    iterate 4
      rcases run with _ | _ | _ | holds | ⟨_, run⟩
      · cases (quote _ (.inr ⟨_, rfl⟩)).symm.trans holds
    cases run with
    | yes _ run => exact ⟨_, run⟩
    | no no_label => cases label.symm.trans no_label

theorem statement_framed {P : List Token → Prop} {old new : List Token}
    (fits : Seam.opening.Fits old new) :
    Framed P old new Clear 0 (Nonterminal.rule (.member .statement)) := by
  have qualified : Keeps P old new 0
      (.and (word ["unsafe", "async"]) (.or fnAhead (wordAt 1 ["impl", "trait", "extern"])))
      (.call .item) true := by
    intro budget previous previous' before after ok le run holds
    obtain ⟨first, second⟩ := Bool.and_eq_true_iff.mp holds
    refine Bool.and_eq_true_iff.mpr ⟨keeps_yes fits rfl _ _ _ _ _ ok le run first, ?_⟩
    rcases Bool.or_eq_true_iff.mp second with ahead | keyword
    · obtain ⟨less, run⟩ := run.fn_of_item first ahead
      exact Bool.or_eq_true_iff.mpr (.inl (keeps_fn rfl fn_passesFn _ _ _ _ _ ok le run ahead))
    · exact Bool.or_eq_true_iff.mpr (.inr (keeps_yes fits rfl _ _ _ _ _ ok le run keyword))
  have labelled : Keeps P old new 0 (.and lifetime (.mark 2 [':']))
      (steps [.call (.primary .free), .call .postfixTail, eatMark [';']]) true := by
    intro budget previous previous' before after _ _ run holds
    cases run with
    | seq run₁ run₂ =>
      obtain ⟨less, label⟩ := run₁.label_of_primary (Bool.and_eq_true_iff.mp holds).1
      have left := run₂.length_le
      simp only [List.length_append] at left
      have := List.length_pos_iff.mpr fits.old_ne
      have taken := label.least_le (List.length_pos_iff.mp (by omega))
      have far : 3 ≤ before.length := by
        have least : (steps [.skip 2, expectMark [':'],
          .call (.primary .free)] : Production).least = 4 := rfl
        rw [least, List.length_append] at taken
        omega
      have sound := (Look.and lifetime (.mark 2 [':'])).peek_sound fits previous before
      rw [Look.peek_of_reach far] at sound
      rw [← Outlook.eq_of_settled rfl sound, holds]
  refine ⟨keeps_of_guards fits rfl, framed_of_steady fits rfl, ⟨?_, keeps_no fits rfl⟩,
    ⟨.inl rfl, Nat.le_refl _⟩, ⟨?_, keeps_no fits rfl⟩, framed_of_steady fits rfl,
    framed_of_steady fits rfl⟩
  · exact (keeps_yes fits rfl).or ((keeps_yes fits rfl).or (qualified.or (keeps_yes fits rfl)))
  · exact (keeps_yes fits rfl).or (labelled.or (keeps_yes fits rfl))

end Rule

end AliasExpansion
