-- SUMMARY: An expression before a body is read alike whatever the body holds.
import AliasExpansion.Proofs.Grammar.Truncation
import Mathlib.Data.List.Basic

/-!
# Expressions before a body

No lookahead of the grammar sees into a body in braces. So a run that stops before a body is the
same run when the body holds something else (`Runs.frame_body`). For the scrutinee of a match it is
enough to know that it is an expression and that it does not go on into the body: then it stops
right before the body (`Runs.scrutinee`).
-/

namespace AliasExpansion

open Grammar

namespace Seam

/-- A body in braces stands on both sides. -/
def body : Seam :=
  { barrier with
    test := fun test =>
      match test with
      | .groupHead .brace _ => .any
      | test => barrier.test test }

theorem body_fits (content content' : List Token) (span : Span) (old new : List Token) :
    body.Fits (.group .brace content span :: old) (.group .brace content' span :: new) where
  old_ne := List.cons_ne_nil _ _
  new_ne := List.cons_ne_nil _ _
  test test := by
    have outside (delimiter : Delimiter) (words : List String) (ne : .brace ≠ delimiter)
        (content : List Token) :
        (TokenTest.groupHead delimiter words).holds (.group .brace content span) = false := by
      rcases content with _ | ⟨_ | _ | _ | _, content⟩ <;>
        first | rfl | simp only [TokenTest.holds, ne, decide_false, Bool.false_and]
    cases test with
    | groupHead delimiter words =>
      simp only [List.getElem?_cons_zero, Option.any_some]
      cases delimiter with
      | brace => exact Outlook.allows_any
      | parenthesis | bracket | none =>
        rw [outside _ words (by decide) content, outside _ words (by decide) content']
        rfl
    | group delimiter => exact Outlook.allows_same
    | _ => rfl
  char c := by
    unfold body barrier
    dsimp only
    split <;> rfl
  fn before qualifiers := by
    have same : Token.fnFollows qualifiers (before ++ .group .brace content span :: old)
        = Token.fnFollows qualifiers (before ++ .group .brace content' span :: new) := by
      cases decided : before.any (Token.decidesFn qualifiers) with
      | true => exact Token.fnFollows_append decided _ _
      | false =>
        rw [Token.fnFollows_stop decided fun _ => rfl, Token.fnFollows_stop decided fun _ => rfl]
    rw [same]
    exact Outlook.allows_same

end Seam

namespace Rule

/-- No lookahead of the rule sees into a body or over it. -/
def skirts : Production → Bool
  | .seq first second => first.skirts && second.skirts
  | .ite look yes no =>
    (List.range (look.reach + 1)).all (fun count => (look.peek .body count).settled)
      && yes.skirts && no.skirts
  | _ => true

end Rule

theorem Nonterminal.skirts (nonterminal : Nonterminal) : nonterminal.rule.skirts = true := by
  cases nonterminal with
  | binaryTail minPrecedence position =>
    match minPrecedence with
    | 0 | 1 | 2 | 3 | 4 | 5 | 6 | 7 | 8 | 9 | 10 | 11 | n + 12 => rfl
  | path x | pathTail x | pathSegment x | type x | bounds x | unary x | primary x | pathExpr x
  | list x | member x | members x | binary n x => cases x <;> rfl
  | _ => rfl

namespace Rule

variable {budget : Nat} {previous previous' : Option Token} {before after : List Token}

theorem framed_of_skirts {old new : List Token} (fits : Seam.body.Fits old new)
    {rule : Production} (skirts : rule.skirts = true) (slack : Nat) :
    Framed (fun _ => True) old new (fun _ _ => True) slack rule := by
  induction rule generalizing slack with
  | seq first second ih₁ ih₂ =>
    obtain ⟨first, second⟩ := Bool.and_eq_true_iff.mp skirts
    exact ⟨ih₁ first _, ih₂ second _⟩
  | ite look yes no ih₁ ih₂ =>
    obtain ⟨both, noSkirts⟩ := Bool.and_eq_true_iff.mp skirts
    obtain ⟨settled, yesSkirts⟩ := Bool.and_eq_true_iff.mp both
    have same : ∀ previous before,
        look.holds ⟨previous, before ++ old⟩ = look.holds ⟨previous, before ++ new⟩ := by
      intro previous before
      refine Outlook.eq_of_settled ?_ (look.peek_sound fits previous before)
      by_cases far : look.reach ≤ before.length
      · rw [Look.peek_of_reach far]
        exact List.all_eq_true.mp settled _ (List.mem_range.mpr (Nat.lt_succ_self _))
      · exact List.all_eq_true.mp settled _ (List.mem_range.mpr (by omega))
    have keeps : ∀ branch answer, Keeps (fun _ => True) old new slack look branch answer :=
      fun branch answer budget previous previous' before after _ _ _ holds =>
        (same previous before).symm.trans holds
    exact ⟨⟨keeps yes true, keeps no false⟩, ih₁ yesSkirts _, ih₂ noSkirts _⟩
  | call => trivial
  | done | fail | skip | within => trivial

/-- A run that stops before a body does not depend on what the body holds. -/
theorem Runs.frame_body {rule : Production} {content : List Token} {span : Span}
    {old : List Token}
    (run : Runs budget rule ⟨previous, before ++ .group .brace content span :: old⟩
      ⟨previous', after ++ .group .brace content span :: old⟩)
    (skirts : rule.skirts = true) (content' new : List Token) :
    Runs budget rule ⟨previous, before ++ .group .brace content' span :: new⟩
      ⟨previous', after ++ .group .brace content' span :: new⟩ := by
  have fits := Seam.body_fits content content' span old new
  refine run.frame (fun _ _ _ => trivial) ?_ (fun _ _ => by simp) (Nat.zero_le _) trivial
    (framed_of_skirts fits skirts 0)
  exact fun slack nonterminal _ =>
    ⟨slack, Nat.le_refl _, framed_of_skirts fits nonterminal.skirts _⟩

-- ---------------------------------------------------------------------------
-- Scrutinees
-- ---------------------------------------------------------------------------

/-- The expression that a match starts with, and the body of the match. -/
theorem Runs.match_cases {tokens : List Token} {span : Span} {final : Cursor}
    (run : Runs budget expression (.start (.ident "match" span :: tokens)) final) :
    ∃ less middle, Runs less (.call (.binary 0 .beforeBlock)) ⟨some (.ident "match" span), tokens⟩
        middle
      ∧ ∃ content span' tail, middle.rest = .group .brace content span' :: tail := by
  -- A word starts no range and is no operator, so the operand is the match.
  cases run with
  | @call budget _ _ _ run =>
    cases run with
    | @seq _ _ _ _ middle _ operand tail =>
      have unary : Runs budget (.call (.unary .free)) (.start (.ident "match" span :: tokens))
          middle := by
        rw [runs_iff] at operand ⊢
        exact operand
      cases unary with
      | @call budget _ _ _ run =>
        have operand : Runs budget (.seq (.call (.primary .free)) (.call .postfixTail))
            (.start (.ident "match" span :: tokens)) middle := by
          rw [runs_iff] at run ⊢
          exact run
        cases operand with
        | @seq _ _ _ _ middle _ primary tail =>
          cases primary with
          | @call budget _ _ _ run =>
            have arms : Runs budget (.seq (.skip 1) (.seq (.call (.binary 0 .beforeBlock))
                (.within .brace (steps [.call .innerAttrs, .call .arms]))))
                (.start (.ident "match" span :: tokens)) middle := by
              rw [runs_iff] at run ⊢
              exact run
            cases arms with
            | seq skip run =>
              cases skip
              cases run with
              | @seq _ _ _ _ middle _ scrutinee body =>
                cases body with
                | within rest => exact ⟨budget, middle, scrutinee, _, _, _, rest⟩

/-- An expression that does not go on into an empty body behind it stops before any body. -/
theorem Runs.scrutinee {scrutinee : List Token} {span span' : Span}
    (accepted : Rule.Accepts (.call (.binary 0 .beforeBlock)) scrutinee)
    (stops : Category.expr.accepts
      (.ident "match" span :: scrutinee ++ [.group .brace [] span']) = true)
    (content : List Token) :
    ∃ budget last, Runs budget (.call (.binary 0 .beforeBlock))
      ⟨some (.ident "match" span), scrutinee ++ [.group .brace content span']⟩
      ⟨last, [.group .brace content span']⟩ := by
  obtain ⟨_, _, whole, -⟩ := Category.accepts_iff_accepts.mp stops
  obtain ⟨budget, ⟨last, rest⟩, run, _, _, tail, isBody⟩ := whole.match_cases
  have isBody : rest = _ := isBody
  obtain ⟨passed, passes⟩ := run.passes
  have split : scrutinee ++ [.group .brace [] span'] = passed ++ rest := passes.rest
  obtain ⟨front, rfl⟩ : ∃ front, rest = front ++ [.group .brace [] span'] := by
    have last := congrArg List.getLast? split
    rw [List.getLast?_concat, List.getLast?_append_of_ne_nil _ (by simp [isBody])] at last
    exact List.getLast?_eq_some_iff.mp last.symm
  have isSealed : Sealed scrutinee [.group .brace [] span'] := by
    intro _ _ _ _ _ _ _ _ first
    cases first
  -- What the run leaves of the scrutinee, it leaves when the body is cut off, too.
  obtain ⟨less, cut⟩ := Runs.cut (List.cons_ne_nil _ _) run isSealed rfl rfl
  obtain ⟨more, final, alone, ending⟩ := accepted
  obtain ⟨final', alone, same⟩ : ∃ final', Runs more (.call (.binary 0 .beforeBlock))
      ⟨some (.ident "match" span), scrutinee⟩ final' ∧ final'.rest = final.rest :=
    alone.fresh_rest rfl (alone.rest_ne rfl) rfl
  cases cut.unique alone
  obtain rfl : front = [] := same.trans ending
  exact ⟨budget, last, run.frame_body rfl content []⟩

end Rule

end AliasExpansion
