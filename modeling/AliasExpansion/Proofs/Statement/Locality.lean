-- SUMMARY: A statement is read alike when something else, or nothing, comes behind it.
import AliasExpansion.Proofs.Grammar.Extents
import AliasExpansion.Proofs.Grammar.Spelling
import AliasExpansion.Proofs.Grammar.Truncation

/-!
# Locality of statements

Most statements end with a semicolon or a body, and are read alike whatever comes behind them. The
others are open: an expression that ends in a brace group, or that starts with one and goes on
(`Rule.Open`). An open statement could go on with tokens that come behind it, but it does not need
them: it is read alike when they are cut off (`Runs.cut_statement`).
-/

namespace AliasExpansion

open Grammar

namespace Rule

variable {budget : Nat} {previous previous' : Option Token} {cursor final : Cursor}
  {before old new : List Token}

-- ---------------------------------------------------------------------------
-- First tokens
-- ---------------------------------------------------------------------------

/-- A statement does not start in the middle of an operator. -/
theorem Runs.not_operator {c : Char} {joint : Bool} {span : Span} {rest : List Token}
    (run : Runs budget (.call (.member .statement)) ⟨previous, .punct c joint span :: rest⟩ final) :
    c ≠ '=' ∧ c ≠ '>' := by
  have result := runs_iff.mp run
  constructor <;> rintro rfl <;> rcases budget with _ | _ | _ | _ | budget <;> cases result

/-- A statement does not start with an inner attribute. -/
theorem Runs.not_innerAttr (run : Runs budget (.call (.member .statement)) cursor final) :
    innerAttr.holds cursor = false := by
  rw [Bool.eq_false_iff]
  intro holds
  obtain ⟨joint, span, joint', span', content, span'', rest, split⟩ := innerAttr_tokens holds
  obtain ⟨previous, _⟩ := cursor
  cases split
  have result := runs_iff.mp run
  rcases budget with _ | _ | _ | _ | budget <;> cases result

/-- A block after a keyword is taken. -/
theorem Runs.rest_of_keyword {position : ExprPosition} {keyword : String}
    {content tail : List Token} {span span' : Span} (isKeyword : keyword = "unsafe" ∨ keyword = "const")
    (run : Runs budget (.call (.primary position))
      ⟨previous, .ident keyword span :: .group .brace content span' :: tail⟩ final) :
    final.rest = tail := by
  cases run with
  | @call budget _ _ _ run =>
    have block : Runs budget (.seq (.skip 1) block)
        ⟨previous, .ident keyword span :: .group .brace content span' :: tail⟩ final := by
      rw [runs_iff] at run ⊢
      rcases isKeyword with rfl | rfl <;> exact run
    cases block with
    | seq skip block =>
      cases skip
      cases block
      rfl

-- ---------------------------------------------------------------------------
-- The end of a statement
-- ---------------------------------------------------------------------------

/-- An expression as a statement that no semicolon ends. -/
inductive Open (budget : Nat) (cursor final : Cursor) : Prop where
  | block (startsBlock : blockLike.holds cursor = true)
      (run : Runs budget (.seq (.call (.primary .free)) (.call .postfixTail)) cursor final)
      (noSemicolon : (Look.mark 0 [';']).holds final = false)
  | expression (noBlock : blockLike.holds cursor = false)
      (run : Runs budget expression cursor final)
      (noSemicolon : (Look.mark 0 [';']).holds final = false)
      (ends : final.rest = [] ∨ Look.afterBrace.holds final = true)

theorem Runs.settled_of_takes {rule : Production} (run : Runs budget rule cursor final)
    (settles : rule.settles none = true) (takes : rule.takes false = true) : final.Settled := by
  rcases run.settled settles nofun with rfl | settled
  · exact absurd (run.length_lt_of_takes takes nofun) (Nat.lt_irrefl _)
  · exact settled

theorem Open.settled (h : Open budget cursor final) : final.Settled := by
  cases h with
  | block _ run => exact run.settled_of_takes rfl rfl
  | expression _ run => exact run.settled_of_takes rfl rfl

/-- A rule that takes a barrier last is run alike whatever comes behind it. -/
theorem Runs.frame_closed {rule : Production}
    (run : Runs budget rule ⟨previous, before ++ old⟩ ⟨previous', old⟩)
    (closes : rule.closes false false = true) (closed : rule.closed = true) :
    before.any Token.isBarrier = true
      ∧ ∀ new, Runs budget rule ⟨previous, before ++ new⟩ ⟨previous', new⟩ := by
  have framed : ∀ new, before.any Token.isBarrier = true
      ∧ Runs budget rule ⟨previous, before ++ new⟩ ⟨previous', new⟩ :=
    fun new => run.frame_closing closes closed nofun nofun
  exact ⟨(framed []).1, fun new => (framed new).2⟩

/-- A rule before a semicolon is run alike whatever comes behind the semicolon. -/
theorem Runs.frame_semicolon {rule : Production} {middle : Cursor}
    (run : Runs budget rule ⟨previous, before ++ old⟩ middle) (closed : rule.closed = true)
    (holds : (Look.mark 0 [';']).holds middle = true)
    (skip : Runs budget (.skip 1) middle ⟨previous', old⟩) :
    before.any Token.isBarrier = true ∧ ∀ new, ∃ middle',
      Runs budget rule ⟨previous, before ++ new⟩ middle'
        ∧ (Look.mark 0 [';']).holds middle' = true
        ∧ Runs budget (.skip 1) middle' ⟨previous', new⟩ := by
  have whole : Runs budget (.seq rule (expectMark [';'])) ⟨previous, before ++ old⟩
      ⟨previous', old⟩ := .seq run (.yes holds skip)
  have allClosed : (Rule.seq rule (expectMark [';'])).closed = true := by
    rw [Rule.closed, closed]
    rfl
  obtain ⟨barrier, framed⟩ := whole.frame_closed rfl allClosed
  refine ⟨barrier, fun new => ?_⟩
  cases framed new with
  | seq run semicolon =>
    cases semicolon with
    | yes holds skip => exact ⟨_, run, holds, skip⟩
    | no _ fails => cases fails

/-- A statement that starts with a block is read alike whatever comes behind its semicolon, if it
    has one. -/
theorem Runs.block_cases
    (run : Runs budget (steps [.call (.primary .free), .call .postfixTail, eatMark [';']])
      ⟨previous, before ++ old⟩ ⟨previous', old⟩) :
    (before.any Token.isBarrier = true
      ∧ ∀ new, Runs budget (steps [.call (.primary .free), .call .postfixTail, eatMark [';']])
        ⟨previous, before ++ new⟩ ⟨previous', new⟩)
    ∨ Runs budget (.seq (.call (.primary .free)) (.call .postfixTail))
        ⟨previous, before ++ old⟩ ⟨previous', old⟩
      ∧ (Look.mark 0 [';']).holds ⟨previous', old⟩ = false := by
  cases run with
  | seq primary run =>
    cases run with
    | seq tail eat =>
      cases eat with
      | yes holds skip =>
        have both : Runs budget (.seq (.call (.primary .free)) (.call .postfixTail)) _ _ :=
          .seq primary tail
        obtain ⟨barrier, framed⟩ := both.frame_semicolon rfl holds skip
        refine .inl ⟨barrier, fun new => ?_⟩
        obtain ⟨middle', both, holds, skip⟩ := framed new
        cases both with
        | seq primary tail => exact .seq primary (.seq tail (.yes holds skip))
      | no noSemicolon done =>
        generalize Cursor.mk previous' old = final at done
        cases done
        exact .inr ⟨.seq primary tail, noSemicolon⟩

/-- What ends a statement that is an expression. -/
def expressionEnd : Production :=
  choose [(.mark 0 [';'], .skip 1), (.atEnd, .done), (.afterBrace, .done)] (.fail (.mark [';']))

/-- A statement that is an expression is read alike whatever comes behind its semicolon, if it has
    one. -/
theorem Runs.expression_cases
    (run : Runs budget (.seq expression expressionEnd) ⟨previous, before ++ old⟩
      ⟨previous', old⟩) :
    (before.any Token.isBarrier = true
      ∧ ∀ new, Runs budget (.seq expression expressionEnd) ⟨previous, before ++ new⟩
        ⟨previous', new⟩)
    ∨ Runs budget expression ⟨previous, before ++ old⟩ ⟨previous', old⟩
      ∧ (Look.mark 0 [';']).holds ⟨previous', old⟩ = false
      ∧ (old = [] ∨ Look.afterBrace.holds ⟨previous', old⟩ = true) := by
  cases run with
  | seq expression run =>
    cases run with
    | yes holds skip =>
      obtain ⟨barrier, framed⟩ := expression.frame_semicolon rfl holds skip
      refine .inl ⟨barrier, fun new => ?_⟩
      obtain ⟨middle', expression, holds, skip⟩ := framed new
      exact .seq expression (.yes holds skip)
    | no noSemicolon run =>
      generalize hfinal : Cursor.mk previous' old = final at run
      cases run with
      | yes ending done =>
        cases done
        subst hfinal
        exact .inr ⟨expression, noSemicolon, .inl (Cursor.atEnd_iff.mp ending)⟩
      | no _ run =>
        cases run with
        | yes brace done =>
          cases done
          subst hfinal
          exact .inr ⟨expression, noSemicolon, .inr brace⟩
        | no _ fails => cases fails

/-- A statement is read alike whatever comes behind it, or it is open. -/
theorem Runs.statement_cases
    (run : Runs budget (.call (.member .statement)) ⟨previous, before ++ old⟩ ⟨previous', old⟩) :
    (before.any Token.isBarrier = true
      ∧ ∀ new, Runs budget (.call (.member .statement)) ⟨previous, before ++ new⟩ ⟨previous', new⟩)
    ∨ ((word ["let"]).holds ⟨previous, before ++ old⟩ = false
      ∧ itemStart.holds ⟨previous, before ++ old⟩ = false
      ∧ ∃ less, Open less ⟨previous, before ++ old⟩ ⟨previous', old⟩) := by
  -- Behind a barrier, a lookahead has the same answer whatever comes.
  have keep : ∀ {look : Look} {answer : Bool},
      (List.range (look.reach + 1)).all (fun count => (look.peek .barrier count).settled) = true →
      before.any Token.isBarrier = true → look.holds ⟨previous, before ++ old⟩ = answer →
      ∀ new, look.holds ⟨previous, before ++ new⟩ = answer :=
    fun closed barrier holds new => (Look.holds_of_barrier closed barrier previous old new) ▸ holds
  cases run with
  | @call less _ _ _ run =>
    cases run with
    | yes isLet run =>
      obtain ⟨barrier, framed⟩ := run.frame_closed rfl rfl
      exact .inl ⟨barrier, fun new => .call (.yes (keep rfl barrier isLet new) (framed new))⟩
    | no noLet run =>
      cases run with
      | yes isItem run =>
        obtain ⟨barrier, framed⟩ := run.frame_closed rfl rfl
        exact .inl ⟨barrier, fun new => .call (.no (keep rfl barrier noLet new)
          (.yes (keep rfl barrier isItem new) (framed new)))⟩
      | no noItem run =>
        cases run with
        | yes startsBlock run =>
          rcases run.block_cases with ⟨barrier, framed⟩ | ⟨run, noSemicolon⟩
          · exact .inl ⟨barrier, fun new => .call (.no (keep rfl barrier noLet new)
              (.no (keep rfl barrier noItem new)
                (.yes (keep rfl barrier startsBlock new) (framed new))))⟩
          · exact .inr ⟨noLet, noItem, less, .block startsBlock run noSemicolon⟩
        | no noBlock run =>
          rcases Runs.expression_cases run with ⟨barrier, framed⟩ | ⟨run, noSemicolon, ends⟩
          · exact .inl ⟨barrier, fun new => .call (.no (keep rfl barrier noLet new)
              (.no (keep rfl barrier noItem new) (.no (keep rfl barrier noBlock new)
                (framed new))))⟩
          · exact .inr ⟨noLet, noItem, less, .expression noBlock run noSemicolon ends⟩

-- ---------------------------------------------------------------------------
-- Closed statements
-- ---------------------------------------------------------------------------

/-- An item, or a statement that ends with a semicolon, is read alike whatever comes behind it. -/
theorem Runs.frame_ended
    (run : Runs budget (.call (.member .statement)) ⟨previous, before ++ old⟩ ⟨previous', old⟩)
    (ended : itemStart.holds ⟨previous, before ++ old⟩ = true
      ∨ ∃ joint span, previous' = some (.punct ';' joint span)) :
    before.any Token.isBarrier = true
      ∧ ∀ new, Runs budget (.call (.member .statement)) ⟨previous, before ++ new⟩
        ⟨previous', new⟩ := by
  rcases run.statement_cases with closed | ⟨-, noItem, less, unended⟩
  · exact closed
  · rcases ended with isItem | ⟨joint, span, last⟩
    · cases noItem.symm.trans isItem
    · obtain ⟨other, -⟩ := unended.settled.point last (by decide)
      cases other

-- ---------------------------------------------------------------------------
-- Open statements
-- ---------------------------------------------------------------------------

/-- No operator goes over the end of an open statement, where none is torn apart behind it. -/
theorem sealed_of_settled (settled : Cursor.Settled ⟨previous', old⟩)
    (last : before.getLast? = previous')
    (starts : ∀ c joint span tail, old = .punct c joint span :: tail → c ≠ '=' ∧ c ≠ '>') :
    Sealed before old := by
  intro c joint span d joint' span' tail isLast isFirst
  rw [Bool.eq_false_iff]
  intro joined
  obtain ⟨notEquals, notGreater⟩ := starts d joint' span' tail isFirst
  have twin : (c, d) ∈ twins := by simpa [joins, notEquals, notGreater] using joined
  have dangling_of_twin : ∀ pair ∈ twins,
      pair.1 ∈ dangling ∧ (pair.1 = '.' → pair.2 = '.') := by decide
  obtain ⟨dangles, point⟩ := dangling_of_twin _ twin
  obtain ⟨rfl, noStart⟩ := settled.point (last.symm.trans isLast) dangles
  obtain rfl := point rfl
  subst isFirst
  cases noStart

/-- An open statement that starts with a block takes the tokens that show it. -/
theorem Runs.keeps_block {position : ExprPosition} {after : List Token} (left : old ≠ [])
    (startsBlock : blockLike.holds ⟨previous, before ++ old⟩ = true)
    (run : Runs budget (.call (.primary position)) ⟨previous, before ++ old⟩
      ⟨previous', after ++ old⟩) :
    blockLike.holds ⟨previous, before⟩ = true ∧ itemStart.holds ⟨previous, before⟩ = false
      ∧ (word ["let"]).holds ⟨previous, before⟩ = false := by
  have taken := run.least_le_before left
  have some : 0 < before.length := Nat.lt_of_lt_of_le (Nat.succ_pos _) taken
  obtain ⟨token, front, rfl⟩ := List.exists_cons_of_length_pos some
  rcases Bool.or_eq_true_iff.mp startsBlock with brace | others
  · cases token with
    | group d content span =>
      obtain rfl : d = .brace := of_decide_eq_true brace
      exact ⟨rfl, rfl, rfl⟩
    | ident | literal | punct => cases brace
  · rcases Bool.or_eq_true_iff.mp others with label | others
    · obtain ⟨less, labelled⟩ := run.label_of_primary (Bool.and_eq_true_iff.mp label).1
      have least : after.length + 4 ≤ (token :: front).length := labelled.least_le_before left
      match front with
      | [] | [_] => simp at least
      | name :: colon :: front =>
        refine ⟨Bool.or_eq_true_iff.mpr (.inr (Bool.or_eq_true_iff.mpr (.inl ?_))), ?_⟩
        · cases token <;> cases colon <;> exact label
        · obtain ⟨joint, span, tail, quote⟩ := Look.rest_of_mark
            (Bool.and_eq_true_iff.mp (Bool.and_eq_true_iff.mp label).1).1
          cases quote
          exact ⟨rfl, rfl⟩
    · rcases Bool.or_eq_true_iff.mp others with block | keyword
      · obtain ⟨keyword, brace⟩ := Bool.and_eq_true_iff.mp block
        obtain ⟨name, mem, span, tail, rest⟩ := Look.rest_of_word keyword
        cases rest
        have isKeyword : name = "unsafe" ∨ name = "const" := by simpa using mem
        have brace : (group .brace).holds ⟨previous, front ++ old⟩ = true := brace
        obtain ⟨first, behind, split, isBrace⟩ := Look.rest_of_token brace
        have split : front ++ old = first :: behind := split
        cases first with
        | group d content span' =>
          obtain rfl : d = .brace := of_decide_eq_true isBrace
          rw [List.cons_append, split] at run
          have rest : after ++ old = behind := run.rest_of_keyword isKeyword
          match front with
          | [] =>
            have length := congrArg List.length split
            simp only [← rest, List.nil_append, List.length_cons, List.length_append] at length
            omega
          | token :: front =>
            cases split
            rcases isKeyword with rfl | rfl <;> exact ⟨rfl, rfl, rfl⟩
        | ident | literal | punct => cases isBrace
      · obtain ⟨name, mem, span, tail, rest⟩ := Look.rest_of_word keyword
        cases rest
        simp only [List.mem_cons, List.not_mem_nil, or_false] at mem
        rcases mem with rfl | rfl | rfl | rfl | rfl <;> exact ⟨rfl, rfl, rfl⟩

/-- The last token that a statement takes stands before its end. -/
theorem Runs.last_eq {rule : Production}
    (run : Runs budget rule ⟨previous, before ++ old⟩ ⟨previous', old⟩)
    (takes : rule.takes false = true) : before.getLast? = previous' := by
  have shorter := run.length_lt_of_takes takes nofun
  have run : Runs budget rule ⟨previous, before ++ old⟩ ⟨previous', [] ++ old⟩ := run
  obtain ⟨passed, split, -, last⟩ := run.passed_before
  obtain rfl : before = passed := by simpa using split
  have last : previous' = before.getLast?.or previous := last
  cases h : before.getLast? with
  | some token => rw [last, h]; rfl
  | none =>
    obtain rfl := List.getLast?_eq_none_iff.mp h
    exact absurd shorter (Nat.lt_irrefl _)

theorem Open.cut (left : old ≠ []) (h : Open budget ⟨previous, before ++ old⟩ ⟨previous', old⟩)
    (sealed : Sealed before old) (noLet : (word ["let"]).holds ⟨previous, before ++ old⟩ = false)
    (noItem : itemStart.holds ⟨previous, before ++ old⟩ = false) :
    (∃ more, Runs more (.call (.member .statement)) ⟨previous, before⟩ ⟨previous', []⟩)
      ∧ itemStart.holds ⟨previous, before⟩ = false := by
  cases h with
  | block startsBlock run =>
    have run : Runs budget (.seq (.call (.primary .free)) (.call .postfixTail))
      ⟨previous, before ++ old⟩ ⟨previous', [] ++ old⟩ := run
    obtain ⟨more, cut⟩ := run.cut left sealed rfl rfl
    cases run with
    | @seq _ _ _ _ middle _ primary tail =>
      obtain ⟨passed, passes⟩ := tail.passes
      obtain ⟨previous'', rest⟩ := middle
      obtain rfl : rest = passed ++ old := passes.rest
      obtain ⟨startsBlock, noItem, noLet⟩ := primary.keeps_block left startsBlock
      cases cut with
      | seq primary tail =>
        exact ⟨⟨more + 1, .call (.no noLet (.no noItem
          (.yes startsBlock (.seq primary (.seq tail (.no rfl .done))))))⟩, noItem⟩
  | expression noBlock run _ ends =>
    rcases ends with ending | brace
    · exact absurd ending left
    · -- The last token is a body, over which no lookahead sees.
      have last := run.last_eq rfl
      have barrier : before.any Token.isBarrier = true := by
        cases previous' with
        | none => cases brace
        | some token =>
          refine List.any_eq_true.mpr ⟨token, List.mem_of_getLast? last, ?_⟩
          rcases token with _ | _ | _ | ⟨_ | _ | _ | _, _, _⟩ <;> first | rfl | cases brace
      have run : Runs budget Grammar.expression ⟨previous, before ++ old⟩
        ⟨previous', [] ++ old⟩ := run
      obtain ⟨more, cut⟩ := run.cut left sealed rfl rfl
      rw [Look.holds_append rfl barrier] at noLet noItem noBlock
      exact ⟨⟨more + 1, .call (.no noLet (.no noItem
        (.no noBlock (.seq cut (.no rfl (.yes rfl .done))))))⟩, noItem⟩

/-- A statement is read alike when what comes behind it is cut off. -/
theorem Runs.cut_statement (left : old ≠ [])
    (run : Runs budget (.call (.member .statement)) ⟨previous, before ++ old⟩ ⟨previous', old⟩)
    (starts : ∀ c joint span tail, old = .punct c joint span :: tail → c ≠ '=' ∧ c ≠ '>') :
    (∃ more, Runs more (.call (.member .statement)) ⟨previous, before⟩ ⟨previous', []⟩)
      ∧ itemStart.holds ⟨previous, before⟩ = itemStart.holds ⟨previous, before ++ old⟩ := by
  rcases run.statement_cases with ⟨barrier, framed⟩ | ⟨noLet, noItem, less, unended⟩
  · have framed := framed []
    rw [List.append_nil] at framed
    exact ⟨⟨budget, framed⟩, (Look.holds_append rfl barrier previous old).symm⟩
  · have sealed := sealed_of_settled unended.settled (run.last_eq rfl) starts
    obtain ⟨cut, noItem'⟩ := unended.cut left sealed noLet noItem
    exact ⟨cut, noItem'.trans noItem.symm⟩

end Rule

-- ---------------------------------------------------------------------------
-- Statements with attributes
-- ---------------------------------------------------------------------------

theorem outerAttr_append {previous previous' : Option Token} {before : List Token}
    (holds : outerAttr.holds ⟨previous, before⟩ = true) (tail : List Token) :
    outerAttr.holds ⟨previous', before ++ tail⟩ = true := by
  obtain ⟨joint, span, content, span', rest, split⟩ := outerAttr_tokens holds
  have split : before = _ := split
  rw [split]
  rfl

namespace Member

open Rule

variable {budget more : Nat} {cursor head final other : Cursor}
  {previous previous' previous'' : Option Token} {attributes core old new : List Token}

/-- The names of attributes are read from the attributes alone. -/
theorem attributeNames_append
    (run : Runs budget (.call .outerAttrs) ⟨previous, attributes ++ old⟩ ⟨previous', old⟩) :
    attributeNames (attributes ++ old) = attributeNames attributes := by
  induction budget generalizing previous attributes with
  | zero => cases run
  | succ budget ih =>
    generalize hfinal : Cursor.mk previous' old = final at run
    cases run with
    | call run =>
      cases run with
      | yes holds run =>
        cases run with
        | seq skip rest =>
          cases skip
          obtain ⟨joint, span, content, span', tail, split⟩ := outerAttr_tokens holds
          have split : attributes ++ old = _ := split
          have left := rest.length_le
          simp only [Cursor.advance_rest, ← hfinal, List.length_drop, List.length_append] at left
          match attributes with
          | [] =>
            have length := congrArg List.length split
            simp at length left
            omega
          | [token] =>
            have length := congrArg List.length split
            simp at length left
            omega
          | hash :: bracket :: attributes =>
            cases split
            rw [← hfinal] at rest
            have names := ih rest
            simp only [List.cons_append, attributeNames]
            rw [names]
      | no fails run =>
        cases run
        obtain ⟨rfl, eq⟩ := Cursor.mk.injEq .. ▸ hfinal
        obtain rfl : attributes = [] := by simpa using eq
        rw [List.nil_append] at fails ⊢
        unfold attributeNames
        split
        · cases fails
        · rfl

/-- A statement with its attributes is read alike when something else comes behind it, if this is so
    for the statement without them. -/
theorem Reads.carry
    (reads : Reads .statement budget ⟨previous, attributes ++ (core ++ old)⟩
      ⟨previous', core ++ old⟩ ⟨previous'', old⟩)
    (element : Runs more (.call (.member .statement)) ⟨previous', core ++ new⟩ ⟨previous'', new⟩)
    (plain : ∀ previous, outerAttr.holds ⟨previous, core ++ new⟩ = false) :
    Reads .statement (max budget more) ⟨previous, attributes ++ (core ++ new)⟩
      ⟨previous', core ++ new⟩ ⟨previous'', new⟩ := by
  have shorter := reads.length_lt
  have attributesRun := reads.attributes.frame_outerAttrs plain
  refine ⟨?_, attributesRun.mono (Nat.le_max_left _ _), element.mono (Nat.le_max_right _ _)⟩
  rw [← List.append_assoc] at shorter ⊢
  match h : attributes ++ core with
  | [] => simp [h] at shorter
  | token :: rest =>
    refine ⟨List.cons_ne_nil _ _, fun statement => ?_⟩
    have noSemicolon := reads.starts.plain statement
    rw [← List.append_assoc, h] at noSemicolon
    cases token <;> exact noSemicolon

theorem isItem_of_rest {kind : Member} (same : other.rest = cursor.rest) :
    isItem kind other = isItem kind cursor := by
  unfold isItem
  rw [Look.holds_of_rest rfl same]

/-- A statement is read alike whatever token stands before it. -/
theorem Reads.other_previous (reads : Reads .statement budget cursor head final)
    (same : other.rest = cursor.rest) :
    ∃ head', Reads .statement budget other head' final ∧ head'.rest = head.rest := by
  have left := reads.starts.left
  obtain ⟨head', attributesRun, same'⟩ := reads.attributes.fresh_rest rfl left same
  have some : head.rest ≠ [] := reads.element.rest_ne rfl
  have moved : final.rest ≠ head.rest := by
    intro still
    have shorter := reads.element.length_lt some Nat.one_pos
    rw [still] at shorter
    exact Nat.lt_irrefl _ shorter
  refine ⟨head', ⟨⟨same ▸ left, fun statement => ?_⟩, attributesRun, ?_⟩, same'⟩
  · exact (Look.holds_of_rest rfl same).trans (reads.starts.plain statement)
  · exact reads.element.previous_irrelevant rfl some same' moved

/-- A statement with its attributes does not start with an inner attribute. -/
theorem Reads.not_innerAttr (reads : Reads .statement budget cursor head final) :
    innerAttr.holds cursor = false := by
  rcases reads with ⟨-, attributes, element⟩
  cases attributes with
  | call run =>
    cases run with
    | yes holds =>
      -- The second token of an outer attribute is a bracket group.
      obtain ⟨joint, span, content, span', rest, split⟩ := outerAttr_tokens holds
      obtain ⟨previous, _⟩ := cursor
      cases split
      exact Bool.and_false _
    | no _ run =>
      cases run
      exact element.not_innerAttr

end Member

end AliasExpansion
