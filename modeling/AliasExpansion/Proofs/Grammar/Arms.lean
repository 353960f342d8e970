-- SUMMARY: Match arms with bodies in braces need no commas, unless an arm goes on an expression.
import AliasExpansion.Proofs.Grammar.Extension
import AliasExpansion.Proofs.Grammar.Insertion
import AliasExpansion.Proofs.Grammar.Scrutinee

/-!
# Match arms

After an arm whose body is a block no comma is needed: the body is read as an expression, it ends in
a brace group, and the next arm follows. But an expression does not end where something that goes on
an expression comes next (`Grammar.goesOn`), and a pattern may start like that: with a parenthesis,
a bracket, a `&`, a `-` or a `..`. So two arms without a comma between them are read as two arms
when the second does not go on (`Arm.Precedes`), and the body of the match holds arms if each arm
precedes the next (`Rule.armsRead`). In front of them stands a scrutinee that stops before a body.
-/

namespace AliasExpansion

open Grammar Rule

-- ---------------------------------------------------------------------------
-- Going on
-- ---------------------------------------------------------------------------

namespace Grammar

/-- One of the operators comes next, and it is an operator of expressions. -/
def operatorAhead : List (List Char × OperatorRole) → Look
  | [] => .and .atEnd (.not .atEnd)
  | (chars, .other) :: rest => .and (.not (.mark 0 chars)) (operatorAhead rest)
  | (chars, _) :: rest => .or (.mark 0 chars) (operatorAhead rest)

/-- An expression that could end here goes on: with a call, an index, a member, `?`, a cast or an
    operator. -/
def goesOn : Look :=
  .or (.mark 0 ['?'])
    (.or (.and (.mark 0 ['.']) (.not (.mark 0 dots)))
      (.or (group .parenthesis)
        (.or (group .bracket) (.or (word ["as"]) (operatorAhead operators)))))

/-- A lookahead for what goes on does not see over a barrier. -/
theorem goesOn_closed :
    (List.range (goesOn.reach + 1)).all (fun count => (goesOn.peek .barrier count).settled)
      = true := by
  decide +kernel

end Grammar

namespace Rule

variable {budget : Nat} {cursor : Cursor}

theorem Runs.operators_rest {operators : List (List Char × OperatorRole)}
    (h : (operatorAhead operators).holds cursor = false) :
    Runs budget (choose (operators.map fun (chars, role) =>
      (.mark 0 chars, role.rule 0 .free chars)) .done) cursor cursor := by
  induction operators with
  | nil => exact .done
  | cons operator rest ih =>
    obtain ⟨chars, role⟩ := operator
    cases mark : (Look.mark 0 chars).holds cursor with
    | true =>
      cases role with
      | other => exact .yes mark .done
      | _ => cases (Bool.or_eq_false_iff.mp h).1.symm.trans mark
    | false =>
      refine .no mark (ih ?_)
      cases role with
      | other =>
        rw [operatorAhead, Look.holds, Look.holds, mark] at h
        exact h
      | _ => exact (Bool.or_eq_false_iff.mp h).2

/-- Where nothing goes on, what may follow an operand takes nothing. -/
theorem Runs.rest_of_goesOn (h : goesOn.holds cursor = false) :
    Runs 1 (.call .postfixTail) cursor cursor
      ∧ Runs 1 (.call (.binaryTail 0 .free)) cursor cursor := by
  obtain ⟨question, h⟩ := Bool.or_eq_false_iff.mp h
  obtain ⟨point, h⟩ := Bool.or_eq_false_iff.mp h
  obtain ⟨call, h⟩ := Bool.or_eq_false_iff.mp h
  obtain ⟨index, h⟩ := Bool.or_eq_false_iff.mp h
  obtain ⟨cast, h⟩ := Bool.or_eq_false_iff.mp h
  exact ⟨.call (.no question (.no point (.no call (.no index .done)))),
    .call (.no cast (.operators_rest h))⟩

/-- A primary expression that does not start with punctuation is a whole expression where nothing
    goes on behind it. -/
theorem Runs.expression_of_primary {token : Token} {rest : List Token} {previous : Option Token}
    {final : Cursor} (plain : ∀ c joint span, token ≠ .punct c joint span)
    (run : Runs budget (.call (.primary .free)) ⟨previous, token :: rest⟩ final)
    (stops : goesOn.holds final = false) :
    Runs (budget + 3) expression ⟨previous, token :: rest⟩ final := by
  obtain ⟨operand, operators⟩ := Runs.rest_of_goesOn stops
  cases token with
  | punct c joint span => exact absurd rfl (plain c joint span)
  | ident | literal | group =>
    refine .call (.seq (.no rfl (.no rfl ?_)) (operators.mono (by omega)))
    exact .call (.no rfl (.no rfl (.no rfl (.seq (run.mono (by omega))
      (operand.mono (by omega))))))

end Rule

-- ---------------------------------------------------------------------------
-- Arms
-- ---------------------------------------------------------------------------

/-- An arm of a match whose body is a block. -/
structure Arm where
  pattern : List Token
  equals : Span
  /-- Whether the second character of the arrow is joint. -/
  joint : Bool
  greater : Span
  body : List Token
  bodySpan : Span
  /-- The comma after the arm, if there is one. -/
  comma : Option (Bool × Span)
  isPattern : Rule.Accepts (.call .pattern) pattern
  isBlock : Category.block.accepts body = true

namespace Arm

def comma? (arm : Arm) : List Token :=
  (arm.comma.map fun (joint, span) => .punct ',' joint span).toList

def tokens (arm : Arm) : List Token :=
  arm.pattern ++ .punct '=' true arm.equals :: .punct '>' arm.joint arm.greater ::
    .group .brace arm.body arm.bodySpan :: arm.comma?

/-- The arm `pattern => {}`, without a comma. -/
def plain (pattern : List Token) (isPattern : Rule.Accepts (.call .pattern) pattern) : Arm where
  pattern
  equals := {}
  joint := false
  greater := {}
  body := []
  bodySpan := {}
  comma := none
  isPattern
  isBlock := rfl

/-- The next arm may follow: there is a comma between them, or it does not go on an expression. -/
def Precedes (arm next : Arm) : Prop :=
  arm.comma.isSome = true ∨ goesOn.holds (.start next.tokens) = false

variable {arm : Arm} {others : List Arm} {previous : Option Token}

theorem any_isBarrier (arm : Arm) : arm.tokens.any Token.isBarrier = true := by
  simp [tokens, Token.isBarrier]

/-- Nothing goes on behind the body of an arm. -/
theorem goesOn_comma (precedes : (arm :: others).IsChain Precedes) :
    goesOn.holds ⟨previous, arm.comma? ++ others.flatMap tokens⟩ = false := by
  unfold comma?
  cases comma : arm.comma with
  | some place => rfl
  | none =>
    match others with
    | [] => rfl
    | next :: others =>
      have apart : goesOn.holds (.start next.tokens) = false := by
        obtain ⟨first, -⟩ := List.isChain_cons_cons.mp precedes
        exact first.resolve_left (by simp [comma])
      have same : goesOn.holds ⟨previous, next.tokens ++ others.flatMap tokens⟩
          = goesOn.holds ⟨previous, next.tokens⟩ :=
        Look.holds_append goesOn_closed next.any_isBarrier _ _
      exact same.trans ((Look.holds_of_rest rfl rfl).trans apart)

end Arm

namespace Rule

variable {budget : Nat} {cursor final : Cursor}

/-- A pattern does not start with an attribute. -/
theorem Runs.not_outerAttr (run : Runs budget (.call .pattern) cursor final) :
    outerAttr.holds cursor = false := by
  rw [Bool.eq_false_iff]
  intro holds
  obtain ⟨joint, span, content, span', rest, split⟩ := outerAttr_tokens holds
  obtain ⟨previous, _⟩ := cursor
  cases split
  have result := runs_iff.mp run
  rcases budget with _ | _ | budget <;> cases result

/-- A pattern is read alike before an arrow, whatever comes before the pattern and behind the
    arrow. -/
theorem Accepts.before_arrow {pattern tail : List Token}
    (accepted : Rule.Accepts (.call .pattern) pattern) (detached : Token.detached pattern = true)
    (arrow : Arrow tail) (previous : Option Token) :
    ∃ budget last, Runs budget (.call .pattern) ⟨previous, pattern ++ tail⟩ ⟨last, tail⟩ := by
  obtain ⟨budget, ⟨last, rest⟩, run, ending⟩ := accepted
  obtain rfl : rest = [] := ending
  have moves := run.rest_ne rfl
  have run : Runs budget (.call .pattern) ⟨previous, pattern⟩ ⟨last, []⟩ :=
    run.previous_irrelevant rfl moves rfl moves.symm
  have known : (none : Option Look).all (·.holds ⟨previous, pattern⟩) = true := rfl
  exact ⟨budget, last, run.extend arrow detached (Nat.zero_le _) rfl rfl known⟩

/-- A block is a whole expression where nothing goes on behind it. -/
theorem Runs.expression_of_block {body rest : List Token} {span : Span}
    (isBlock : Category.block.accepts body = true)
    (stops : goesOn.holds ⟨some (.group .brace body span), rest⟩ = false)
    (previous : Option Token) :
    ∃ budget, Runs budget expression ⟨previous, .group .brace body span :: rest⟩
      ⟨some (.group .brace body span), rest⟩ := by
  obtain ⟨budget, final, inside, ending⟩ := Category.accepts_iff_accepts.mp isBlock
  have block : Runs budget block ⟨previous, .group .brace body span :: rest⟩
      ⟨some (.group .brace body span), rest⟩ := .within rfl inside ending
  have primary : Runs (budget + 1) (.call (.primary .free))
      ⟨previous, .group .brace body span :: rest⟩ ⟨some (.group .brace body span), rest⟩ :=
    .call (.no rfl (.no rfl (.no rfl (.yes rfl block))))
  exact ⟨_, primary.expression_of_primary (by simp) stops⟩

/-- The arms in `tokens` are read up to the end. -/
def ArmsRead (tokens : List Token) : Prop :=
  ∀ previous, ∃ budget final, Runs budget (.call .arms) ⟨previous, tokens⟩ final ∧ final.rest = []

/-- Arms do not start with a comma. -/
theorem ArmsRead.not_comma {rest : List Token} (reads : ArmsRead rest)
    (previous : Option Token) : (Look.mark 0 [',']).holds ⟨previous, rest⟩ = false := by
  rw [Bool.eq_false_iff]
  intro holds
  obtain ⟨joint, span, tail, rfl⟩ := Token.eq_of_spell holds
  obtain ⟨budget, final, run, -⟩ := reads previous
  have result := runs_iff.mp run
  rcases budget with _ | _ | _ | _ | budget <;> cases result

/-- Arms do not start with an inner attribute. -/
theorem ArmsRead.not_innerAttr {rest : List Token} (reads : ArmsRead rest)
    (previous : Option Token) : innerAttr.holds ⟨previous, rest⟩ = false := by
  rw [Bool.eq_false_iff]
  intro holds
  obtain ⟨joint, span, joint', span', content, span'', tail, split⟩ := innerAttr_tokens holds
  obtain rfl : rest = _ := split
  obtain ⟨budget, final, run, -⟩ := reads previous
  have result := runs_iff.mp run
  rcases budget with _ | _ | _ | _ | budget <;> cases result

/-- Behind the body of an arm come a comma or nothing, and further arms. -/
theorem ArmsRead.after_body {rest : List Token} (more : ArmsRead rest) (arm : Arm) {body : Token}
    (isBody : body.isBraceGroup = true) :
    ∃ budget final, Runs budget
      (choose [(.mark 0 [','], steps [.skip 1, .call .arms]), (.afterBrace, .call .arms)] .done)
      ⟨some body, arm.comma? ++ rest⟩ final ∧ final.rest = [] := by
  unfold Arm.comma?
  cases arm.comma with
  | some place =>
    obtain ⟨budget, final, run, ending⟩ := more (some (.punct ',' place.1 place.2))
    exact ⟨budget, final, .yes rfl (.seq .skip run), ending⟩
  | none =>
    obtain ⟨budget, final, run, ending⟩ := more (some body)
    exact ⟨budget, final, .no (more.not_comma _) (.yes isBody run), ending⟩

/-- An arm is read, and then the arms behind it. -/
theorem ArmsRead.cons {arm : Arm} {rest : List Token} (more : ArmsRead rest)
    (detached : Token.detached arm.pattern = true)
    (stops : goesOn.holds ⟨some (.group .brace arm.body arm.bodySpan), arm.comma? ++ rest⟩
      = false) : ArmsRead (arm.tokens ++ rest) := by
  intro previous
  have split : arm.tokens ++ rest = arm.pattern ++ (.punct '=' true arm.equals ::
      .punct '>' arm.joint arm.greater :: .group .brace arm.body arm.bodySpan ::
        (arm.comma? ++ rest)) := by
    simp only [Arm.tokens, List.append_assoc, List.cons_append]
  obtain ⟨budget₁, last, pattern⟩ := arm.isPattern.before_arrow detached
    (.intro arm.equals arm.joint arm.greater
      (.group .brace arm.body arm.bodySpan :: (arm.comma? ++ rest))) previous
  obtain ⟨budget₂, body⟩ := Runs.expression_of_block arm.isBlock stops
    (some (.punct '>' arm.joint arm.greater))
  have isBody : (Token.group .brace arm.body arm.bodySpan).isBraceGroup = true := rfl
  obtain ⟨budget₃, final, next, ending⟩ := more.after_body arm isBody
  rw [← split] at pattern
  have inside : Look.atEnd.holds ⟨previous, arm.tokens ++ rest⟩ = false := by
    rw [split]
    cases arm.pattern <;> rfl
  have attributes : Runs 1 (.call .outerAttrs) ⟨previous, arm.tokens ++ rest⟩
      ⟨previous, arm.tokens ++ rest⟩ := .call (.no pattern.not_outerAttr .done)
  let budget := max (max budget₁ budget₂) (max budget₃ 1)
  have run : Runs budget armsRule ⟨previous, arm.tokens ++ rest⟩ final :=
    .no inside (.seq (attributes.mono (by omega)) (.seq (pattern.mono (by omega))
      (.seq (.no rfl .done) (.seq (.yes rfl .skip) (.seq (body.mono (by omega))
        (next.mono (by omega)))))))
  exact ⟨budget + 1, final, .call run, ending⟩

/-- The arms of a match are read one behind the other. -/
theorem armsRead {arms : List Arm} (detached : ∀ arm ∈ arms, Token.detached arm.pattern = true)
    (chain : arms.IsChain Arm.Precedes) : ArmsRead (arms.flatMap Arm.tokens) := by
  induction arms with
  | nil => exact fun previous => ⟨1, _, .call (.yes rfl .done), rfl⟩
  | cons arm others ih =>
    obtain ⟨armDetached, othersDetached⟩ := List.forall_mem_cons.mp detached
    rw [List.flatMap_cons]
    exact (ih othersDetached chain.of_cons).cons armDetached (Arm.goesOn_comma chain)

/-- A match is an expression when its scrutinee stops before the body and the body holds arms. -/
theorem Runs.match_of_arms {scrutinee tokens : List Token} {span span' : Span}
    {last : Option Token}
    (run : Runs budget (.call (.binary 0 .beforeBlock))
      ⟨some (.ident "match" span), scrutinee ++ [.group .brace tokens span']⟩
      ⟨last, [.group .brace tokens span']⟩) (reads : ArmsRead tokens) :
    ∃ more, Runs more expression
      (.start (.ident "match" span :: scrutinee ++ [.group .brace tokens span']))
      ⟨some (.group .brace tokens span'), []⟩ := by
  obtain ⟨budget', final, arms, ending⟩ := reads none
  have attributes : Runs 1 (.call .innerAttrs) (.start tokens) (.start tokens) :=
    .call (.no (reads.not_innerAttr none) .done)
  let more := max (max budget budget') 1
  have body : Runs more (.within .brace (steps [.call .innerAttrs, .call .arms]))
      ⟨last, [.group .brace tokens span']⟩ ⟨some (.group .brace tokens span'), []⟩ :=
    .within rfl (.seq (attributes.mono (by omega)) (arms.mono (by omega))) ending
  have whole : Runs more (.seq (.skip 1) (.seq (.call (.binary 0 .beforeBlock))
      (.within .brace (steps [.call .innerAttrs, .call .arms]))))
      (.start (.ident "match" span :: scrutinee ++ [.group .brace tokens span']))
      ⟨some (.group .brace tokens span'), []⟩ := .seq .skip (.seq (run.mono (by omega)) body)
  have primary : Runs (more + 1) (.call (.primary .free))
      (.start (.ident "match" span :: scrutinee ++ [.group .brace tokens span']))
      ⟨some (.group .brace tokens span'), []⟩ := by
    refine .call ?_
    rw [runs_iff] at whole ⊢
    exact whole
  exact ⟨_, primary.expression_of_primary (by simp) rfl⟩

end Rule

-- ---------------------------------------------------------------------------
-- Matches
-- ---------------------------------------------------------------------------

/-- Arms whose bodies are blocks need no commas between them, where the next arm does not go on the
    expression that the block is. -/
theorem Category.match_arms_need_no_commas {scrutinee : List Token} {span span' : Span}
    {arms : List Arm}
    (accepted : Rule.Accepts (.call (.binary 0 .beforeBlock)) scrutinee)
    (stops : Category.expr.accepts
      (.ident "match" span :: scrutinee ++ [.group .brace [] span']) = true)
    (detached : ∀ arm ∈ arms, Token.detached arm.pattern = true)
    (chain : arms.IsChain Arm.Precedes) :
    Category.expr.accepts
      (.ident "match" span :: scrutinee ++ [.group .brace (arms.flatMap Arm.tokens) span'])
        = true := by
  obtain ⟨_, last, run⟩ := Rule.Runs.scrutinee accepted stops (arms.flatMap Arm.tokens)
  obtain ⟨budget, whole⟩ := run.match_of_arms (Rule.armsRead detached chain)
  exact Category.accepts_iff_accepts.mpr ⟨budget, _, whole, rfl⟩

/-- The arms of `match x { 1 => {} ref y => {} _ => {} }`. -/
theorem Category.match_arms_need_no_commas_words :
    ∃ (scrutinee : List Token) (arms : List Arm),
      Rule.Accepts (.call (.binary 0 .beforeBlock)) scrutinee
      ∧ Category.expr.accepts (.ident "match" {} :: scrutinee ++ [.group .brace [] {}]) = true
      ∧ arms.length = 3 ∧ (∀ arm ∈ arms, arm.comma = none)
      ∧ (∀ arm ∈ arms, Token.detached arm.pattern = true) ∧ arms.IsChain Arm.Precedes
      ∧ Category.expr.accepts
        (.ident "match" {} :: scrutinee ++ [.group .brace (arms.flatMap Arm.tokens) {}])
          = true := by
  let one := Arm.plain [.literal { kind := .int, text := "1", span := {} }]
    ⟨9, _, Rule.runs_iff.mpr rfl, rfl⟩
  let bound := Arm.plain [.ident "ref" {}, .ident "y" {}] ⟨9, _, Rule.runs_iff.mpr rfl, rfl⟩
  let wild := Arm.plain [.ident "_" {}] ⟨9, _, Rule.runs_iff.mpr rfl, rfl⟩
  have accepted : Rule.Accepts (.call (.binary 0 .beforeBlock)) [.ident "x" {}] :=
    ⟨9, _, Rule.runs_iff.mpr rfl, rfl⟩
  have stops : Category.expr.accepts
      (.ident "match" {} :: [.ident "x" {}] ++ [.group .brace [] {}]) = true := by
    decide +kernel
  have detached : ∀ arm ∈ [one, bound, wild], Token.detached arm.pattern = true := by
    simp [one, bound, wild, Arm.plain, Token.detached, Token.isJoint]
  have chain : [one, bound, wild].IsChain Arm.Precedes :=
    .cons_cons (.inr rfl) (.cons_cons (.inr rfl) (.singleton _))
  exact ⟨_, _, accepted, stops, rfl, by simp [one, bound, wild, Arm.plain], detached, chain,
    Category.match_arms_need_no_commas accepted stops detached chain⟩

/-- The second arm of `match x { 1 => {} (a) => {} }` is taken for a call of the body of the first.
    With commas it is an arm. -/
theorem Category.match_arms_called :
    ∃ (scrutinee : List Token) (arms : List Arm) (comma : Bool × Span),
      Rule.Accepts (.call (.binary 0 .beforeBlock)) scrutinee
      ∧ arms ≠ [] ∧ (∀ arm ∈ arms, arm.comma = none)
      ∧ Category.expr.accepts (.ident "match" {} :: scrutinee ++
        [.group .brace ((arms.map ({ · with comma := some comma })).flatMap Arm.tokens) {}]) = true
      ∧ Category.expr.accepts
        (.ident "match" {} :: scrutinee ++ [.group .brace (arms.flatMap Arm.tokens) {}])
          = false := by
  let one := Arm.plain [.literal { kind := .int, text := "1", span := {} }]
    ⟨9, _, Rule.runs_iff.mpr rfl, rfl⟩
  let tuple := Arm.plain [.group .parenthesis [.ident "a" {}] {}]
    ⟨9, _, Rule.runs_iff.mpr rfl, rfl⟩
  exact ⟨[.ident "x" {}], [one, tuple], (false, {}), ⟨9, _, Rule.runs_iff.mpr rfl, rfl⟩, nofun,
    by simp [one, tuple, Arm.plain], by decide +kernel, by decide +kernel⟩

end AliasExpansion
