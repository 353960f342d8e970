-- SUMMARY: Checking that tokens form exactly one production of a syntactic category.
import AliasExpansion.Syntax.Grammar

/-!
# Checking

`Nonterminal.recognize` gives each nonterminal its meaning: it runs the rule of the grammar, with
a budget for nested calls. `Category.check` accepts a token list when one production of the
category spans all of it. The budget that it grants is proportional to the number of tokens at
all depths, because a chain of calls that consumes nothing is short.
-/

namespace AliasExpansion

/-- Recognize a nonterminal with at most `budget` calls inside one another. -/
def Nonterminal.recognize : (budget : Nat) → Nonterminal → Cursor → Recognition
  | 0 => fun _ cursor =>
    .error { fault := .exhausted, span := cursor.rest.head?.map Token.span }
  | budget + 1 => fun nonterminal cursor => nonterminal.rule.run (recognize budget) cursor

/-- The number of calls that may be open at once before something is consumed. -/
def Grammar.callDepth : Nat := 32

/-- The budget for recognizing a token list. -/
def Grammar.budget (tokens : List Token) : Nat :=
  callDepth * (Token.weights tokens + 1)

inductive Category where
  | ident
  | path
  | type
  | expr
  | stringLiteral
  | intLiteral
  | block
deriving DecidableEq, Repr

namespace Category

open Grammar in
def rule : Category → Rule Nonterminal
  | .ident => name
  | .path => .call (.path .plain)
  | .type => .call (.type true)
  | .expr => expression
  | .stringLiteral => .ite (.token 0 (.literal [.str, .rawStr])) (.skip 1) (.fail .stringLiteral)
  | .intLiteral => .ite (.token 0 (.literal [.int])) (.skip 1) (.fail .integerLiteral)
  | .block => .seq (.call .innerAttrs) (.call (.members .statement))

/-- Fail unless `tokens` form exactly one production of the category. -/
def check (category : Category) (tokens : List Token) : Except SyntaxError Unit :=
  match category.rule.run (Nonterminal.recognize (Grammar.budget tokens)) (.start tokens) with
  | .ok final => if final.atEnd then .ok () else .error (final.unexpected .ending)
  | .error e => .error e

def accepts (category : Category) (tokens : List Token) : Bool :=
  (category.check tokens).isOk

theorem accepts_iff {category : Category} {tokens : List Token} :
    category.accepts tokens = true ↔ category.check tokens = .ok () := by
  rw [accepts]
  cases category.check tokens <;> simp [Except.isOk, Except.toBool]

-- ---------------------------------------------------------------------------
-- Categories of one token
-- ---------------------------------------------------------------------------

/-- A category that is decided by the next token takes exactly this one token. -/
theorem check_single {category : Category} {test : TokenTest} {want : Want}
    (rule : category.rule = .ite (.token 0 test) (.skip 1) (.fail want)) {tokens : List Token} :
    category.check tokens = .ok () ↔ ∃ token, tokens = [token] ∧ test.holds token = true := by
  rw [Category.check, rule, Rule.run]
  cases tokens with
  | nil => exact ⟨nofun, nofun⟩
  | cons token rest =>
    by_cases passes : test.holds token = true
    · have look : (Look.token 0 test).holds (.start (token :: rest)) = true := passes
      rw [if_pos look]
      cases rest with
      | nil => exact ⟨fun _ => ⟨token, rfl, passes⟩, fun _ => rfl⟩
      | cons => exact ⟨nofun, nofun⟩
    · have look : ¬ (Look.token 0 test).holds (.start (token :: rest)) = true := passes
      rw [if_neg look]
      refine ⟨nofun, ?_⟩
      rintro ⟨_, ⟨⟩, other⟩
      exact absurd other passes

theorem check_ident {tokens : List Token} : Category.ident.check tokens = .ok () ↔
    ∃ name span, tokens = [.ident name span] ∧ Name.isIdentifier name = true := by
  rw [check_single rfl]
  constructor
  · rintro ⟨token, rfl, usable⟩
    cases token with
    | ident name span => exact ⟨name, span, rfl, usable⟩
    | punct | literal | group => cases usable
  · rintro ⟨name, span, rfl, usable⟩
    exact ⟨_, rfl, usable⟩

theorem check_literal {category : Category} {kinds : List LiteralKind} {want : Want}
    (rule : category.rule = .ite (.token 0 (.literal kinds)) (.skip 1) (.fail want))
    {tokens : List Token} :
    category.check tokens = .ok () ↔ ∃ lit, tokens = [.literal lit] ∧ lit.kind ∈ kinds := by
  rw [check_single rule]
  constructor
  · rintro ⟨token, rfl, kind⟩
    cases token with
    | literal lit => exact ⟨lit, rfl, List.contains_iff_mem.mp kind⟩
    | ident | punct | group => cases kind
  · rintro ⟨lit, rfl, kind⟩
    exact ⟨_, rfl, List.contains_iff_mem.mpr kind⟩

theorem check_stringLiteral {tokens : List Token} :
    Category.stringLiteral.check tokens = .ok () ↔
      ∃ lit, tokens = [.literal lit] ∧ lit.isString = true := by
  refine Iff.trans (check_literal rfl) ?_
  simp [Literal.isString]

theorem check_intLiteral {tokens : List Token} :
    Category.intLiteral.check tokens = .ok () ↔
      ∃ lit, tokens = [.literal lit] ∧ lit.kind = .int := by
  refine Iff.trans (check_literal rfl) ?_
  simp only [List.mem_singleton]

end Category

end AliasExpansion
