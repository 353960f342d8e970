-- SUMMARY: Grammar of expressions: operators by precedence, operands, blocks and closures.
import AliasExpansion.Syntax.Grammar.TypeForm

/-!
# Expressions

Operators are read by precedence climbing: an operand, then operators that bind at least as
tightly as the context asks for, each with its right operand. The operators are a table.
-/

namespace AliasExpansion.Grammar

open Nonterminal Rule

-- ---------------------------------------------------------------------------
-- Operators
-- ---------------------------------------------------------------------------

/-- What an operator means for the expression around it. -/
inductive OperatorRole where
  /-- A left-associative operator. -/
  | binary (precedence : Nat)
  /-- Right-associative, of precedence one. -/
  | assign
  /-- A range, of precedence two. Its right end may be absent. -/
  | range
  /-- No operator of expressions. -/
  | other

/-- The operators. A longer one comes before its beginnings. -/
def operators : List (List Char × OperatorRole) :=
  [(['<', '<', '='], .assign), (['>', '>', '='], .assign), (ellipsis, .other),
    (dotsEquals, .range), (colons, .other), (arrow, .other), (fatArrow, .other),
    (['=', '='], .binary 5), (notEquals, .binary 5), (['<', '='], .binary 5),
    (['>', '='], .binary 5), (['&', '&'], .binary 4), (bars, .binary 3), (['+', '='], .assign),
    (['-', '='], .assign), (['*', '='], .assign), (['/', '='], .assign), (['%', '='], .assign),
    (['^', '='], .assign), (['&', '='], .assign), (['|', '='], .assign), (['<', '<'], .binary 9),
    (['>', '>'], .binary 9), (dots, .range), (['='], .assign), (['<'], .binary 5),
    (['>'], .binary 5), (['|'], .binary 6), (['^'], .binary 7), (['&'], .binary 8),
    (['+'], .binary 10), (['-'], .binary 10), (['*'], .binary 11), (['/'], .binary 11),
    (['%'], .binary 11)]

/-- The right end of a range, if there is one. -/
def rangeEnd (position : ExprPosition) : Production :=
  optional expressionStart (.call (.binary 3 position))

/-- Go on after an operand at an operator whose `precedence` is at least `minPrecedence`. -/
def operatorRule (minPrecedence precedence : Nat) (position : ExprPosition)
    (chars : List Char) (operand : Production) : Production :=
  if precedence < minPrecedence then .done
  else steps [.skip chars.length, operand, .call (.binaryTail minPrecedence position)]

def OperatorRole.rule (minPrecedence : Nat) (position : ExprPosition) (chars : List Char) :
    OperatorRole → Production
  | .binary precedence =>
    operatorRule minPrecedence precedence position chars
      (.call (.binary (precedence + 1) position))
  | .assign => operatorRule minPrecedence 1 position chars (.call (.binary 1 position))
  | .range => operatorRule minPrecedence 2 position chars (rangeEnd position)
  | .other => .done

-- ---------------------------------------------------------------------------
-- Operands
-- ---------------------------------------------------------------------------

def expression : Production :=
  .call (.binary 0 .free)

/-- A brace group with statements. -/
def block : Production :=
  .within .brace (steps [.call .innerAttrs, .call (.members .statement)])

def binaryRule (minPrecedence : Nat) (position : ExprPosition) : Production :=
  steps
    [choose
        [(.mark 0 dotsEquals, steps [.skip 3, rangeEnd position]),
          (.mark 0 dots, steps [.skip 2, rangeEnd position])]
        (.call (.unary position)),
      .call (.binaryTail minPrecedence position)]

/-- What may follow an operand: a cast, or an operator that binds tightly enough. -/
def binaryTailRule (minPrecedence : Nat) (position : ExprPosition) : Production :=
  choose
    ((word ["as"],
        steps [.skip 1, .call (.type false), .call (.binaryTail minPrecedence position)]) ::
      operators.map fun (chars, role) =>
        (.mark 0 chars, role.rule minPrecedence position chars))
    .done

def unaryRule (position : ExprPosition) : Production :=
  choose
    [(.and (.mark 0 ['#']) (groupAt 1 .bracket), steps [.skip 2, .call (.unary position)]),
      (.or (.mark 0 ['-']) (.or (.mark 0 ['!']) (.mark 0 ['*'])),
        steps [.skip 1, .call (.unary position)]),
      (.mark 0 ['&'], steps [.skip 1, eatWord "mut", .call (.unary position)])]
    (steps [.call (.primary position), .call .postfixTail])

/-- Whatever may follow a primary expression: `?`, a member, a call or an index. -/
def postfixTailRule : Production :=
  choose
    [(.mark 0 ['?'], steps [.skip 1, .call .postfixTail]),
      (.and (.mark 0 ['.']) (.not (.mark 0 dots)),
        steps
          [.skip 1,
            choose
              [(.token 0 .anyIdent,
                  steps
                    [.skip 1,
                      optional (.and (.mark 0 colons) (.mark 2 ['<']))
                        (steps [.skip 2, .call .genericArgs])]),
                (.token 0 (.literal [.int, .float]), .skip 1)]
              (.fail .memberName),
            .call .postfixTail]),
      (group .parenthesis, steps [listIn .parenthesis .expression, .call .postfixTail]),
      (group .bracket, steps [.within .bracket expression, .call .postfixTail])]
    .done

/-- An array: nothing, a repeated element, or a list. -/
def arrayContent : Production :=
  .ite .atEnd .done
    (steps
      [expression,
        choose
          [(.mark 0 [';'], steps [.skip 1, expression]),
            (.mark 0 [','], steps [.skip 1, .call (.list .expression)])]
          .done])

def operandAfter (position : ExprPosition) : Production :=
  optional expressionStart (.call (.binary 0 position))

def primaryRule (position : ExprPosition) : Production :=
  choose
    [(literal, .skip 1),
      (group .parenthesis, listIn .parenthesis .expression),
      (group .bracket, .within .bracket arrayContent),
      (group .brace, block),
      (group .none, .within .none expression),
      (lifetime, steps [.skip 2, expectMark [':'], .call (.primary position)]),
      (.mark 0 ['|'], .call .closure),
      (.mark 0 ['<'], .call .qualifiedPath),
      (.mark 0 colons, .call (.pathExpr position)),
      (word ["true", "false"], .skip 1),
      (word ["if"], .call .ifExpr),
      (word ["match"],
        steps
          [.skip 1, .call (.binary 0 .beforeBlock),
            .within .brace (steps [.call .innerAttrs, .call .arms])]),
      (word ["loop", "unsafe"], steps [.skip 1, block]),
      (word ["while"], steps [.skip 1, .call .condition, block]),
      (word ["for"],
        steps
          [.skip 1, .call .pattern, expectWord "in", .call (.binary 0 .beforeBlock), block]),
      (.and (word ["const"]) (groupAt 1 .brace), steps [.skip 1, block]),
      (word ["async"],
        steps [.skip 1, eatWord "move", .ite (.mark 0 ['|']) (.call .closure) block]),
      (word ["move"], steps [.skip 1, .call .closure]),
      (word ["return", "yield"], steps [.skip 1, operandAfter position]),
      (word ["break"], steps [.skip 1, optional lifetime (.skip 2), operandAfter position]),
      (word ["continue"], steps [.skip 1, optional lifetime (.skip 2)]),
      (.token 0 .pathSegment, .call (.pathExpr position))]
    (.fail .expression)

/-- A path, the call of a macro, or a struct literal. -/
def pathExprRule (position : ExprPosition) : Production :=
  steps
    [.call (.path .expression),
      .ite (.and macroArguments (.not (.mark 0 notEquals))) (.skip 2)
        (match position with
          | .free => optional (group .brace) (.within .brace (.call .structFields))
          | .beforeBlock => .done)]

def structFieldsRule : Production :=
  choose
    [(.atEnd, .done),
      (.mark 0 dots, steps [.skip 2, .ite .atEnd .done expression])]
    (steps
      [.ite (.token 0 (.literal [.int])) (.skip 1) name,
        optional (.mark 0 [':']) (steps [.skip 1, expression]),
        optional (.mark 0 [',']) (steps [.skip 1, .call .structFields])])

def conditionRule : Production :=
  steps
    [optional (word ["let"]) (steps [.skip 1, .call .pattern, expectMark ['=']]),
      .call (.binary 0 .beforeBlock)]

def ifExprRule : Production :=
  steps
    [expectWord "if", .call .condition, block,
      optional (word ["else"])
        (steps [.skip 1, .ite (word ["if"]) (.call .ifExpr) block])]

/-- Match arms. A comma may be left out after an arm that ends in a brace group. -/
def armsRule : Production :=
  .ite .atEnd .done
    (steps
      [.call .outerAttrs, .call .pattern, optional (word ["if"]) (steps [.skip 1, expression]),
        expectMark fatArrow, expression,
        choose
          [(.mark 0 [','], steps [.skip 1, .call .arms]),
            (.afterBrace, .call .arms)]
          .done])

def closureRule : Production :=
  steps
    [.ite (.mark 0 bars) (.skip 2)
        (steps [expectMark ['|'], .call .closureParams, expectMark ['|']]),
      .ite (.mark 0 arrow) (steps [.skip 2, .call (.type false), block]) expression]

def closureParamsRule : Production :=
  .ite (.mark 0 ['|']) .done
    (steps
      [.call .outerAttrs, .call .patternAtom,
        optional (.mark 0 [':']) (steps [.skip 1, .call (.type false)]),
        optional (.mark 0 [',']) (steps [.skip 1, .call .closureParams])])

end AliasExpansion.Grammar
