-- SUMMARY: Grammar of attributes, visibility and statements.
import AliasExpansion.Syntax.Grammar.Expression

/-!
# Statements

A statement is a `let`, an item (`Syntax/Grammar/Item`) or an expression. Attributes and
visibility come before statements and before the members of other bodies.
-/

namespace AliasExpansion.Grammar

open Nonterminal Rule

/-- An outer attribute: `#` and a bracket group. -/
def outerAttr : Look :=
  .and (.mark 0 ['#']) (groupAt 1 .bracket)

def outerAttrsRule : Production :=
  optional outerAttr (steps [.skip 2, .call .outerAttrs])

/-- An inner attribute: `#`, `!` and a bracket group. -/
def innerAttr : Look :=
  .and (.mark 0 ['#']) (.and (.mark 1 ['!']) (groupAt 2 .bracket))

def innerAttrsRule : Production :=
  optional innerAttr (steps [.skip 3, .call .innerAttrs])

def visibilityRule : Production :=
  optional (word ["pub"])
    (steps
      [.skip 1,
        optional (.token 0 (.groupHead .parenthesis ["crate", "self", "super", "in"])) (.skip 1)])

def optionalType : Production :=
  optional (.mark 0 [':']) (steps [.skip 1, .call (.type true)])

/-- A type and an optional value: what follows the name of a constant. -/
def typedValue : Production :=
  steps
    [expectMark [':'], .call (.type true), optional (.mark 0 ['=']) (steps [.skip 1, expression]),
      expectMark [';']]

/-- A statement after its attributes. An expression needs no semicolon at the end of the block or
    when it ends in a brace group. -/
def statementRule : Production :=
  choose
    [(word ["let"],
        steps
          [.skip 1, .call .pattern, optionalType,
            optional (.mark 0 ['='])
              (steps [.skip 1, expression, optional (word ["else"]) (steps [.skip 1, block])]),
            expectMark [';']]),
      (itemStart, .call .item),
      (blockLike, steps [.call (.primary .free), .call .postfixTail, eatMark [';']])]
    (steps
      [expression,
        choose [(.mark 0 [';'], .skip 1), (.atEnd, .done), (.afterBrace, .done)]
          (.fail (.mark [';']))])

end AliasExpansion.Grammar
