-- SUMMARY: Grammar of patterns.
import AliasExpansion.Syntax.Grammar.Path

/-!
# Patterns

A pattern is a list of alternatives with bars between them. A parameter of a function or a
closure takes a single alternative.
-/

namespace AliasExpansion.Grammar

open Nonterminal Rule

/-- The bar of an alternative, as opposed to a longer operator that starts with one. -/
def alternativeBar : Look :=
  .and (.mark 0 ['|']) (.not (.mark 0 bars))

def patternRule : Production :=
  steps
    [optional alternativeBar (.skip 1), .call .patternAtom, .call .patternAlternatives]

def patternAlternativesRule : Production :=
  optional (.and alternativeBar (.not (.mark 0 ['|', '='])))
    (steps [.skip 1, .call .patternAtom, .call .patternAlternatives])

/-- A subpattern after `@`. -/
def subpattern : Production :=
  optional (.mark 0 ['@']) (steps [.skip 1, .call .patternAtom])

/-- An inclusive range mark in either spelling. -/
def inclusiveDots : Look :=
  .or (.mark 0 dotsEquals) (.mark 0 ellipsis)

def patternAtomRule : Production :=
  choose
    [(literal, steps [.skip 1, .call .rangePatternEnd]),
      (.and (.mark 0 ['-']) (.token 1 .anyLiteral), steps [.skip 2, .call .rangePatternEnd]),
      (inclusiveDots, steps [.skip 3, .call .rangeBound]),
      (.mark 0 dots, steps [.skip 2, optional (.or literal (.mark 0 ['-'])) (.call .rangeBound)]),
      (.mark 0 ['&'], steps [.skip 1, eatWord "mut", .call .patternAtom]),
      (group .parenthesis, listIn .parenthesis .pattern),
      (group .bracket, listIn .bracket .pattern),
      (.mark 0 ['<'], .call .qualifiedPath),
      (word ["_", "true", "false"], .skip 1),
      (word ["box"], steps [.skip 1, .call .patternAtom]),
      (word ["ref", "mut"], steps [eatWord "ref", eatWord "mut", name, subpattern]),
      (binding, steps [.skip 1, subpattern]),
      (pathStart,
        steps
          [.call (.path .expression),
            choose
              [(macroArguments, .skip 2),
                (group .parenthesis, listIn .parenthesis .pattern),
                (group .brace, .within .brace (.call .fieldPatterns))]
              (.call .rangePatternEnd)])]
    (.fail .pattern)

def rangePatternEndRule : Production :=
  choose
    [(inclusiveDots, steps [.skip 3, .call .rangeBound]),
      (.and (.mark 0 dots) (.or (.token 2 .anyLiteral) (.mark 2 ['-'])),
        steps [.skip 2, .call .rangeBound])]
    .done

def rangeBoundRule : Production :=
  steps [eatMark ['-'], .ite literal (.skip 1) (.call (.path .expression))]

def fieldPatternsRule : Production :=
  .ite .atEnd .done
    (steps
      [.call .outerAttrs,
        .ite (.mark 0 dots) (.skip 2)
          (steps
            [choose
                [(.token 0 (.literal [.int]),
                    steps [.skip 1, expectMark [':'], .call .pattern]),
                  (nameColon, steps [.skip 2, .call .pattern])]
                (steps [eatWord "box", eatWord "ref", eatWord "mut", name]),
              optional (.mark 0 [',']) (steps [.skip 1, .call .fieldPatterns])])])

end AliasExpansion.Grammar
