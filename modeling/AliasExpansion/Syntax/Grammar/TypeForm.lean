-- SUMMARY: Grammar of types, function pointers and bounds.
import AliasExpansion.Syntax.Grammar.Path

/-!
# Types

The parameter `plus` says whether bounds may follow with a `+`: behind a reference or an arrow
they would be ambiguous.
-/

namespace AliasExpansion.Grammar

open Nonterminal Rule

def typeRule (plus : Bool) : Production :=
  choose
    [(group .parenthesis, listIn .parenthesis .type),
      (group .bracket,
        .within .bracket
          (steps
            [.call (.type true),
              optional (.mark 0 [';']) (steps [.skip 1, .call (.binary 0 .free)])])),
      (group .none, .within .none (.call (.type true))),
      (.or (.mark 0 ['!']) (word ["_"]), .skip 1),
      (.mark 0 ['&'],
        steps [.skip 1, optional lifetime (.skip 2), eatWord "mut", .call (.type false)]),
      (.mark 0 ['*'],
        steps
          [.skip 1, .ite (word ["const", "mut"]) (.skip 1) (.fail .constOrMut),
            .call (.type false)]),
      (.mark 0 ['<'], .call .qualifiedPath),
      (word ["impl", "dyn"], steps [.skip 1, .call (.bounds plus)]),
      (word ["for"],
        steps
          [.call .forLifetimes, .ite fnPointerAhead (.call .fnPointer) (.call (.bounds plus))]),
      (fnPointerAhead, .call .fnPointer),
      (pathStart,
        steps
          [.call (.path .type),
            .ite (.and macroArguments (.not (.mark 0 notEquals))) (.skip 2)
              (if plus then .call .typeBounds else .done)])]
    (.fail .type)

def fnPointerRule : Production :=
  steps
    [eatWord "unsafe", optional (word ["extern"]) (steps [.skip 1, optionalLiteral]),
      expectWord "fn", .within .parenthesis (.call .fnPointerParams), result false]

def fnPointerParamsRule : Production :=
  choose
    [(.atEnd, .done), (.mark 0 ellipsis, .skip 3)]
    (steps
      [optional (.or nameColon (.and (word ["_"]) (.mark 1 [':']))) (.skip 2),
        .call (.type true),
        optional (.mark 0 [',']) (steps [.skip 1, .call .fnPointerParams])])

def forLifetimesRule : Production :=
  steps [expectWord "for", expectMark ['<'], .call .lifetimeList, expectMark ['>']]

def lifetimeListRule : Production :=
  optional lifetime
    (steps [.skip 2, optional (.mark 0 [',']) (steps [.skip 1, .call .lifetimeList])])

def boundsRule (plus : Bool) : Production :=
  steps [.call .bound, if plus then .call .boundsTail else .done]

/-- Further bounds. A last `+` may stand before a comma, a closing angle bracket or the end. -/
def boundsTailRule : Production :=
  optional (.mark 0 ['+'])
    (steps
      [.skip 1,
        .ite (.or .atEnd (.or (.mark 0 [',']) (.mark 0 ['>']))) .done
          (steps [.call .bound, .call .boundsTail])])

/-- Bounds that follow a path used as a type. -/
def typeBoundsRule : Production :=
  optional (.mark 0 ['+']) (steps [.skip 1, .call .bound, .call .typeBounds])

def boundRule : Production :=
  choose
    [(lifetime, .skip 2), (group .parenthesis, .within .parenthesis (.call .bound))]
    (steps
      [eatMark ['?'], optional (.mark 0 ['~']) (steps [.skip 1, expectWord "const"]),
        optional (word ["for"]) (.call .forLifetimes), .call (.path .type)])

end AliasExpansion.Grammar
