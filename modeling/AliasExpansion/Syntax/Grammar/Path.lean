-- SUMMARY: Grammar of names, paths and generic arguments.
import AliasExpansion.Syntax.Grammar.Lookahead

/-!
# Paths

A path is a list of segments with `::` between them. Which arguments a segment may have depends
on the style of the path. A qualified path starts from a type.
-/

namespace AliasExpansion.Grammar

open Nonterminal Rule

def name : Production :=
  .ite (.token 0 .name) (.skip 1) (.fail .identifier)

def nameOrUnderscore : Production :=
  .ite (word ["_"]) (.skip 1) name

def expectLifetime : Production :=
  .ite lifetime (.skip 2) (.fail .lifetime)

def optionalLiteral : Production :=
  optional literal (.skip 1)

/-- A list of elements between delimiters. -/
def listIn (delimiter : Delimiter) (element : Element) : Production :=
  .within delimiter (.call (.list element))

/-- A result type after an arrow. -/
def result (plus : Bool) : Production :=
  optional (.mark 0 arrow) (steps [.skip 2, .call (.type plus)])

def pathRule (style : PathStyle) : Production :=
  steps [eatMark colons, .call (.pathSegment style), .call (.pathTail style)]

def pathTailRule (style : PathStyle) : Production :=
  optional (.mark 0 colons)
    (steps
      [.skip 2, .ite (.mark 0 ['<']) (.call .genericArgs) (.call (.pathSegment style)),
        .call (.pathTail style)])

/-- An opening angle bracket that starts no comparison and no arrow. -/
def genericsOpen : Look :=
  .and (.mark 0 ['<']) (.and (.not (.mark 0 ['<', '='])) (.not (.mark 0 ['<', '-'])))

def pathSegmentRule (style : PathStyle) : Production :=
  .ite (.token 0 .pathSegment)
    (match style with
      | .expression => .skip 1
      | .plain => steps [.skip 1, optional genericsOpen (.call .genericArgs)]
      | .type =>
        steps
          [.skip 1,
            choose
              [(genericsOpen, .call .genericArgs),
                (group .parenthesis, steps [listIn .parenthesis .type, result false])]
              .done])
    (.fail .pathSegment)

def genericArgsRule : Production :=
  steps [expectMark ['<'], .call .genericArgList, expectMark ['>']]

def genericArgListRule : Production :=
  .ite (.mark 0 ['>']) .done
    (steps
      [.call .genericArg, optional (.mark 0 [',']) (steps [.skip 1, .call .genericArgList])])

def genericArgRule : Production :=
  choose
    [(lifetime, .skip 2),
      (literal, .skip 1),
      (.and (.mark 0 ['-']) (.token 1 .anyLiteral), .skip 2),
      (group .brace, .skip 1),
      (.and (.token 0 .name) (.and (.mark 1 ['=']) (.not (.mark 1 ['=', '=']))),
        steps [.skip 2, .call (.type true)]),
      (nameColon, steps [.skip 2, .call (.bounds true)])]
    (.call (.type true))

/-- A path that starts from a type: `<T as Trait>::Name`. -/
def qualifiedPathRule : Production :=
  steps
    [expectMark ['<'], .call (.type true),
      optional (word ["as"]) (steps [.skip 1, .call (.path .plain)]),
      expectMark ['>'], expectMark colons, .call (.pathSegment .plain),
      .call .qualifiedPathTail]

def qualifiedPathTailRule : Production :=
  optional (.mark 0 colons)
    (steps
      [.skip 2, .ite (.mark 0 ['<']) (.call .genericArgs) (.call (.pathSegment .plain)),
        .call .qualifiedPathTail])

end AliasExpansion.Grammar
