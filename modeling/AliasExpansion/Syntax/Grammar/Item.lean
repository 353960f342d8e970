-- SUMMARY: Grammar of items: functions, data types, traits, implementations and the rest.
import AliasExpansion.Syntax.Grammar.Statement

/-!
# Items

Items and associated items, with what they are made of: generic parameters, conditions,
parameters of functions and the trees of imports. An item starts after its attributes.
-/

namespace AliasExpansion.Grammar

open Nonterminal Rule

/-- A brace group with members of one kind. -/
def body (kind : Member) : Production :=
  .within .brace (.call (.members kind))

/-- A brace group with associated items. -/
def assocBody : Production :=
  .within .brace (steps [.call .innerAttrs, .call (.members .assocItem)])

/-- The name, generic parameters and conditions of an item. -/
def header : Production :=
  steps [name, .call .generics, .call .whereClause]

def structBody : Production :=
  steps
    [header,
      choose [(.mark 0 [';'], .skip 1), (group .brace, body .namedField)]
        (steps
          [.within .parenthesis (.call (.members .tupleField)), .call .whereClause,
            expectMark [';']])]

def traitRule : Production :=
  steps
    [eatWord "unsafe", eatWord "auto", expectWord "trait", name, .call .generics,
      optional (.mark 0 [':'])
        (steps [.skip 1, .ite (.or (word ["where"]) (group .brace)) .done (.call (.bounds true))]),
      .call .whereClause, assocBody]

def implRule : Production :=
  steps
    [eatWord "unsafe", expectWord "impl", .call .generics, eatWord "const", eatMark ['!'],
      .call (.type true), optional (word ["for"]) (steps [.skip 1, .call (.type true)]),
      .call .whereClause, assocBody]

/-- What follows `extern`: a crate, or a block of foreign items. -/
def externRule : Production :=
  .ite (word ["crate"])
    (steps
      [.skip 1, .ite (word ["self"]) (.skip 1) name,
        optional (word ["as"]) (steps [.skip 1, nameOrUnderscore]), expectMark [';']])
    (steps [optionalLiteral, assocBody])

/-- What follows `macro_rules`. -/
def macroRule : Production :=
  steps
    [expectMark ['!'], name,
      choose
        [(group .brace, .skip 1), (.token 0 .anyGroup, steps [.skip 1, expectMark [';']])]
        (.fail .macroBody)]

def itemRule : Production :=
  steps
    [.call .visibility,
      choose
        [(fnAhead, .call .fn),
          (word ["struct"], steps [.skip 1, structBody]),
          (word ["union"], steps [.skip 1, header, body .namedField]),
          (word ["enum"], steps [.skip 1, header, body .variant]),
          (.and (word ["trait", "auto", "unsafe"]) (.not (wordAt 1 ["impl"])), traitRule),
          (word ["impl", "unsafe"], implRule),
          (word ["mod"], steps [.skip 1, name, .ite (.mark 0 [';']) (.skip 1) block]),
          (word ["const"], steps [.skip 1, nameOrUnderscore, typedValue]),
          (word ["static"], steps [.skip 1, eatWord "mut", name, typedValue]),
          (word ["type"], .call .typeAlias),
          (word ["use"], steps [.skip 1, .call .useTree, expectMark [';']]),
          (word ["extern"], steps [.skip 1, externRule]),
          (word ["macro_rules"], steps [.skip 1, macroRule])]
        (.fail .item)]

def fnRule : Production :=
  steps
    [.call .fnQualifiers, optional (word ["extern"]) (steps [.skip 1, optionalLiteral]),
      expectWord "fn", name, .call .generics, .within .parenthesis (.call .fnParams),
      result true, .call .whereClause, .ite (.mark 0 [';']) (.skip 1) block]

def fnQualifiersRule : Production :=
  optional (word ["const", "async", "unsafe"]) (steps [.skip 1, .call .fnQualifiers])

/-- A receiver: `self` with an optional reference and type. -/
def selfParam : Production :=
  steps
    [optional (.mark 0 ['&']) (steps [.skip 1, optional lifetime (.skip 2)]), eatWord "mut",
      .skip 1, optionalType]

def fnParamsRule : Production :=
  .ite .atEnd .done
    (steps
      [.call .outerAttrs,
        .ite (.mark 0 ellipsis) (.skip 3)
          (steps
            [.ite receiver selfParam
                (steps [.call .patternAtom, expectMark [':'], .call (.type true)]),
              optional (.mark 0 [',']) (steps [.skip 1, .call .fnParams])])])

def genericsRule : Production :=
  optional (.mark 0 ['<']) (steps [.skip 1, .call .genericParams, expectMark ['>']])

def genericParamsRule : Production :=
  .ite (.mark 0 ['>']) .done
    (steps
      [.call .outerAttrs,
        choose
          [(lifetime,
              steps
                [.skip 2,
                  optional (.mark 0 [':'])
                    (steps [.skip 1, expectLifetime, .call .lifetimeBounds])]),
            (word ["const"],
              steps
                [.skip 1, name, expectMark [':'], .call (.type true),
                  optional (.mark 0 ['=']) (steps [.skip 1, .call .genericArg])])]
          (steps
            [name,
              optional (.mark 0 [':'])
                (steps
                  [.skip 1,
                    .ite (.or (.mark 0 [',']) (.mark 0 ['>'])) .done (.call (.bounds true))]),
              optional (.mark 0 ['=']) (steps [.skip 1, .call (.type true)])]),
        optional (.mark 0 [',']) (steps [.skip 1, .call .genericParams])])

def lifetimeBoundsRule : Production :=
  optional (.mark 0 ['+']) (steps [.skip 1, expectLifetime, .call .lifetimeBounds])

def whereClauseRule : Production :=
  optional (word ["where"]) (steps [.skip 1, .call .wherePredicates])

def wherePredicatesRule : Production :=
  .ite (.or .atEnd (.or (group .brace) (.or (.mark 0 [';']) (.mark 0 ['='])))) .done
    (steps
      [optional (word ["for"]) (.call .forLifetimes),
        .ite lifetime
          (steps [.skip 2, expectMark [':'], expectLifetime, .call .lifetimeBounds])
          (steps
            [.call (.type false), expectMark [':'],
              .ite (.or (.mark 0 [',']) (group .brace)) .done (.call (.bounds true))]),
        optional (.mark 0 [',']) (steps [.skip 1, .call .wherePredicates])])

def typeAliasRule : Production :=
  steps
    [expectWord "type", name, .call .generics,
      optional (.mark 0 [':']) (steps [.skip 1, .call (.bounds true)]), .call .whereClause,
      optional (.mark 0 ['=']) (steps [.skip 1, .call (.type true), .call .whereClause]),
      expectMark [';']]

/-- An item of a trait, an implementation or a foreign block, after its attributes. -/
def assocItemRule : Production :=
  steps
    [.call .visibility, eatWord "default",
      choose
        [(fnAhead, .call .fn),
          (word ["type"], .call .typeAlias),
          (word ["const", "static"], steps [.skip 1, eatWord "mut", nameOrUnderscore, typedValue]),
          (pathStart,
            steps
              [.call (.path .expression), expectMark ['!'],
                choose
                  [(group .brace, steps [.skip 1, eatMark [';']]),
                    (.token 0 .anyGroup, steps [.skip 1, expectMark [';']])]
                  (.fail .macroArguments)])]
        (.fail .associatedItem)]

def useTreeRule : Production :=
  steps
    [eatMark colons,
      choose
        [(.mark 0 ['*'], .skip 1),
          (group .brace, listIn .brace .useTree),
          (.token 0 .pathSegment,
            steps
              [.skip 1,
                choose
                  [(.mark 0 colons, steps [.skip 2, .call .useTree]),
                    (word ["as"], steps [.skip 1, nameOrUnderscore])]
                  .done])]
        (.fail .usePath)]

end AliasExpansion.Grammar
