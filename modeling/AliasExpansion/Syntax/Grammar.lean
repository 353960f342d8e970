-- SUMMARY: The grammar of code: the rule of each nonterminal.
import AliasExpansion.Syntax.Grammar.Item
import AliasExpansion.Syntax.Grammar.Pattern

/-!
# The grammar of code

The grammar checks structure only: it decides which token lists are well formed and builds no
tree. The rules of its parts are in `Syntax/Grammar/`; here are the repetitions that they share,
and the table that gives each nonterminal its rule. `Syntax/Check` runs the grammar, and
`Syntax/Split` locates the members of a body.
-/

namespace AliasExpansion

namespace Grammar

open Nonterminal Rule

-- ---------------------------------------------------------------------------
-- Repetitions
-- ---------------------------------------------------------------------------

def elementRule : Element → Production
  | .type => .call (.type true)
  | .expression => expression
  | .pattern => .call .pattern
  | .useTree => .call .useTree

/-- Elements separated by commas. A comma may follow the last one. -/
def listRule (element : Element) : Production :=
  .ite .atEnd .done
    (steps
      [elementRule element, optional (.mark 0 [',']) (steps [.skip 1, .call (.list element)])])

/-- A member after its attributes. -/
def memberRule : Member → Production
  | .statement => statementRule
  | .namedField => steps [.call .visibility, name, expectMark [':'], .call (.type true)]
  | .tupleField => steps [.call .visibility, .call (.type true)]
  | .variant =>
    steps
      [.call .visibility, name,
        choose
          [(group .brace, body .namedField),
            (group .parenthesis, .within .parenthesis (.call (.members .tupleField)))]
          .done,
        optional (.mark 0 ['=']) (steps [.skip 1, expression])]
  | .assocItem => assocItemRule

/-- Members up to the end of the body. Fields and variants are separated by commas; statements and
    associated items end by themselves, and further semicolons may stand between statements. -/
def membersRule (kind : Member) : Production :=
  let one := steps [.call .outerAttrs, .call (.member kind)]
  let more := .call (.members kind)
  .ite .atEnd .done
    (match kind with
      | .statement => .ite (.mark 0 [';']) (steps [.skip 1, more]) (steps [one, more])
      | .assocItem => steps [one, more]
      | .namedField | .tupleField | .variant =>
        steps [one, optional (.mark 0 [',']) (steps [.skip 1, more])])

end Grammar

-- ---------------------------------------------------------------------------
-- The table
-- ---------------------------------------------------------------------------

open Grammar in
/-- The rule of each nonterminal. -/
def Nonterminal.rule : Nonterminal → Rule Nonterminal
  | .path style => pathRule style
  | .pathTail style => pathTailRule style
  | .pathSegment style => pathSegmentRule style
  | .genericArgs => genericArgsRule
  | .genericArgList => genericArgListRule
  | .genericArg => genericArgRule
  | .qualifiedPath => qualifiedPathRule
  | .qualifiedPathTail => qualifiedPathTailRule
  | .type plus => typeRule plus
  | .fnPointer => fnPointerRule
  | .fnPointerParams => fnPointerParamsRule
  | .forLifetimes => forLifetimesRule
  | .lifetimeList => lifetimeListRule
  | .bounds plus => boundsRule plus
  | .boundsTail => boundsTailRule
  | .typeBounds => typeBoundsRule
  | .bound => boundRule
  | .binary minPrecedence position => binaryRule minPrecedence position
  | .binaryTail minPrecedence position => binaryTailRule minPrecedence position
  | .unary position => unaryRule position
  | .postfixTail => postfixTailRule
  | .primary position => primaryRule position
  | .pathExpr position => pathExprRule position
  | .structFields => structFieldsRule
  | .condition => conditionRule
  | .ifExpr => ifExprRule
  | .arms => armsRule
  | .closure => closureRule
  | .closureParams => closureParamsRule
  | .pattern => patternRule
  | .patternAlternatives => patternAlternativesRule
  | .patternAtom => patternAtomRule
  | .rangePatternEnd => rangePatternEndRule
  | .rangeBound => rangeBoundRule
  | .fieldPatterns => fieldPatternsRule
  | .outerAttrs => outerAttrsRule
  | .innerAttrs => innerAttrsRule
  | .visibility => visibilityRule
  | .item => itemRule
  | .fn => fnRule
  | .fnQualifiers => fnQualifiersRule
  | .fnParams => fnParamsRule
  | .generics => genericsRule
  | .genericParams => genericParamsRule
  | .lifetimeBounds => lifetimeBoundsRule
  | .whereClause => whereClauseRule
  | .wherePredicates => wherePredicatesRule
  | .typeAlias => typeAliasRule
  | .useTree => useTreeRule
  | .list element => listRule element
  | .member kind => memberRule kind
  | .members kind => membersRule kind

end AliasExpansion
