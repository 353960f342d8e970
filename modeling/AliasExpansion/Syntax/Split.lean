-- SUMMARY: Locating the members of a body: statements, fields, variants, associated items.
import AliasExpansion.Syntax.Check

/-!
# Members of a body

A body is split into its members by running the grammar's rule for one member again and again
and noting where it stopped. Each member is given by its extent in the token list, attributes
included.
-/

namespace AliasExpansion

/-- The tokens from `start` up to, not including, `stop`. -/
structure Extent where
  start : Nat
  stop : Nat
  isItem : Bool
  /-- The first words of the outer attributes, in order. -/
  attributes : List String
deriving DecidableEq, Repr

namespace Member

/-- The first word of an attribute's content. -/
def attributeName? : List Token → Option String
  | .ident name _ :: _ => some name
  | _ => none

/-- The first words of the outer attributes at the start of `tokens`. -/
def attributeNames : List Token → List String
  | .punct '#' _ _ :: .group .bracket content _ :: rest =>
    (attributeName? content).toList ++ attributeNames rest
  | _ => []

/-- Whether commas separate the members. -/
def isSeparated : Member → Bool
  | .statement | .assocItem => false
  | .namedField | .tupleField | .variant => true

/-- Whether inner attributes may stand before the first member. -/
def hasInnerAttrs : Member → Bool
  | .statement | .assocItem => true
  | .namedField | .tupleField | .variant => false

/-- Every member counts as an item, except the statements that are none. -/
def isItem (kind : Member) (afterAttributes : Cursor) : Bool :=
  kind != .statement || Grammar.itemStart.holds afterAttributes

/-- Locate at most `limit` members from a cursor on, in a body of `total` tokens. -/
def locate (meaning : Nonterminal → Cursor → Recognition) (kind : Member) (total : Nat) :
    (limit : Nat) → Cursor → Except SyntaxError (List Extent)
  | 0, cursor => .error { fault := .exhausted, span := cursor.rest.head?.map Token.span }
  | limit + 1, cursor =>
    if cursor.atEnd then .ok []
    else if kind == .statement && (Look.mark 0 [';']).holds cursor then
      locate meaning kind total limit (cursor.advance 1)
    else do
      let head ← meaning .outerAttrs cursor
      let final ← meaning (.member kind) head
      let extent : Extent :=
        { start := total - cursor.rest.length
          stop := total - final.rest.length
          isItem := isItem kind head
          attributes := attributeNames cursor.rest }
      if !isSeparated kind then
        return extent :: (← locate meaning kind total limit final)
      else if (Look.mark 0 [',']).holds final then
        return extent :: (← locate meaning kind total limit (final.advance 1))
      else if final.atEnd then return [extent]
      else throw (final.unexpected .ending)

/-- Locate the members of a body. -/
def split (kind : Member) (tokens : List Token) : Except SyntaxError (List Extent) := do
  let meaning := Nonterminal.recognize (Grammar.budget tokens)
  let first ← if hasInnerAttrs kind then meaning .innerAttrs (.start tokens) else pure (.start tokens)
  locate meaning kind tokens.length (tokens.length + 1) first

end Member

end AliasExpansion
