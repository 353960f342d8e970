-- SUMMARY: The lookahead tests that the grammar decides with.
import AliasExpansion.Syntax.Nonterminal

/-!
# Lookahead of the grammar

Names for the runs of punctuation that the grammar knows, and tests of what comes next that
several productions use.
-/

namespace AliasExpansion.Grammar

def colons : List Char := [':', ':']
def arrow : List Char := ['-', '>']
def fatArrow : List Char := ['=', '>']
def bars : List Char := ['|', '|']
def dots : List Char := ['.', '.']
def ellipsis : List Char := ['.', '.', '.']
def dotsEquals : List Char := ['.', '.', '=']
def notEquals : List Char := ['!', '=']

/-- The token at `offset` is one of these words. -/
def wordAt (offset : Nat) (words : List String) : Look :=
  .token offset (.words words)

def word (words : List String) : Look :=
  wordAt 0 words

def groupAt (offset : Nat) (delimiter : Delimiter) : Look :=
  .token offset (.group delimiter)

def group (delimiter : Delimiter) : Look :=
  groupAt 0 delimiter

def literal : Look :=
  .token 0 .anyLiteral

def lifetimeAt (offset : Nat) : Look :=
  .and (.mark offset ['\'']) (.token (offset + 1) .anyIdent)

/-- A quote and a name. -/
def lifetime : Look :=
  lifetimeAt 0

/-- A name or a path keyword, or the `::` of a global path. -/
def pathStart : Look :=
  .or (.token 0 .pathSegment) (.mark 0 colons)

/-- A name that `:` and no second colon follows. -/
def nameColon : Look :=
  .and (.token 0 .name) (.and (.mark 1 [':']) (.not (.mark 1 colons)))

def expressionStart : Look :=
  .token 0 .expressionStart

/-- An exclamation mark with a group, as after the name of a macro. -/
def macroArguments : Look :=
  .and (.mark 0 ['!']) (.token 1 .anyGroup)

def fnPointerAhead : Look :=
  .fn ["unsafe", "extern"]

def fnAhead : Look :=
  .fn ["const", "async", "unsafe", "extern"]

/-- An identifier that binds a name rather than starting a path. -/
def binding : Look :=
  .and (.token 0 .name)
    (.not
      (.or (.and (.token 1 .anyGroup) (.not (groupAt 1 .bracket)))
        (.or (.mark 1 colons)
          (.or (.and (.mark 1 ['!']) (.not (.mark 1 notEquals))) (.mark 1 dots)))))

/-- A receiver after an optional reference: `self` or `mut self` at `offset`. -/
def receiverAt (offset : Nat) : Look :=
  .or (wordAt offset ["self"]) (.and (wordAt offset ["mut"]) (wordAt (offset + 1) ["self"]))

def receiver : Look :=
  .or (receiverAt 0)
    (.and (.mark 0 ['&']) (.or (receiverAt 1) (.and (lifetimeAt 1) (receiverAt 3))))

def itemStart : Look :=
  .or
    (word ["fn", "struct", "enum", "trait", "impl", "mod", "static", "type", "use", "extern",
      "pub"])
    (.or (.and (word ["const"]) (.not (groupAt 1 .brace)))
      (.or
        (.and (word ["unsafe", "async"]) (.or fnAhead (wordAt 1 ["impl", "trait", "extern"])))
        (.or (.and (word ["union"]) (.token 1 .name))
          (.or (.and (word ["auto"]) (wordAt 1 ["trait"]))
            (.and (word ["macro_rules"]) (.mark 1 ['!']))))))

/-- An expression that ends in a brace group and so ends its statement by itself. -/
def blockLike : Look :=
  .or (group .brace)
    (.or (.and lifetime (.mark 2 [':']))
      (.or (.and (word ["unsafe", "const"]) (groupAt 1 .brace))
        (word ["if", "match", "loop", "while", "for"])))

end AliasExpansion.Grammar
