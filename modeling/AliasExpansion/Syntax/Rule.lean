-- SUMMARY: Recognition rules as data: lookahead tests, rules, and how a rule is run on tokens.
import AliasExpansion.Syntax.Fault
import AliasExpansion.Syntax.Name
import AliasExpansion.Token.Render

/-!
# Rules

The grammar of code (`Syntax/Grammar`) is data. A `Rule` consumes tokens and decides between
alternatives by looking ahead; a `Look` is such a lookahead. Running a rule either moves a cursor
forward or fails with what was wanted and what was found. A rule never backs up: every choice is
made by lookahead before a token is consumed.

Rules refer to each other through nonterminals. `Rule.run` is given the meaning of nonterminals
as a parameter, so it is a structural recursion over the rule.
-/

namespace AliasExpansion

-- ---------------------------------------------------------------------------
-- Cursors
-- ---------------------------------------------------------------------------

/-- A place in a token list. -/
structure Cursor where
  /-- The token before the place. -/
  previous : Option Token
  rest : List Token

namespace Cursor

def start (tokens : List Token) : Cursor where
  previous := none
  rest := tokens

def atEnd (cursor : Cursor) : Bool :=
  cursor.rest.isEmpty

/-- Move over the next `n` tokens. -/
def advance : Nat → Cursor → Cursor
  | n + 1, { rest := token :: rest, .. } => advance n { previous := some token, rest }
  | _, cursor => cursor

/-- The error of wanting something else than what comes next. At the end it points at the last
    token. -/
def unexpected (cursor : Cursor) (want : Want) : SyntaxError :=
  match cursor.rest with
  | token :: _ => { fault := .unexpected want (some token.render), span := some token.span }
  | [] => { fault := .unexpected want none, span := cursor.previous.map Token.span }

end Cursor

-- ---------------------------------------------------------------------------
-- Lookahead
-- ---------------------------------------------------------------------------

/-- A test of one token. -/
inductive TokenTest where
  | anyIdent
  /-- An identifier that is one of these words. -/
  | words (words : List String)
  /-- An identifier usable as a name. -/
  | name
  /-- An identifier usable in a path. -/
  | pathSegment
  | anyLiteral
  /-- A literal of one of these kinds. -/
  | literal (kinds : List LiteralKind)
  | anyGroup
  | group (delimiter : Delimiter)
  /-- A group whose content starts with one of these words. -/
  | groupHead (delimiter : Delimiter) (words : List String)
  /-- A token that can be the first of an expression. -/
  | expressionStart
deriving DecidableEq, Repr

/-- Punctuation with which an expression can start. -/
def expressionMarks : List Char :=
  ['-', '!', '*', '&', '|', '.', '<', '\'', '#', ':']

def TokenTest.holds : TokenTest → Token → Bool
  | .anyIdent, .ident _ _ => true
  | .words allowed, .ident found _ => allowed.contains found
  | .name, .ident found _ => Name.isIdentifier found
  | .pathSegment, .ident found _ => Name.isPathSegment found
  | .anyLiteral, .literal _ => true
  | .literal kinds, .literal lit => kinds.contains lit.kind
  | .anyGroup, .group _ _ _ => true
  | .group delimiter, .group d _ _ => d = delimiter
  | .groupHead delimiter allowed, .group d (.ident found _ :: _) _ =>
    d = delimiter && allowed.contains found
  | .expressionStart, .punct c _ _ => expressionMarks.contains c
  | .expressionStart, .ident found _ => !(["as", "else", "in"].contains found)
  | .expressionStart, _ => true
  | _, _ => false

/-- Whether the next tokens are the given punctuation characters, joined without space. -/
def Token.spell : List Char → List Token → Bool
  | [], _ => true
  | [c], .punct char _ _ :: _ => char == c
  | c :: chars, .punct char joint _ :: rest => char == c && joint && spell chars rest
  | _, _ => false

/-- Whether a function follows, after any of the qualifiers. A literal may follow `extern`. -/
def Token.fnFollows (qualifiers : List String) : List Token → Bool
  | .ident name _ :: .literal _ :: rest =>
    if qualifiers.contains name then name = "extern" && fnFollows qualifiers rest
    else name = "fn"
  | .ident name _ :: rest =>
    if qualifiers.contains name then fnFollows qualifiers rest else name = "fn"
  | _ => false

inductive Look where
  /-- The token at `offset` passes a test. -/
  | token (offset : Nat) (test : TokenTest)
  /-- The tokens from `offset` on are punctuation characters joined without space. -/
  | mark (offset : Nat) (chars : List Char)
  | atEnd
  /-- The token before is a brace group. -/
  | afterBrace
  /-- A function follows, after any of these qualifiers. -/
  | fn (qualifiers : List String)
  | not (look : Look)
  | and (left right : Look)
  | or (left right : Look)
deriving DecidableEq, Repr

def Look.holds (cursor : Cursor) : Look → Bool
  | .token offset test => cursor.rest[offset]?.any test.holds
  | .mark offset chars => Token.spell chars (cursor.rest.drop offset)
  | .atEnd => cursor.atEnd
  | .afterBrace => cursor.previous.any Token.isBraceGroup
  | .fn qualifiers => Token.fnFollows qualifiers cursor.rest
  | .not look => !look.holds cursor
  | .and left right => left.holds cursor && right.holds cursor
  | .or left right => left.holds cursor || right.holds cursor

-- ---------------------------------------------------------------------------
-- Rules
-- ---------------------------------------------------------------------------

/-- A recognition rule over nonterminals of type `ν`. -/
inductive Rule (ν : Type) where
  | done
  | fail (want : Want)
  | skip (count : Nat)
  | seq (first second : Rule ν)
  | ite (look : Look) (yes no : Rule ν)
  | call (nonterminal : ν)
  /-- A group whose whole content follows a rule. -/
  | within (delimiter : Delimiter) (inner : Rule ν)
deriving Repr

abbrev Recognition := Except SyntaxError Cursor

namespace Rule

/-- Run a rule, given what each nonterminal does. -/
def run {ν : Type} (meaning : ν → Cursor → Recognition) : Rule ν → Cursor → Recognition
  | .done, cursor => .ok cursor
  | .fail want, cursor => .error (cursor.unexpected want)
  | .skip count, cursor => .ok (cursor.advance count)
  | .seq first second, cursor =>
    match first.run meaning cursor with
    | .ok cursor => second.run meaning cursor
    | .error e => .error e
  | .ite look yes no, cursor =>
    if look.holds cursor then yes.run meaning cursor else no.run meaning cursor
  | .call nonterminal, cursor => meaning nonterminal cursor
  | .within delimiter inner, cursor =>
    match cursor.rest with
    | .group d content _ :: _ =>
      if d = delimiter then
        match inner.run meaning (Cursor.start content) with
        | .ok final =>
          if final.atEnd then .ok (cursor.advance 1) else .error (final.unexpected .ending)
        | .error e => .error e
      else .error (cursor.unexpected (.delimiter delimiter))
    | _ => .error (cursor.unexpected (.delimiter delimiter))

-- ---------------------------------------------------------------------------
-- Derived rules
-- ---------------------------------------------------------------------------

variable {ν : Type}

/-- One rule after another. -/
def steps : List (Rule ν) → Rule ν
  | [] => .done
  | [rule] => rule
  | rule :: rest => .seq rule (steps rest)

/-- The first case whose lookahead holds. -/
def choose (cases : List (Look × Rule ν)) (otherwise : Rule ν) : Rule ν :=
  cases.foldr (fun (look, rule) rest => .ite look rule rest) otherwise

/-- A rule that applies only where a lookahead holds. -/
def optional (look : Look) (rule : Rule ν) : Rule ν :=
  .ite look rule .done

/-- Consume punctuation if it comes next. -/
def eatMark (chars : List Char) : Rule ν :=
  optional (.mark 0 chars) (.skip chars.length)

def expectMark (chars : List Char) : Rule ν :=
  .ite (.mark 0 chars) (.skip chars.length) (.fail (.mark chars))

/-- Consume a word if it comes next. -/
def eatWord (word : String) : Rule ν :=
  optional (.token 0 (.words [word])) (.skip 1)

def expectWord (word : String) : Rule ν :=
  .ite (.token 0 (.words [word])) (.skip 1) (.fail (.keyword word))

end Rule

end AliasExpansion
