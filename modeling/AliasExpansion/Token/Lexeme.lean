-- SUMMARY: The lexer: cutting a source text into lexemes with their positions.
import AliasExpansion.Syntax.Fault
import AliasExpansion.Text.Blank
import AliasExpansion.Text.Word
import AliasExpansion.Token.Literal

/-!
# Lexemes

A lexeme is a piece of source with a kind and a position. Each kind has a shape that says how
many characters at the start of a text belong to a lexeme of that kind, if any do. The shapes
are tried in the order of `shapes`, and the first that fits wins. White space and comments
are lexemes too, so the lexemes of a source always spell the source; `Token/Tree` drops them when
it assembles token trees.
-/

namespace AliasExpansion

inductive LexemeKind where
  | outerDoc
  | innerDoc
  | comment
  | blank
  | rawString
  | string
  | char
  | lifetime
  | float
  | int
  | ident
  | opening (delimiter : Delimiter)
  | closing (delimiter : Delimiter)
  | punct
deriving DecidableEq, Repr

structure Lexeme where
  kind : LexemeKind
  text : List Char
  span : Span
  /-- Whether a punctuation character follows at once. Set for punctuation and lifetimes only. -/
  joint : Bool
deriving DecidableEq, Repr

/-- How many characters at the start of a text form a lexeme of one kind. -/
abbrev Shape := List Char → Option Nat

namespace Lexeme

def punctChars : List Char :=
  "~!@#$%^&*-=+|;:,<.>/?'".toList

/-- The number of characters at the start of `cs` that belong to a class. -/
def run (p : Char → Bool) (cs : List Char) : Nat :=
  (cs.takeWhile p).length

-- ---------------------------------------------------------------------------
-- Comments and white space
-- ---------------------------------------------------------------------------

/-- The rest of the line, line end excluded. -/
def lineLength (cs : List Char) : Nat :=
  run (· != '\n') cs

def outerDocShape : Shape
  | '/' :: '/' :: '/' :: rest =>
    if rest.head? == some '/' then none else some (3 + lineLength rest)
  | _ => none

def innerDocShape : Shape
  | '/' :: '/' :: '!' :: rest => some (3 + lineLength rest)
  | _ => none

def lineCommentShape : Shape
  | '/' :: '/' :: rest => some (2 + lineLength rest)
  | _ => none

/-- The characters up to and including the first end of a block comment. -/
def blockCommentLength : List Char → Option Nat
  | '*' :: '/' :: _ => some 2
  | _ :: rest => (blockCommentLength rest).map (· + 1)
  | [] => none

def blockCommentShape : Shape
  | '/' :: '*' :: rest => (blockCommentLength rest).map (· + 2)
  | _ => none

def blankShape : Shape := fun cs =>
  match run Text.isBlank cs with
  | 0 => none
  | n => some n

-- ---------------------------------------------------------------------------
-- Strings and characters
-- ---------------------------------------------------------------------------

/-- Try `shape` after an optional `b`. -/
def afterByteMark (shape : Shape) : Shape
  | 'b' :: rest => (shape rest).map (· + 1)
  | cs => shape cs

/-- The characters up to and including the first quote that `fence` follows. -/
def rawStringLength (fence : List Char) : List Char → Option Nat
  | [] => none
  | c :: rest =>
    if c == '"' && fence.isPrefixOf rest then some (fence.length + 1)
    else (rawStringLength fence rest).map (· + 1)

def rawStringShape : Shape
  | 'r' :: rest =>
    let fence := rest.takeWhile (· == '#')
    match rest.drop fence.length with
    | '"' :: content => (rawStringLength fence content).map (· + (fence.length + 2))
    | _ => none
  | _ => none

/-- The characters up to and including the first quote that no backslash escapes. -/
def stringLength : List Char → Option Nat
  | [] => none
  | '"' :: _ => some 1
  | '\\' :: _ :: rest => (stringLength rest).map (· + 2)
  | '\\' :: [] => none
  | _ :: rest => (stringLength rest).map (· + 1)

def stringShape : Shape
  | '"' :: rest => (stringLength rest).map (· + 1)
  | _ => none

/-- The characters of an escape in a character literal, backslash included. -/
def charEscapeLength : List Char → Option Nat
  | '\\' :: c :: rest =>
    if ['n', 'r', 't', '\\', '0', '\'', '"'].contains c then some 2
    else if c == 'x' then
      match rest with
      | a :: b :: _ => if Literal.isHexDigit a && Literal.isHexDigit b then some 4 else none
      | _ => none
    else if c == 'u' then (Literal.bracedDigits? rest).map fun digits => digits.length + 4
    else none
  | _ => none

/-- The content of a character literal: an escape, or one character other than a quote, a
    backslash or a line end. -/
def charContentLength : List Char → Option Nat
  | [] => none
  | c :: rest =>
    if c == '\\' then charEscapeLength (c :: rest)
    else if c == '\'' || c == '\n' then none
    else some 1

def charShape : Shape
  | '\'' :: rest => do
    let content ← charContentLength rest
    if rest[content]? == some '\'' then some (content + 2) else none
  | _ => none

-- ---------------------------------------------------------------------------
-- Names
-- ---------------------------------------------------------------------------

def nameShape : Shape
  | c :: rest => if Text.isNameStart c then some (1 + run Text.isWordChar rest) else none
  | [] => none

/-- A name, with or without the mark of a raw identifier. -/
def identShape : Shape
  | 'r' :: '#' :: rest =>
    match nameShape rest with
    | some n => some (n + 2)
    | none => nameShape ('r' :: '#' :: rest)
  | cs => nameShape cs

def lifetimeShape : Shape
  | '\'' :: rest => (identShape rest).map (· + 1)
  | _ => none

-- ---------------------------------------------------------------------------
-- Numbers
-- ---------------------------------------------------------------------------

def isDigitOrUnderscore (c : Char) : Bool :=
  c == '_' || Text.isDecimal c

/-- A decimal digit, then digits and underscores. -/
def decimalShape : Shape
  | c :: rest => if Text.isDecimal c then some (1 + run isDigitOrUnderscore rest) else none
  | [] => none

/-- A point and a decimal fraction. -/
def fractionShape : Shape
  | '.' :: rest => (decimalShape rest).map (· + 1)
  | _ => none

/-- An exponent: its letter, an optional sign, and digits and underscores with at least one
    digit among them. -/
def exponentShape : Shape
  | mark :: rest =>
    if mark == 'e' || mark == 'E' then
      let sign := if rest.head? == some '+' || rest.head? == some '-' then 1 else 0
      let digits := (rest.drop sign).takeWhile isDigitOrUnderscore
      if digits.any Text.isDecimal then some (1 + sign + digits.length) else none
    else none
  | [] => none

/-- The type suffix of a floating point literal. -/
def floatSuffixShape : Shape
  | 'f' :: '3' :: '2' :: _ => some 3
  | 'f' :: '6' :: '4' :: _ => some 3
  | _ => none

/-- One shape after another. -/
def andThen (first second : Shape) : Shape := fun cs => do
  let n ← first cs
  let k ← second (cs.drop n)
  return n + k

/-- A shape that may be absent. -/
def optionally (shape : Shape) : Shape := fun cs =>
  some ((shape cs).getD 0)

def firstOf (shapes : List Shape) : Shape := fun cs =>
  shapes.findSome? (· cs)

/-- A point that neither a second point nor a word character follows. -/
def trailingPointShape : Shape
  | '.' :: rest =>
    if rest.head?.any fun c => c == '.' || Text.isWordChar c then none else some 1
  | _ => none

def floatShape : Shape :=
  firstOf
    [andThen decimalShape (andThen (optionally fractionShape)
        (andThen exponentShape (optionally floatSuffixShape))),
      andThen decimalShape (andThen fractionShape (optionally floatSuffixShape)),
      andThen decimalShape floatSuffixShape,
      andThen decimalShape trailingPointShape]

/-- A base prefix and at least one digit of the base or underscore. -/
def prefixedShape (mark : Char) (isDigit : Char → Bool) : Shape
  | '0' :: c :: rest =>
    if c == mark then
      match run (fun d => d == '_' || isDigit d) rest with
      | 0 => none
      | n => some (n + 2)
    else none
  | _ => none

def intShape : Shape :=
  andThen
    (firstOf
      [prefixedShape 'x' Literal.isHexDigit,
        prefixedShape 'o' fun d => '0' ≤ d && d ≤ '7',
        prefixedShape 'b' fun d => d == '0' || d == '1',
        decimalShape])
    fun cs => some (Literal.suffixLength cs)

-- ---------------------------------------------------------------------------
-- Delimiters and punctuation
-- ---------------------------------------------------------------------------

/-- One given character. -/
def charOnlyShape (char : Char) : Shape
  | c :: _ => if c == char then some 1 else none
  | [] => none

def punctShape : Shape
  | c :: _ => if punctChars.contains c then some 1 else none
  | [] => none

-- ---------------------------------------------------------------------------
-- Scanning
-- ---------------------------------------------------------------------------

/-- The kinds of lexemes with their shapes, in the order in which they are tried. -/
def shapes : List (LexemeKind × Shape) :=
  [(.outerDoc, outerDocShape),
    (.innerDoc, innerDocShape),
    (.comment, lineCommentShape),
    (.comment, blockCommentShape),
    (.blank, blankShape),
    (.rawString, afterByteMark rawStringShape),
    (.string, afterByteMark stringShape),
    (.char, afterByteMark charShape),
    (.lifetime, lifetimeShape),
    (.float, floatShape),
    (.int, intShape),
    (.ident, identShape),
    (.opening .parenthesis, charOnlyShape '('),
    (.opening .bracket, charOnlyShape '['),
    (.opening .brace, charOnlyShape '\x7b'),
    (.closing .parenthesis, charOnlyShape ')'),
    (.closing .bracket, charOnlyShape ']'),
    (.closing .brace, charOnlyShape '\x7d'),
    (.punct, punctShape)]

/-- The kind and length of the lexeme at the start of a text. -/
def first? (cs : List Char) : Option (LexemeKind × Nat) :=
  shapes.findSome? fun (kind, shape) => (shape cs).map fun n => (kind, n)

end Lexeme

/-- The position after a character. -/
def Span.advance (span : Span) (c : Char) : Span :=
  if c == '\n' then { line := span.line + 1, column := 1 }
  else { span with column := span.column + 1 }

namespace Lexeme

/-- The lexeme of a given kind and length at the start of `cs`. -/
def take (kind : LexemeKind) (length : Nat) (span : Span) (cs : List Char) : Lexeme where
  kind := kind
  text := cs.take length
  span := span
  joint := (kind == .punct || kind == .lifetime) && cs[length]?.any punctChars.contains

/-- The lexemes of a text at position `span`, the first `skip` characters of which belong to a
    lexeme already taken. -/
def scanAfter : (skip : Nat) → Span → List Char → Except SyntaxError (List Lexeme)
  | _, _, [] => .ok []
  | skip + 1, span, c :: rest => scanAfter skip (span.advance c) rest
  | 0, span, c :: rest =>
    match first? (c :: rest) with
    | some (kind, length) => do
      let lexemes ← scanAfter (length - 1) (span.advance c) rest
      return take kind length span (c :: rest) :: lexemes
    | none => .error { fault := .unexpectedChar c, span := some span }

def scan (source : String) : Except SyntaxError (List Lexeme) :=
  scanAfter 0 {} source.toList

end Lexeme

end AliasExpansion
