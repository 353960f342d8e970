-- SUMMARY: Assembling lexemes into token trees.
import AliasExpansion.Token.Lexeme

/-!
# Token trees from lexemes

Delimiter lexemes must match like brackets; what stands between two of them becomes the content
of a group with the span of the opener. White space and comments are dropped. A lifetime becomes
a joint quote and a name. A documentation comment becomes the attribute that it abbreviates.
-/

namespace AliasExpansion

/-- The attribute body `[doc = "…"]`. -/
def Token.docGroup (text : String) (span : Span) : Token :=
  .group .bracket
    [.ident "doc" span, .punct '=' false span, .literal (Literal.ofContent text span)] span

/-- The kind of literal, which an initial `b` turns into its byte form. -/
def Lexeme.literal (lexeme : Lexeme) (plain bytes : LiteralKind) : Token :=
  .literal
    { kind := if lexeme.text.head? == some 'b' then bytes else plain
      text := String.ofList lexeme.text
      span := lexeme.span }

/-- The tokens that a lexeme other than a delimiter stands for. -/
def Lexeme.tokens (lexeme : Lexeme) : List Token :=
  let text := String.ofList lexeme.text
  let span := lexeme.span
  match lexeme.kind with
  | .comment | .blank | .opening _ | .closing _ => []
  | .ident => [.ident text span]
  | .punct => lexeme.text.take 1 |>.map fun c => .punct c lexeme.joint span
  | .lifetime =>
    [.punct '\'' true span, .ident (String.ofList (lexeme.text.drop 1)) span]
  | .int => [.literal { kind := .int, text, span }]
  | .float => [.literal { kind := .float, text, span }]
  | .char => [lexeme.literal .char .byte]
  | .string => [lexeme.literal .str .byteStr]
  | .rawString => [lexeme.literal .rawStr .rawByteStr]
  | .outerDoc =>
    [.punct '#' false span, Token.docGroup (String.ofList (lexeme.text.drop 3)) span]
  | .innerDoc =>
    [.punct '#' false span, .punct '!' false span,
      Token.docGroup (String.ofList (lexeme.text.drop 3)) span]

/-- A group whose closing delimiter is still to come. -/
structure OpenGroup where
  delimiter : Delimiter
  span : Span
  /-- The tokens before the group, last first. -/
  before : List Token

namespace Token

/-- Assemble lexemes inside the groups `stack`, innermost first. `content` is what the innermost
    one holds so far, last first. -/
def assemble (stack : List OpenGroup) (content : List Token) :
    List Lexeme → Except SyntaxError (List Token)
  | [] =>
    match stack with
    | [] => .ok content.reverse
    | opened :: _ => .error { fault := .unclosed opened.delimiter, span := some opened.span }
  | lexeme :: rest =>
    match lexeme.kind with
    | .opening delimiter =>
      assemble ({ delimiter, span := lexeme.span, before := content } :: stack) [] rest
    | .closing delimiter =>
      match stack with
      | opened :: stack =>
        if opened.delimiter = delimiter then
          assemble stack (.group delimiter content.reverse opened.span :: opened.before) rest
        else .error { fault := .unexpectedClosing delimiter, span := some lexeme.span }
      | [] => .error { fault := .unexpectedClosing delimiter, span := some lexeme.span }
    | _ => assemble stack (lexeme.tokens.reverse ++ content) rest

def ofLexemes (lexemes : List Lexeme) : Except SyntaxError (List Token) :=
  assemble [] [] lexemes

/-- The token trees of a source text. -/
def read (source : String) : Except SyntaxError (List Token) := do
  ofLexemes (← Lexeme.scan source)

end Token

end AliasExpansion
