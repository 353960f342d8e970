-- SUMMARY: What a literal's text means: string contents with their escapes, and integer digits.
import AliasExpansion.Text.Numeral
import AliasExpansion.Text.Quoted
import AliasExpansion.Token.Basic

/-!
# Literals

A string literal is read by taking off its quotes and resolving its escapes; a raw string has a
fence of `#` around its quotes and no escapes. An integer literal is read by dropping its
underscores and type suffix and interpreting the rest in the base of its prefix. Reading is
delayed until the value is wanted, so a literal that the lexer accepts may still have no value.

An escape may stand for a lone surrogate, a code point that is no character. It is kept apart from
all characters until its text is known, where U+FFFD stands for it: like a surrogate, this has no
case and is no letter, digit or blank. What else there is to know of a surrogate is that a text
that holds one has no bytes (`Literal.holdsSurrogate`).
-/

namespace AliasExpansion

/-- Why a literal has no value, or its value no other form. -/
inductive DecodeError where
  | notString (text : String)
  | notInteger (text : String)
  | malformedDigits (base : Nat) (digits : String)
  /-- A decimal numeral has too many digits to be read. -/
  | numeralTooLong (digits : Nat)
  /-- A number has too many decimal digits to be written. -/
  | numberTooLong
  | codePointTooLarge
  /-- A text holds a lone surrogate, which has no bytes. -/
  | unencodable
deriving DecidableEq, Repr

def DecodeError.message : DecodeError → String
  | .notString text => "not a string literal: " ++ text
  | .notInteger text => "not an integer literal: " ++ text
  | .malformedDigits base digits =>
    "invalid literal for int() with base " ++ toString base ++ ": " ++
      String.ofList ((Text.quoted digits).toList.take 200)
  | .numeralTooLong digits =>
    "Exceeds the limit (" ++ toString Text.digitLimit ++
      " digits) for integer string conversion: value has " ++ toString digits ++
      " digits; use sys.set_int_max_str_digits() to increase the limit"
  | .numberTooLong =>
    "Exceeds the limit (" ++ toString Text.digitLimit ++
      " digits) for integer string conversion; " ++
      "use sys.set_int_max_str_digits() to increase the limit"
  | .codePointTooLarge => "chr() arg not in range(0x110000)"
  | .unencodable => "surrogates not allowed"

/-- What a text is made of: characters, and surrogates that are no half of a pair. -/
inductive CodePoint where
  | char (c : Char)
  | surrogate
deriving DecidableEq, Repr

namespace CodePoint

/-- The code point with a given number. -/
def ofNumber (n : Int) : Except DecodeError CodePoint :=
  if n < 0x110000 then
    .ok (if 0xD800 ≤ n && n < 0xE000 then .surrogate else .char (Char.ofNat n.toNat))
  else .error .codePointTooLarge

/-- The character that stands for the code point in a `String`. -/
def shown : CodePoint → Char
  | .char c => c
  | .surrogate => '\uFFFD'

end CodePoint

namespace Literal

-- ---------------------------------------------------------------------------
-- Escapes
-- ---------------------------------------------------------------------------

def escapeChar (c : Char) : List Char :=
  if c == '"' then ['\\', '"']
  else if c == '\\' then ['\\', '\\']
  else if c == '\n' then ['\\', 'n']
  else if c == '\r' then ['\\', 'r']
  else if c == '\t' then ['\\', 't']
  else if c == '\x00' then ['\\', '0']
  else if c.toNat < 0x20 || c.toNat == 0x7F then
    ['\\', 'u', '\x7b'] ++ Nat.toDigits 16 c.toNat ++ ['\x7d']
  else [c]

def escape (cs : List Char) : List Char :=
  cs.flatMap escapeChar

def isHexDigit (c : Char) : Bool :=
  c.isDigit || ('a' ≤ c && c ≤ 'f') || ('A' ≤ c && c ≤ 'F')

/-- The number that digits in a base spell. -/
def readBase (base : Nat) (digits : List Char) : Except DecodeError Int :=
  match Text.readNumeral base digits with
  | .ok n => .ok n
  | .error (.tooLong length) => .error (.numeralTooLong length)
  | .error .malformed => .error (.malformedDigits base (String.ofList digits))

/-- The decimal numeral of a number. -/
def writeDecimal (n : Int) : Except DecodeError String :=
  if Text.digitLimit < (Nat.toDigits 10 n.natAbs).length then .error .numberTooLong
  else .ok (toString n)

/-- The meaning of a backslash and one character. An unknown escape stands for itself. -/
def simpleEscape (c : Char) : List Char :=
  match c with
  | 'n' => ['\n']
  | 'r' => ['\r']
  | 't' => ['\t']
  | '\\' => ['\\']
  | '0' => ['\x00']
  | '\'' => ['\'']
  | '"' => ['"']
  | c => ['\\', c]

/-- The digits of an escape such as `u{1F600}`, given what follows the letter. -/
def bracedDigits? : List Char → Option (List Char)
  | '\x7b' :: rest =>
    let digits := rest.takeWhile fun c => isHexDigit c || c == '_'
    if 0 < digits.length && digits.length ≤ 6 && rest[digits.length]? == some '\x7d' then
      some digits
    else none
  | _ => none

/-- Read the escape whose backslash stands before `cs`: the number of characters of `cs` that
    belong to it, and the text it stands for. -/
def readEscape (cs : List Char) : Except DecodeError (Nat × List CodePoint) :=
  match cs with
  | [] => .ok (0, [.char '\\'])
  | '\n' :: rest => .ok (1 + (rest.takeWhile Text.isBlank).length, [])
  | 'u' :: rest =>
    match bracedDigits? rest with
    | some digits => do
      let n ← readBase 16 (digits.filter (· != '_'))
      return (digits.length + 3, [← CodePoint.ofNumber n])
    | none => .ok (1, (simpleEscape 'u').map .char)
  | 'x' :: a :: b :: _ =>
    if isHexDigit a && isHexDigit b then do
      let n ← readBase 16 [a, b]
      return (3, [← CodePoint.ofNumber n])
    else .ok (1, (simpleEscape 'x').map .char)
  | c :: _ => .ok (1, (simpleEscape c).map .char)

/-- Resolve the escapes of a text, after passing over its first `skip` characters. -/
def unescapeAfter : (skip : Nat) → List Char → Except DecodeError (List CodePoint)
  | _, [] => .ok []
  | skip + 1, _ :: rest => unescapeAfter skip rest
  | 0, c :: rest =>
    if c == '\\' then do
      let (length, text) ← readEscape rest
      return text ++ (← unescapeAfter length rest)
    else do
      return .char c :: (← unescapeAfter 0 rest)

def unescape (cs : List Char) : Except DecodeError (List CodePoint) :=
  unescapeAfter 0 cs

-- ---------------------------------------------------------------------------
-- Strings
-- ---------------------------------------------------------------------------

/-- The plain string literal with a given content. -/
def ofContent (content : String) (span : Span := {}) : Literal :=
  { kind := .str, text := String.ofList ('"' :: escape content.toList ++ ['"']), span }

/-- The number of `#` in the fence of a raw string. -/
def fenceLength (text : List Char) : Nat :=
  let opening := text.takeWhile (· == 'r')
  let fence := (text.drop opening.length).takeWhile (· == '#')
  opening.length + fence.length - 1

/-- What stands between the quotes of a string literal, with its escapes resolved. -/
def codePoints (literal : Literal) : Except DecodeError (List CodePoint) :=
  let text := literal.text.toList
  match literal.kind with
  | .str => unescape (text.drop 1).dropLast
  | .rawStr =>
    let fence := fenceLength text
    .ok (((text.take (text.length - 1 - fence)).drop (2 + fence)).map .char)
  | _ => .error (.notString literal.text)

def content (literal : Literal) : Except DecodeError String :=
  return String.ofList ((← literal.codePoints).map CodePoint.shown)

/-- Whether the text of a literal holds a lone surrogate, or its content does. -/
def holdsSurrogate (literal : Literal) : Bool :=
  literal.lone ||
    match literal.codePoints with
    | .ok points => points.contains .surrogate
    | .error _ => false

/-- Whether `fence` with a quote before it occurs in `cs`. -/
def holdsTerminator (fence : List Char) : List Char → Bool
  | [] => false
  | c :: rest => (c == '"' && fence.isPrefixOf rest) || holdsTerminator fence rest

/-- This string literal with another content. A raw string stays raw, with its fence, unless the
    content holds its terminator; all else becomes a plain string. -/
def withContent (literal : Literal) (content : String) : Literal :=
  let fence := (literal.text.toList.drop 1).takeWhile (· != '"')
  if literal.kind == .rawStr && !holdsTerminator fence content.toList then
    let text := 'r' :: fence ++ '"' :: content.toList ++ '"' :: fence
    { kind := .rawStr, text := String.ofList text, span := literal.span }
  else ofContent content literal.span

-- ---------------------------------------------------------------------------
-- Integers
-- ---------------------------------------------------------------------------

/-- The integer literal with given digits. -/
def ofDigits (digits : String) (span : Span := {}) : Literal :=
  { kind := .int, text := digits, span }

def widths : List (List Char) :=
  [['8'], ['1', '6'], ['3', '2'], ['6', '4'], ['1', '2', '8'], ['s', 'i', 'z', 'e']]

/-- The number of characters of the type suffix at the start of `cs`: none, or a sign letter with
    a width. -/
def suffixLength : List Char → Nat
  | sign :: rest =>
    if sign == 'i' || sign == 'u' then
      match widths.find? (·.isPrefixOf rest) with
      | some width => width.length + 1
      | none => 0
    else 0
  | [] => 0

/-- Cut off a type suffix that ends the text. A line end after it stays. -/
def dropSuffix : List Char → List Char
  | [] => []
  | c :: rest =>
    let length := suffixLength (c :: rest)
    let after := (c :: rest).drop length
    if 0 < length && (after == [] || after == ['\n']) then after
    else c :: dropSuffix rest

/-- The decimal digits of an integer literal, without suffix and underscores. -/
def digits (literal : Literal) : Except DecodeError String :=
  if literal.kind = .int then
    let text := dropSuffix (literal.text.toList.filter (· != '_'))
    let value :=
      match text with
      | '0' :: 'x' :: rest => readBase 16 rest
      | '0' :: 'o' :: rest => readBase 8 rest
      | '0' :: 'b' :: rest => readBase 2 rest
      | _ => readBase 10 text
    do writeDecimal (← value)
  else .error (.notInteger literal.text)

end Literal

end AliasExpansion
