-- SUMMARY: Settings documents: structured data, and reading it from text.

/-!
# Documents

A settings file holds one document: objects, lists, texts, numbers, truth values and null, in the
usual notation with braces, brackets and double quotes. Numbers are kept exactly, as an integer
with a number of decimal places.
-/

namespace AliasExpansion

inductive Document where
  | null
  | bool (value : Bool)
  /-- `mantissa` divided by ten to the power of `places`. -/
  | number (mantissa : Int) (places : Nat)
  | text (value : String)
  | list (items : List Document)
  | object (fields : List (String × Document))
deriving Repr, Inhabited

namespace Document

/-- A reader of the start of a text: what it reads and the rest, or nothing. -/
abbrev Reader (α : Type) := List Char → Option (α × List Char)

def isSpace (c : Char) : Bool :=
  c == ' ' || c == '\t' || c == '\n' || c == '\r'

def skipSpace (cs : List Char) : List Char :=
  cs.dropWhile isSpace

/-- Read one given character, after white space. -/
def expect (c : Char) (cs : List Char) : Option (List Char) :=
  match skipSpace cs with
  | d :: rest => if d == c then some rest else none
  | [] => none

-- ---------------------------------------------------------------------------
-- Numbers
-- ---------------------------------------------------------------------------

/-- The number that decimal digits spell. -/
def ofDigits (digits : List Char) : Nat :=
  digits.foldl (fun n c => 10 * n + (c.toNat - '0'.toNat)) 0

def readSign : List Char → Bool × List Char
  | '-' :: rest => (true, rest)
  | '+' :: rest => (false, rest)
  | cs => (false, cs)

def digits (cs : List Char) : List Char × List Char :=
  (cs.takeWhile Char.isDigit, cs.dropWhile Char.isDigit)

def readExponent : List Char → Int × List Char
  | mark :: rest =>
    if mark == 'e' || mark == 'E' then
      let (negative, rest) := readSign rest
      let (exponent, rest) := digits rest
      (if negative then -(ofDigits exponent : Int) else ofDigits exponent, rest)
    else (0, mark :: rest)
  | [] => (0, [])

def readNumber : Reader Document := fun cs =>
  let (negative, cs) := readSign cs
  let (whole, cs) := digits cs
  if whole.isEmpty then none
  else
    let (fraction, cs) :=
      match cs with
      | '.' :: rest => digits rest
      | cs => ([], cs)
    let (exponent, cs) := readExponent cs
    let magnitude : Int := ofDigits (whole ++ fraction)
    let places := fraction.length - exponent
    let mantissa := (if negative then -magnitude else magnitude) * Nat.pow 10 (-places).toNat
    some (.number mantissa places.toNat, cs)

-- ---------------------------------------------------------------------------
-- Texts
-- ---------------------------------------------------------------------------

def hexValue? (c : Char) : Option Nat :=
  if c.isDigit then some (c.toNat - '0'.toNat)
  else if 'a' ≤ c && c ≤ 'f' then some (c.toNat - 'a'.toNat + 10)
  else if 'A' ≤ c && c ≤ 'F' then some (c.toNat - 'A'.toNat + 10)
  else none

def shortEscape? (c : Char) : Option Nat :=
  match c with
  | '"' | '\\' | '/' => some c.toNat
  | 'b' => some 8
  | 'f' => some 12
  | 'n' => some 10
  | 'r' => some 13
  | 't' => some 9
  | _ => none

/-- The characters up to the closing quote, as code units: an escape may be half of a pair. -/
def readUnits : Reader (List Nat)
  | '"' :: rest => some ([], rest)
  | '\\' :: 'u' :: a :: b :: c :: d :: rest => do
    let unit := ((← hexValue? a) * 16 + (← hexValue? b)) * 256 +
      ((← hexValue? c) * 16 + (← hexValue? d))
    let (units, rest) ← readUnits rest
    return (unit :: units, rest)
  | '\\' :: c :: rest => do
    let unit ← shortEscape? c
    let (units, rest) ← readUnits rest
    return (unit :: units, rest)
  | c :: rest => do
    let (units, rest) ← readUnits rest
    return (c.toNat :: units, rest)
  | [] => none

/-- The characters that code units stand for. Two halves of a pair form one character. -/
def ofUnits : List Nat → List Char
  | high :: low :: rest =>
    if 0xD800 ≤ high && high < 0xDC00 && 0xDC00 ≤ low && low < 0xE000 then
      Char.ofNat (0x10000 + (high - 0xD800) * 0x400 + (low - 0xDC00)) :: ofUnits rest
    else Char.ofNat high :: ofUnits (low :: rest)
  | [unit] => [Char.ofNat unit]
  | [] => []

def readText : Reader String
  | '"' :: rest => do
    let (units, rest) ← readUnits rest
    return (String.ofList (ofUnits units), rest)
  | _ => none

-- ---------------------------------------------------------------------------
-- Documents
-- ---------------------------------------------------------------------------

def words : List (List Char × Document) :=
  [("null".toList, .null), ("true".toList, .bool true), ("false".toList, .bool false)]

def readWord : Reader Document := fun cs =>
  words.findSome? fun (word, value) =>
    if word.isPrefixOf cs then some (value, cs.drop word.length) else none

/-- Further elements of a list or object, up to its closing character. -/
def readElements {α : Type} (closing : Char) (readElement : Reader α) :
    (limit : Nat) → Reader (List α)
  | 0, _ => none
  | limit + 1, cs => do
    let (element, cs) ← readElement cs
    match expect ',' cs with
    | some cs => do
      let (elements, cs) ← readElements closing readElement limit cs
      return (element :: elements, cs)
    | none => return ([element], ← expect closing cs)

def readSequence {α : Type} (opening closing : Char) (readElement : Reader α) (limit : Nat) :
    Reader (List α) := fun cs => do
  let cs ← expect opening cs
  match expect closing cs with
  | some cs => return ([], cs)
  | none => readElements closing readElement limit cs

def readField (readValue : Reader Document) : Reader (String × Document) := fun cs => do
  let (key, cs) ← readText (skipSpace cs)
  let (value, cs) ← readValue (← expect ':' cs)
  return ((key, value), cs)

/-- Read a document of at most `limit` levels and elements per level. -/
def readValue : (limit : Nat) → Reader Document
  | 0, _ => none
  | limit + 1, cs =>
    let cs := skipSpace cs
    match cs with
    | '"' :: _ => do
      let (value, cs) ← readText cs
      return (.text value, cs)
    | '[' :: _ => do
      let (items, cs) ← readSequence '[' ']' (readValue limit) limit cs
      return (.list items, cs)
    | '\x7b' :: _ => do
      let (fields, cs) ← readSequence '\x7b' '\x7d' (readField (readValue limit)) limit cs
      return (.object fields, cs)
    | _ => readWord cs <|> readNumber cs

/-- The document that a text holds. An empty text holds null. -/
def read (text : String) : Option Document :=
  let cs := text.toList
  if (skipSpace cs).isEmpty then some .null
  else do
    let (document, rest) ← readValue (cs.length + 1) cs
    if (skipSpace rest).isEmpty then some document else none

end Document

end AliasExpansion
