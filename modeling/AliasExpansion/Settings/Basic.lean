-- SUMMARY: Settings, and their validation from a document.
import AliasExpansion.Notice.Basic
import AliasExpansion.Settings.Document
import AliasExpansion.Text.Case
import AliasExpansion.Text.Numeral

/-!
# Settings

Settings are read from an object in which every field is optional and no other field may stand.
Values are taken leniently where their meaning is plain: an integer may be written as a text or
with a zero fraction, a truth value as a number or a word, a log level in any case. Validation
reports the problems of all fields at once.
-/

namespace AliasExpansion

inductive LogLevel where
  | critical
  | fatal
  | error
  | warn
  | warning
  | info
  | debug
  | notset
deriving DecidableEq, Repr

namespace LogLevel

def name : LogLevel → String
  | .critical => "CRITICAL"
  | .fatal => "FATAL"
  | .error => "ERROR"
  | .warn => "WARN"
  | .warning => "WARNING"
  | .info => "INFO"
  | .debug => "DEBUG"
  | .notset => "NOTSET"

def severity : LogLevel → Nat
  | .critical | .fatal => 50
  | .error => 40
  | .warn | .warning => 30
  | .info => 20
  | .debug => 10
  | .notset => 0

def all : List LogLevel :=
  [.critical, .fatal, .error, .warn, .warning, .info, .debug, .notset]

/-- The level with a given name, in any case. -/
def ofName? (text : String) : Option LogLevel :=
  let upper := String.ofList (Text.uppercase text.toList)
  all.find? fun level => level.name == upper

end LogLevel

structure Settings where
  /-- Absent when every invocation draws its own seed. -/
  seed : Option Int := none
  /-- What stands before every note. -/
  lead : String := Notice.defaultLead
  emitNotices : Bool := true
  logLevel : LogLevel := .warning
deriving Repr

namespace Settings

/-- What is wrong with the value of a field. -/
inductive Fault where
  | unknownField
  | notAnObject
  /-- A text that spells no integer. -/
  | integerText
  | fractionalInteger
  | integerType
  | textType
  /-- A text, or a number within 64 bits, that spells no truth value. -/
  | truthText
  | truthType
  | unknownLevel
deriving DecidableEq, Repr

structure Problem where
  field : String
  fault : Fault
deriving DecidableEq, Repr

-- ---------------------------------------------------------------------------
-- Values of fields
-- ---------------------------------------------------------------------------

/-- The integer that a decimal number is, if it is whole. -/
def whole? (mantissa : Int) (places : Nat) : Option Int :=
  let scale : Int := Nat.pow 10 places
  if mantissa % scale = 0 then some (mantissa / scale) else none

/-- The number that digits spell, with no zero in front of others. -/
def naturalOfDigits? (digits : List Char) : Option Nat :=
  if digits.isEmpty || !digits.all Char.isDigit then none
  else if digits.head? == some '0' && digits != ['0'] then none
  else some (Document.ofDigits digits)

/-- Drop zeros and underscores in front of a digit, after the character `last`, which is one of
    them. What is dropped last stays if a point or nothing follows. -/
def dropZerosAfter (last : Char) : List Char → List Char
  | [] => [last]
  | c :: rest =>
    if c == '0' || c == '_' then dropZerosAfter c rest
    else if c == '.' then last :: c :: rest
    else if c.isDigit then c :: rest
    else []

/-- Drop zeros in front. -/
def dropLeadingZeros : List Char → List Char
  | '0' :: rest => dropZerosAfter '0' rest
  | cs => cs

/-- Drop a point and the zeros that follow, if there are any and nothing else follows. -/
def dropZeroFraction (cs : List Char) : List Char :=
  let fraction := (cs.dropWhile (· != '.')).drop 1
  if !fraction.isEmpty && fraction.all (· == '0') then cs.takeWhile (· != '.') else cs

def hasDoubleUnderscore : List Char → Bool
  | '_' :: '_' :: _ => true
  | _ :: rest => hasDoubleUnderscore rest
  | [] => false

/-- Drop underscores that stand alone and inside the text. -/
def dropUnderscores (cs : List Char) : List Char :=
  if cs.head? == some '_' || cs.getLast? == some '_' || hasDoubleUnderscore cs then cs
  else cs.filter (· != '_')

/-- The number that a text without a sign spells. -/
def naturalOfText? (cs : List Char) : Option Nat :=
  naturalOfDigits? (dropUnderscores (dropZeroFraction (dropLeadingZeros cs)))

/-- The integer that a text spells in decimal digits after an optional sign. White space around it,
    zeros in front, a fraction of zeros and single underscores make no difference. -/
def integerOfText? (text : String) : Option Int :=
  let blank := Text.isNumeralBlank
  match ((text.toList.dropWhile blank).reverse.dropWhile blank).reverse with
  | '-' :: cs => (naturalOfText? cs).map fun n => -(n : Int)
  | '+' :: cs => (naturalOfText? cs).map Int.ofNat
  | cs => (naturalOfText? cs).map Int.ofNat

example : integerOfText? " +0_42.0 " = some 42 := by decide
example : integerOfText? "-07" = some (-7) := by decide
example : integerOfText? "0__7" = some 7 := by decide
example : integerOfText? "1__7" = none := by decide
example : integerOfText? "5." = none := by decide

def seedOf : Document → Except Fault (Option Int)
  | .null => .ok none
  | .bool value => .ok (some (if value then 1 else 0))
  | .number mantissa places =>
    match whole? mantissa places with
    | some n => .ok (some n)
    | none => .error .fractionalInteger
  | .text text =>
    match integerOfText? text with
    | some n => .ok (some n)
    | none => .error .integerText
  | .list _ | .object _ => .error .integerType

def textOf : Document → Except Fault String
  | .text text => .ok text
  | _ => .error .textType

def trueWords : List String := ["1", "on", "t", "true", "y", "yes"]

def falseWords : List String := ["0", "off", "f", "false", "n", "no"]

def truthOf : Document → Except Fault Bool
  | .bool value => .ok value
  | .text text =>
    let word := text.toLower
    if trueWords.contains word then .ok true
    else if falseWords.contains word then .ok false
    else .error .truthText
  | .number mantissa places =>
    match whole? mantissa places with
    | some 0 => .ok false
    | some 1 => .ok true
    | some n => .error (if -Int.pow 2 63 ≤ n ∧ n < Int.pow 2 63 then .truthText else .truthType)
    | none => .error .truthType
  | .null | .list _ | .object _ => .error .truthType

def levelOf (document : Document) : Except Fault LogLevel := do
  match LogLevel.ofName? (← textOf document) with
  | some level => return level
  | none => throw .unknownLevel

-- ---------------------------------------------------------------------------
-- Validation
-- ---------------------------------------------------------------------------

/-- Take over one field. -/
def setField (settings : Settings) (field : String) (value : Document) :
    Except Fault Settings :=
  match field with
  | "seed" => return { settings with seed := ← seedOf value }
  | "deprecation_prefix" => return { settings with lead := ← textOf value }
  | "emit_deprecations" => return { settings with emitNotices := ← truthOf value }
  | "log_level" => return { settings with logLevel := ← levelOf value }
  | _ => throw .unknownField

/-- Take over fields one by one, and collect the problems of those that are refused. -/
def setFields (settings : Settings) :
    List (String × Document) → Settings × List Problem
  | [] => (settings, [])
  | (field, value) :: rest =>
    match settings.setField field value with
    | .ok settings => setFields settings rest
    | .error fault =>
      let (settings, problems) := setFields settings rest
      (settings, { field, fault } :: problems)

/-- The settings that a document holds, or all its problems in the order of field names. -/
def ofDocument : Document → Except (List Problem) Settings
  | .object fields =>
    match setFields {} fields with
    | (settings, []) => .ok settings
    | (_, problems) => .error (problems.mergeSort fun a b => decide (a.field ≤ b.field))
  | _ => .error [{ field := "", fault := .notAnObject }]

/-- Whether a document says nothing: it is empty, zero or false. -/
def isBlank : Document → Bool
  | .null => true
  | .bool value => !value
  | .number mantissa _ => mantissa == 0
  | .text text => text.isEmpty
  | .list items => items.isEmpty
  | .object fields => fields.isEmpty

/-- The settings of a file. A document that says nothing stands for the default settings. -/
def ofFile (document : Document) : Except (List Problem) Settings :=
  if isBlank document then .ok {} else ofDocument document

end Settings

end AliasExpansion
