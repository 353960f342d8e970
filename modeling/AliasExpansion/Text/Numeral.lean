-- SUMMARY: Reading an integer written in a given base.
import AliasExpansion.Text.Blank
import AliasExpansion.Text.Number

/-!
# Numerals

An integer numeral is digits of its base with single underscores between them, after an
optional sign, and with white space around it. The digits of bases above ten continue with
letters of either case; digits of other scripts count with their decimal value. A numeral of base
2, 8 or 16 may also begin with its own prefix. A decimal numeral with more digits than `digitLimit`
is not converted, whatever its number; numerals of the other bases have no limit.
-/

namespace AliasExpansion.Text

/-- The value of a digit, if it is one in some base up to 36. -/
def digitValue? (c : Char) : Option Nat :=
  if 'a' ≤ c && c ≤ 'z' then some (c.toNat - 'a'.toNat + 10)
  else if 'A' ≤ c && c ≤ 'Z' then some (c.toNat - 'A'.toNat + 10)
  else decimalValue? c

/-- Fold digits onto `value`. A single underscore may stand before a further digit. -/
def readDigits (base value : Nat) : List Char → Option Nat
  | [] => some value
  | c :: rest =>
    match digitValue? c with
    | some d => if d < base then readDigits base (value * base + d) rest else none
    | none =>
      match c, rest with
      | '_', d :: rest =>
        match digitValue? d with
        | some d => if d < base then readDigits base (value * base + d) rest else none
        | none => none
      | _, _ => none

/-- A run of digits, which starts with a digit. -/
def readNatural (base : Nat) : List Char → Option Nat
  | [] => none
  | '_' :: _ => none
  | cs => readDigits base 0 cs

/-- The letter that marks a base in a prefix such as `0x`. -/
def baseOfMark? (c : Char) : Option Nat :=
  match c.toLower with
  | 'x' => some 16
  | 'o' => some 8
  | 'b' => some 2
  | _ => none

/-- Drop the prefix of `base`, and the one underscore that may follow it. -/
def dropBaseMark (base : Nat) (cs : List Char) : List Char :=
  match cs with
  | zero :: mark :: rest =>
    if decimalValue? zero = some 0 ∧ baseOfMark? mark = some base then
      match rest with
      | '_' :: digits => digits
      | digits => digits
    else cs
  | _ => cs

/-- White space that may surround a numeral: all but the separator controls. -/
def isNumeralBlank (c : Char) : Bool :=
  isBlank c && !(0x1C ≤ c.toNat && c.toNat ≤ 0x1F)

def readInteger (base : Nat) (cs : List Char) : Option Int :=
  let body := ((cs.dropWhile isNumeralBlank).reverse.dropWhile isNumeralBlank).reverse
  match body with
  | '-' :: rest => (readNatural base (dropBaseMark base rest)).map fun n => -(n : Int)
  | '+' :: rest => (readNatural base (dropBaseMark base rest)).map Int.ofNat
  | rest => (readNatural base (dropBaseMark base rest)).map Int.ofNat

/-- Why a text is not read as an integer. -/
inductive NumeralFault where
  | tooLong (digits : Nat)
  | malformed
deriving DecidableEq, Repr

/-- The most decimal digits with which an integer is read or written. -/
def digitLimit : Nat := 4300

/-- The number of decimal digits at the front of a numeral, which all count, zeros among them. -/
def decimalLength (cs : List Char) : Nat :=
  let digits :=
    match cs.dropWhile isNumeralBlank with
    | '-' :: rest | '+' :: rest => rest
    | rest => rest
  ((digits.takeWhile fun c => c == '_' || isDecimal c).filter (· != '_')).length

def readNumeral (base : Nat) (cs : List Char) : Except NumeralFault Int :=
  if base = 10 ∧ digitLimit < decimalLength cs then .error (.tooLong (decimalLength cs))
  else
    match readInteger base cs with
    | some n => .ok n
    | none => .error .malformed

example : readInteger 10 [' ', '-', '1', '_', '2'] = some (-12) := by decide
example : readInteger 16 ['0', 'x', '1', 'f'] = some 31 := by decide
example : readInteger 10 ['1', '_', '_', '2'] = none := by decide

end AliasExpansion.Text
