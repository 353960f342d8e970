-- SUMMARY: Quoting of a text inside a message.
import AliasExpansion.Text.Printable

/-!
# Quoted texts

The form in which messages quote a piece of source. Single quotes stand around the text, unless
it holds a single quote and no double quote. Inside, a backslash and the quote in use are
escaped, line ends and tabs get their short escapes, other characters that are not printable get
a numeric escape of the shortest of three lengths, and all else stays as it is.
-/

namespace AliasExpansion.Text

/-- The quote that surrounds `cs`. -/
def quoteMark (cs : List Char) : Char :=
  if cs.contains '\'' && !cs.contains '"' then '"' else '\''

/-- Lowercase hexadecimal digits of `n`, filled up with zeros to `width`. -/
def hexDigits (width n : Nat) : List Char :=
  let digits := Nat.toDigits 16 n
  List.replicate (width - digits.length) '0' ++ digits

def quotedChar (mark c : Char) : List Char :=
  if c == '\\' || c == mark then ['\\', c]
  else if c == '\n' then ['\\', 'n']
  else if c == '\r' then ['\\', 'r']
  else if c == '\t' then ['\\', 't']
  else if isPrintable c then [c]
  else if c.toNat < 0x100 then '\\' :: 'x' :: hexDigits 2 c.toNat
  else if c.toNat < 0x10000 then '\\' :: 'u' :: hexDigits 4 c.toNat
  else '\\' :: 'U' :: hexDigits 8 c.toNat

def quoted (text : String) : String :=
  let cs := text.toList
  let mark := quoteMark cs
  String.ofList (mark :: cs.flatMap (quotedChar mark) ++ [mark])

example : quoted "a" = "'a'" := by decide +kernel
example : quoted "it's" = "\"it's\"" := by decide +kernel
example : quoted "it's \"x\"" = "'it\\'s \"x\"'" := by decide +kernel
example : quoted "\\\n\x7f" = "'\\\\\\n\\x7f'" := by decide +kernel

end AliasExpansion.Text
