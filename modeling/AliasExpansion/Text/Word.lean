-- SUMMARY: Word characters, and those that can start a name.
import AliasExpansion.Text.Letter
import AliasExpansion.Text.Number

/-!
# Word characters

A word character is a letter, a numeric character or an underscore. A name starts with a word
character that is not a decimal digit, so a fraction or a superscript may start one.
-/

namespace AliasExpansion.Text

def isAlphanumeric (c : Char) : Bool :=
  isLetter c || isNumeric c

def isWordChar (c : Char) : Bool :=
  c == '_' || isAlphanumeric c

def isNameStart (c : Char) : Bool :=
  isWordChar c && !isDecimal c

theorem isWordChar_of_isNameStart {c : Char} (h : isNameStart c) : isWordChar c := by
  simp only [isNameStart, Bool.and_eq_true] at h
  exact h.1

end AliasExpansion.Text
