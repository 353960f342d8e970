-- SUMMARY: White space characters.
import AliasExpansion.Text.CharClass

/-!
# White space

The white space that the lexer skips, that numerals may be surrounded by and that placeholder
names ignore. It has more members than `Char.isWhitespace`: form feed, separator controls and
the spaces of other scripts count too.
-/

namespace AliasExpansion.Text

/-- White space, separator controls and no-break spaces included. -/
def blankRanges : CharRanges :=
  [(0x9, 0xD), (0x1C, 0x20), (0x85, 0x85), (0xA0, 0xA0), (0x1680, 0x1680), (0x2000, 0x200A),
    (0x2028, 0x2029), (0x202F, 0x202F), (0x205F, 0x205F), (0x3000, 0x3000)]

def isBlank (c : Char) : Bool :=
  blankRanges.contains c

end AliasExpansion.Text
