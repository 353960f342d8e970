-- SUMMARY: Line ends of texts that come from files.

/-!
# Line ends

Files may end their lines with a carriage return, or with one before the line feed. Both become a
single line feed when a file is read as text.
-/

namespace AliasExpansion.Text

/-- Turn every line end into a line feed. `afterReturn` says that a carriage return came before. -/
def unifyFrom (afterReturn : Bool) : List Char → List Char
  | [] => []
  | c :: rest =>
    if c == '\r' then '\n' :: unifyFrom true rest
    else if c == '\n' && afterReturn then unifyFrom false rest
    else c :: unifyFrom false rest

def unifyLineEnds (text : String) : String :=
  String.ofList (unifyFrom false text.toList)

example : unifyFrom false ['a', '\r', '\n', '\r', '\r', 'b', '\n'] =
    ['a', '\n', '\n', '\n', 'b', '\n'] := by decide

end AliasExpansion.Text
