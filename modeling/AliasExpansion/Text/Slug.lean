-- SUMMARY: Turning arbitrary text into the shape of an identifier.
import AliasExpansion.Text.Word

/-!
# Slugs

A slug is the identifier-shaped form of a text. Runs of characters that are not word characters
collapse into one underscore; such characters and underscores are dropped at the start and in
the last position; a numeric character at the start gets an underscore in front; an empty result
is a single underscore.
-/

namespace AliasExpansion.Text

/-- The slug, reversed, of a text whose processed part has the slug `done`, reversed. `joined`
    says that `done` ends in an underscore that stands for a dropped run. -/
def slugFrom (done : List Char) (joined : Bool) : List Char → List Char
  | [] => if joined then done.tail else done
  | c :: rest =>
    let atEdge := done.isEmpty || rest.isEmpty
    if isWordChar c then
      if done.isEmpty && isNumeric c && !joined then slugFrom [c, '_'] false rest
      else if c == '_' && atEdge then slugFrom done joined rest
      else slugFrom (c :: done) false rest
    else if !joined && !atEdge then slugFrom ('_' :: done) true rest
    else slugFrom done joined rest

def slug (cs : List Char) : List Char :=
  match slugFrom [] false cs with
  | [] => ['_']
  | done => done.reverse

example : slug "&'static str".toList = "static_str".toList := by decide
example : slug "Result< T, E >".toList = "Result_T_E".toList := by decide
example : slug "4x".toList = "_4x".toList := by decide

end AliasExpansion.Text
