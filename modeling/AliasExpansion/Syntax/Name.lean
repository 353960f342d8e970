-- SUMMARY: Which identifiers may be used as names, and which are reserved.
import AliasExpansion.Text.Word

/-!
# Names

An identifier token is usable as a name unless it is reserved or a lone underscore. A raw
identifier, marked `r#`, may spell a reserved word, except the ones that have a meaning inside a
path.
-/

namespace AliasExpansion.Name

def keywords : List String :=
  ["as", "async", "await", "break", "const", "continue", "crate", "dyn", "else", "enum",
    "extern", "false", "fn", "for", "if", "impl", "in", "let", "loop", "match", "mod", "move",
    "mut", "pub", "ref", "return", "self", "Self", "static", "struct", "super", "trait", "true",
    "type", "unsafe", "use", "where", "while", "abstract", "become", "box", "do", "final",
    "macro", "override", "priv", "try", "typeof", "unsized", "virtual", "yield"]

/-- Keywords that may start or appear inside a path. -/
def pathKeywords : List String :=
  ["self", "Self", "super", "crate"]

/-- Whether the characters have the form of a name. -/
def isNameShaped : List Char → Bool
  | c :: rest => Text.isNameStart c && rest.all Text.isWordChar
  | [] => false

/-- Whether `name` is usable as an identifier, raw identifiers included. -/
def isIdentifier (name : String) : Bool :=
  match name.toList with
  | 'r' :: '#' :: bare =>
    isNameShaped bare && !pathKeywords.contains (String.ofList bare) && bare != ['_']
  | cs => isNameShaped cs && !keywords.contains name && name != "_"

/-- Whether `name` may be a segment of a path. -/
def isPathSegment (name : String) : Bool :=
  isIdentifier name || pathKeywords.contains name

end AliasExpansion.Name
