-- SUMMARY: Substituting alias values into code, checking the code after every replacement.
import AliasExpansion.Substitution.Placeholder
import AliasExpansion.Traversal.Visitor
import AliasExpansion.Syntax.Check

/-!
# Substitution

Every identifier that names an alias is replaced by the tokens of the alias's value, and in every
string literal the placeholders are filled in. After each replacement the whole stream must still
have the form it had before; the replacement that breaks it is the one that the error names.
-/

namespace AliasExpansion

/-- The replacement made last. -/
structure Replacement where
  before : String
  after : String
  span : Span
deriving Repr

namespace Substitution

/-- Decide about an atom, and note the replacement if there is one. -/
def atom (values : Table String Value) (token : Token) : Hook (Option Replacement) Action := do
  match token with
  | .ident name span =>
    match values.find? name with
    | some value =>
      set (some { before := name, after := value.render, span : Replacement })
      return .replace value.tokens
    | none => return .keep
  | .literal lit =>
    if lit.isString then
      let content ← lit.content.mapError Error.decode
      let filled ← (Placeholder.fill values content).mapError Error.decode
      if filled = content then return .keep
      let changed := lit.withContent filled
      set (some { before := lit.text, after := changed.text, span := lit.span : Replacement })
      return .replace [.literal changed]
    else return .keep
  | _ => return .keep

/-- Check that the stream still has the form of `category`. -/
def recheck (category : Category) (frames : Frames) : Hook (Option Replacement) Unit := do
  match category.check (← frames.stream) with
  | .ok () => return ()
  | .error e =>
    match ← get with
    | some last =>
      throw (.substitution last.before last.after e.fault (some last.span))
    | none => throw (.internal .unrecordedReplacement none)

def visitor (values : Table String Value) (category : Category) :
    Visitor (Option Replacement) where
  atom := fun _ token => atom values token
  replaced := recheck category

end Substitution

/-- Substitute values into tokens that must stay of the form of `category`. -/
def substitute (values : Table String Value) (category : Category) (tokens : List Token) :
    Except Error (List Token) :=
  ((Substitution.visitor values category).walk (Token.walkLength tokens) tokens).run' none

end AliasExpansion
