-- SUMMARY: Filling in the placeholders of a text.
import AliasExpansion.Table
import AliasExpansion.Text.Blank
import AliasExpansion.Value.Basic

/-!
# Placeholders

In a text, a name between percent signs stands for the text of the value bound to it. White space
inside the signs is ignored, two signs in a row stand for one, and a name that is not bound or not
closed stays as it is. Texts that are filled in are not read again.
-/

namespace AliasExpansion.Placeholder

/-- What the characters between two percent signs stand for. -/
def meaning (values : Table String Value) (body : List Char) : Except DecodeError (List Char) :=
  match body with
  | [] => .ok ['%']
  | body =>
    match values.find? (String.ofList (body.filter (!Text.isBlank ·))) with
    | some value => return (← value.text).toList
    | none => .ok ('%' :: body ++ ['%'])

/-- Fill in the placeholders of a text. Inside a placeholder, `body` is what stands between its
    sign and the text, reversed. -/
def fillFrom (values : Table String Value) :
    (body : Option (List Char)) → List Char → Except DecodeError (List Char)
  | none, [] => .ok []
  | some body, [] => .ok ('%' :: body.reverse)
  | none, c :: rest =>
    if c == '%' then fillFrom values (some []) rest
    else do return c :: (← fillFrom values none rest)
  | some body, c :: rest =>
    if c == '%' then do
      let filled ← meaning values body.reverse
      return filled ++ (← fillFrom values none rest)
    else fillFrom values (some (c :: body)) rest

def fill (values : Table String Value) (text : String) : Except DecodeError String :=
  return String.ofList (← fillFrom values none text.toList)

end AliasExpansion.Placeholder
