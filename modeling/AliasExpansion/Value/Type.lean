-- SUMMARY: The types of alias values and of function parameters.

/-!
# Value types

An alias value is typed by the syntactic category that its tokens belong to. The types `tokens`
and `raw` accept any tokens: `raw` is for a parameter that takes a whole argument list unread.
Which types coerce into which is in `Value/Coercion`.
-/

namespace AliasExpansion

inductive ValueType where
  | ident
  | path
  | type
  | expr
  | str
  | int
  | tokens
  | raw
deriving DecidableEq, Repr, Inhabited

def ValueType.name : ValueType → String
  | .ident => "ident"
  | .path => "path"
  | .type => "type"
  | .expr => "expr"
  | .str => "str"
  | .int => "int"
  | .tokens => "tokens"
  | .raw => "raw"

/-- The type of a parameter: one argument, or any number of them. -/
inductive ParamType where
  | one (value : ValueType)
  | many (value : ValueType)
deriving DecidableEq, Repr

def ParamType.name : ParamType → String
  | .one value => value.name
  | .many value => value.name ++ "..."

end AliasExpansion
