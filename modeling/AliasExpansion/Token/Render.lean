-- SUMMARY: Rendering of token trees as source text.
import AliasExpansion.Token.Basic

/-!
# Rendering

Tokens are separated by one space, except after a joint punctuation character. Braces are padded
with a space on either side of their content, the other delimiters are not.
-/

namespace AliasExpansion.Token

mutual

def render : Token → String
  | .ident name _ => name
  | .punct char _ _ => String.singleton char
  | .literal lit => lit.text
  | .group .brace content _ =>
    let inner := renderAfter true content
    if inner = "" then "\x7b \x7d" else "\x7b " ++ inner ++ " \x7d"
  | .group delimiter content _ =>
    delimiter.opening ++ renderAfter true content ++ delimiter.closing

/-- Render what follows a token. Without `joint` a space comes first. -/
def renderAfter (joint : Bool) : List Token → String
  | [] => ""
  | token :: rest =>
    (if joint then "" else " ") ++ token.render ++ renderAfter token.isJoint rest

end

def renderAll (tokens : List Token) : String :=
  renderAfter true tokens

mutual

def isLone : Token → Bool
  | .literal lit => lit.lone
  | .group _ content _ => anyLone content
  | _ => false

/-- Whether the rendering of the tokens holds a lone surrogate. -/
def anyLone : List Token → Bool
  | [] => false
  | token :: rest => token.isLone || anyLone rest

end

end AliasExpansion.Token
