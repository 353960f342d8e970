-- SUMMARY: Cutting token lists at separators.
import AliasExpansion.Token.Basic

/-!
# Parts

A token list is cut at top-level separator characters; groups are atomic. A punctuation
character that ends a part is no longer joint, because what it was glued to is gone.
-/

namespace AliasExpansion.Token

/-- Clear the joint flag of a punctuation character at the end. -/
def detach : List Token → List Token
  | [] => []
  | [.punct char _ span] => [.punct char false span]
  | token :: rest => token :: detach rest

def isSeparator (separators : List Char) : Token → Bool
  | .punct char _ _ => separators.contains char
  | _ => false

/-- The runs of tokens between separators. There is one run more than there are separators. -/
def cut (separators : List Char) : List Token → List (List Token)
  | [] => [[]]
  | token :: rest =>
    if token.isSeparator separators then [] :: cut separators rest
    else (cut separators rest).modifyHead (token :: ·)

def parts (separators : List Char) (tokens : List Token) : List (List Token) :=
  (cut separators tokens).map detach

/-- The parts between commas. A comma may stand after the last one. -/
def commaParts (tokens : List Token) : List (List Token) :=
  let all := parts [','] tokens
  if all.getLast? = some [] then all.dropLast else all

end AliasExpansion.Token
