-- SUMMARY: The atoms of a token tree, and token trees without their spans.
import AliasExpansion.Token.Basic

/-!
# Atoms

The atoms of a tree are its tokens that are no groups, in the order of the text. `bare` forgets
where tokens stood: two trees that are the same without their spans are the same code.
-/

namespace AliasExpansion.Token

mutual

/-- The atoms of a tree, from left to right. -/
def atoms : Token → List Token
  | .group _ content _ => atomsAll content
  | token => [token]

def atomsAll : List Token → List Token
  | [] => []
  | token :: rest => token.atoms ++ atomsAll rest

end

@[simp] theorem atomsAll_nil : atomsAll [] = [] :=
  rfl

@[simp] theorem atomsAll_append (left right : List Token) :
    atomsAll (left ++ right) = atomsAll left ++ atomsAll right := by
  induction left with
  | nil => rfl
  | cons token rest ih => simp [atomsAll, ih]

theorem atomsAll_singleton {token : Token} (atom : token.isGroup = false) :
    atomsAll [token] = [token] := by
  cases token with
  | group => cases atom
  | _ => rfl

mutual

/-- The token with every span at the start of a text. -/
def bare : Token → Token
  | .ident name _ => .ident name {}
  | .punct c joint _ => .punct c joint {}
  | .literal lit => .literal { lit with span := {} }
  | .group delimiter content _ => .group delimiter (bareAll content) {}

def bareAll : List Token → List Token
  | [] => []
  | token :: rest => bare token :: bareAll rest

end

@[simp] theorem bareAll_append (left right : List Token) :
    bareAll (left ++ right) = bareAll left ++ bareAll right := by
  induction left with
  | nil => rfl
  | cons token rest ih => simp [bareAll, ih]

end AliasExpansion.Token
