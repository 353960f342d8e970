-- SUMMARY: Token trees: spans, delimiters, literals and tokens, with equality and size.

/-!
# Tokens

A token tree is a sequence of atoms (identifiers, single punctuation characters, literals) in
which any element may be a group that holds a sequence of its own. Both alias values and code
blocks are lists of tokens. Rendering is in `Token/Render`, reading from source in
`Token/Lexeme` and `Token/Tree`, and the meaning of a literal's text in `Token/Literal`.
-/

namespace AliasExpansion

/-- A position in a source text. Lines and columns count from one. -/
structure Span where
  line : Nat := 1
  column : Nat := 1
deriving DecidableEq, Repr, Inhabited

inductive Delimiter where
  | parenthesis
  | bracket
  | brace
  /-- A group without visible delimiters. -/
  | none
deriving DecidableEq, Repr, Inhabited

def Delimiter.opening : Delimiter → String
  | .parenthesis => "("
  | .bracket => "["
  | .brace => "\x7b"
  | .none => ""

def Delimiter.closing : Delimiter → String
  | .parenthesis => ")"
  | .bracket => "]"
  | .brace => "\x7d"
  | .none => ""

inductive LiteralKind where
  | str
  | rawStr
  | byteStr
  | rawByteStr
  | char
  | byte
  | int
  | float
deriving DecidableEq, Repr, Inhabited

/-- A literal as it stands in the source, quotes and suffix included. -/
structure Literal where
  kind : LiteralKind
  text : String
  span : Span := {}
  /-- Whether the text, made from the texts of values, holds lone surrogates. A `String` cannot
      hold any: U+FFFD stands for them. -/
  lone : Bool := false
deriving DecidableEq, Repr, Inhabited

/-- Whether the literal is a string literal, plain or raw. -/
def Literal.isString (literal : Literal) : Bool :=
  literal.kind == .str || literal.kind == .rawStr

inductive Token where
  | ident (name : String) (span : Span)
  /-- A punctuation character. It is `joint` when another one follows it at once. -/
  | punct (char : Char) (joint : Bool) (span : Span)
  | literal (lit : Literal)
  | group (delimiter : Delimiter) (content : List Token) (span : Span)
deriving Repr, Inhabited

namespace Token

def span : Token → Span
  | .ident _ span => span
  | .punct _ _ span => span
  | .literal lit => lit.span
  | .group _ _ span => span

def isGroup : Token → Bool
  | .group .. => true
  | _ => false

def isBraceGroup : Token → Bool
  | .group .brace _ _ => true
  | _ => false

def isPunct (c : Char) : Token → Bool
  | .punct char _ _ => char == c
  | _ => false

/-- Whether the token is glued to the next one. -/
def isJoint : Token → Bool
  | .punct _ joint _ => joint
  | _ => false

/-- The span of the first token; the start of a text when there is none. -/
def firstSpan : List Token → Span
  | [] => {}
  | token :: _ => token.span

-- ---------------------------------------------------------------------------
-- Equality
-- ---------------------------------------------------------------------------

mutual

def decEq : (a b : Token) → Decidable (a = b)
  | .ident n s, .ident n' s' =>
    if h : n = n' ∧ s = s' then isTrue (by rw [h.1, h.2])
    else isFalse fun e => h (by cases e; exact ⟨rfl, rfl⟩)
  | .punct c j s, .punct c' j' s' =>
    if h : c = c' ∧ j = j' ∧ s = s' then isTrue (by rw [h.1, h.2.1, h.2.2])
    else isFalse fun e => h (by cases e; exact ⟨rfl, rfl, rfl⟩)
  | .literal l, .literal l' =>
    if h : l = l' then isTrue (by rw [h]) else isFalse fun e => h (by cases e; rfl)
  | .group d ts s, .group d' ts' s' =>
    match decEqList ts ts' with
    | isTrue hts =>
      if h : d = d' ∧ s = s' then isTrue (by rw [h.1, hts, h.2])
      else isFalse fun e => h (by cases e; exact ⟨rfl, rfl⟩)
    | isFalse hts => isFalse fun e => hts (by cases e; rfl)
  | .ident .., .punct .. | .ident .., .literal _ | .ident .., .group ..
  | .punct .., .ident .. | .punct .., .literal _ | .punct .., .group ..
  | .literal _, .ident .. | .literal _, .punct .. | .literal _, .group ..
  | .group .., .ident .. | .group .., .punct .. | .group .., .literal _ =>
    isFalse (by intro e; cases e)

def decEqList : (as bs : List Token) → Decidable (as = bs)
  | [], [] => isTrue rfl
  | [], _ :: _ => isFalse (by intro e; cases e)
  | _ :: _, [] => isFalse (by intro e; cases e)
  | a :: as, b :: bs =>
    match decEq a b, decEqList as bs with
    | isTrue h, isTrue hs => isTrue (by rw [h, hs])
    | isFalse h, _ => isFalse fun e => h (by cases e; rfl)
    | _, isFalse hs => isFalse fun e => hs (by cases e; rfl)

end

instance : DecidableEq Token := decEq

-- ---------------------------------------------------------------------------
-- Size
-- ---------------------------------------------------------------------------

mutual

/-- The number of tokens in a tree, at every depth. -/
def weight : Token → Nat
  | .group _ content _ => weights content + 1
  | _ => 1

def weights : List Token → Nat
  | [] => 0
  | token :: rest => token.weight + weights rest

end

theorem weight_pos (token : Token) : 0 < token.weight := by
  cases token <;> simp [weight]

mutual

/-- The number of groups that stand around the innermost token of a tree. -/
def depth : Token → Nat
  | .group _ content _ => depths content + 1
  | _ => 0

def depths : List Token → Nat
  | [] => 0
  | token :: rest => max token.depth (depths rest)

end

end Token

end AliasExpansion
