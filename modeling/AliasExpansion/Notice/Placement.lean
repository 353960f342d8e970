-- SUMMARY: Attaching notices to the items of generated code.
import AliasExpansion.Notice.Basic
import AliasExpansion.Syntax.Split

/-!
# Placement of notices

Each notice goes, as an attribute, in front of one element of the code, in depth-first order: an
item, then what it contains (fields, variants and their fields, items of a trait, of a foreign
block, of a module or of a function body), then the next item. An element that is already
deprecated is passed over, and implementation blocks are not entered. Notices that are left over
when the elements run out are not placed. A body that cannot be split into members stays as it is.
-/

namespace AliasExpansion

/-- Kinds of items that may contain further elements. -/
inductive ItemKind where
  | fn
  | struct
  | union
  | enum
  | trait
  | mod
  | impl
  | foreign
deriving DecidableEq, Repr

/-- A computation with the notices that are still to be placed. -/
abbrev Placing := StateM (List Notice)

namespace Placement

def itemWords : List (String × ItemKind) :=
  [("fn", .fn), ("struct", .struct), ("union", .union), ("enum", .enum), ("trait", .trait),
    ("mod", .mod), ("impl", .impl)]

/-- Words that may stand before the word of an item. -/
def qualifiers : List String :=
  ["pub", "unsafe", "async", "const", "auto", "default"]

/-- The kind of the item that the tokens spell. `foreign` says that `extern` came before. -/
def itemKindAfter (foreign : Bool) : List Token → Option ItemKind
  | [] => none
  | .ident name _ :: rest =>
    match itemWords.lookup name with
    | some kind => some kind
    | none =>
      if name = "extern" then itemKindAfter true rest
      else if qualifiers.contains name then itemKindAfter foreign rest
      else none
  | token :: rest =>
    if token.isBraceGroup && foreign then some .foreign else itemKindAfter foreign rest

def itemKind? (tokens : List Token) : Option ItemKind :=
  itemKindAfter false tokens

/-- The place of the brace group that ends an item. -/
def body? (tokens : List Token) : Option Nat :=
  if tokens.getLast?.any Token.isBraceGroup then some (tokens.length - 1) else none

/-- The place of the field list of a tuple struct: the first parenthesized group after the word
    of the item and outside angle brackets. `nesting` counts the angle brackets that are open, and
    `dash` says that a joint `-` stands before. -/
def tupleFieldsFrom (place : Nat) (seen dash : Bool) (nesting : Int) : List Token → Option Nat
  | [] => none
  | .ident name _ :: rest =>
    tupleFieldsFrom (place + 1) (seen || name == "struct" || name == "union") false nesting rest
  | .punct c joint _ :: rest =>
    let nesting :=
      if c == '<' then nesting + 1 else if c == '>' && !dash then nesting - 1 else nesting
    tupleFieldsFrom (place + 1) seen (c == '-' && joint) nesting rest
  | .group .parenthesis _ _ :: rest =>
    if seen && nesting == 0 then some place
    else tupleFieldsFrom (place + 1) seen false nesting rest
  | _ :: rest => tupleFieldsFrom (place + 1) seen false nesting rest

def tupleFields? (tokens : List Token) : Option Nat :=
  tupleFieldsFrom 0 false false 0 tokens

/-- The place after the name of a variant, past its attributes. -/
def afterVariantName : List Token → Nat
  | .punct '#' _ _ :: _ :: rest => 2 + afterVariantName rest
  | _ => 1

-- ---------------------------------------------------------------------------
-- Descent
-- ---------------------------------------------------------------------------

/-- Change the content of the group at `place`. -/
def inGroup (tokens : List Token) (place : Nat) (change : List Token → Placing (List Token)) :
    Placing (List Token) := do
  match tokens[place]? with
  | some (.group delimiter content span) =>
    return tokens.set place (.group delimiter (← change content) span)
  | _ => return tokens

/-- Place notices inside an item. -/
def item (inner : Member → List Token → Placing (List Token)) (tokens : List Token) :
    Placing (List Token) :=
  match itemKind? tokens, body? tokens with
  | some .struct, some place | some .union, some place => inGroup tokens place (inner .namedField)
  | some .struct, none | some .union, none =>
    match tupleFields? tokens with
    | some place => inGroup tokens place (inner .tupleField)
    | none => return tokens
  | some .enum, some place => inGroup tokens place (inner .variant)
  | some .trait, some place | some .foreign, some place => inGroup tokens place (inner .assocItem)
  | some .fn, some place | some .mod, some place => inGroup tokens place (inner .statement)
  | _, _ => return tokens

/-- Place notices inside a variant. -/
def variant (inner : Member → List Token → Placing (List Token)) (tokens : List Token) :
    Placing (List Token) :=
  let place := afterVariantName tokens
  match tokens[place]? with
  | some (.group .brace _ _) => inGroup tokens place (inner .namedField)
  | some (.group .parenthesis _ _) => inGroup tokens place (inner .tupleField)
  | _ => return tokens

/-- Place notices inside an associated item. -/
def assocItem (inner : Member → List Token → Placing (List Token)) (tokens : List Token) :
    Placing (List Token) :=
  match itemKind? tokens, body? tokens with
  | some .fn, some place => inGroup tokens place (inner .statement)
  | _, _ => return tokens

/-- Place notices inside a member of a body. -/
def descend (inner : Member → List Token → Placing (List Token)) :
    Member → List Token → Placing (List Token)
  | .statement => item inner
  | .variant => variant inner
  | .assocItem => assocItem inner
  | .namedField | .tupleField => pure

/-- The attribute of the next notice, for an element that is not deprecated yet. -/
def nextAttribute (lead : String) (attributes : List String) : Placing (List Token) := do
  if attributes.contains "deprecated" then return []
  match ← get with
  | [] => return []
  | notice :: rest =>
    set rest
    return notice.attributeTokens lead

/-- Place notices at the members of a body, which is written out from `start` on. -/
def attach (lead : String) (descend : List Token → Placing (List Token)) (tokens : List Token) :
    (start : Nat) → List Extent → Placing (List Token)
  | start, [] => return tokens.drop start
  | start, extent :: rest => do
    if (← get).isEmpty then return tokens.drop start
    if extent.isItem then
      let before := (tokens.take extent.start).drop start
      let mark ← nextAttribute lead extent.attributes
      let element := (tokens.take extent.stop).drop extent.start
      let element ← if (← get).isEmpty then pure element else descend element
      return before ++ mark ++ element ++ (← attach lead descend tokens extent.stop rest)
    else attach lead descend tokens start rest

/-- Place notices in a body and in what it contains, at most `depth` groups deep. -/
def place (lead : String) : (depth : Nat) → Member → List Token → Placing (List Token)
  | 0, _, tokens => return tokens
  | depth + 1, kind, tokens =>
    match kind.split tokens with
    | .ok extents => attach lead (descend (place lead depth) kind) tokens 0 extents
    | .error _ => return tokens

end Placement

/-- Attach notices to a block, each with `lead` before its note. -/
def Notice.emit (lead : String) (notices : List Notice) (tokens : List Token) : List Token :=
  if notices.isEmpty then tokens
  else ((Placement.place lead (Token.depths tokens + 1) .statement tokens).run notices).1

end AliasExpansion
