-- SUMMARY: Deprecation notices and the attribute that carries one.
import AliasExpansion.Token.Literal

/-!
# Notices

A notice says that an invocation uses a legacy spelling. Notices are collected while an
invocation is read; `Notice/Placement` attaches them to the generated code as attributes.
-/

namespace AliasExpansion

structure Notice where
  note : String
  since : Option String
deriving DecidableEq, Repr

namespace Notice

/-- What stands before every note unless the settings say otherwise. -/
def defaultLead : String := "compose_idents!: "

/-- The two tokens of `#[deprecated(since = "…", note = "…")]`, with `lead` before the note. -/
def attributeTokens (lead : String) (notice : Notice) : List Token :=
  let text (content : String) : Token := .literal (Literal.ofContent content)
  let since :=
    match notice.since with
    | some version => [.ident "since" {}, .punct '=' false {}, text version, .punct ',' false {}]
    | none => []
  let arguments := since ++ [.ident "note" {}, .punct '=' false {}, text (lead ++ notice.note)]
  [.punct '#' false {},
    .group .bracket [.ident "deprecated" {}, .group .parenthesis arguments {}] {}]

/-- Add a notice unless it is there already. -/
def insert (notice : Notice) (notices : List Notice) : List Notice :=
  if notice ∈ notices then notices else notices ++ [notice]

/-- Square brackets around the arguments of a concatenation. -/
def bracketSyntax : Notice where
  note := "Bracket-based syntax is deprecated, use concat(...) instead"
  since := some "0.2.0"

/-- Semicolons between aliases. -/
def semicolonSeparator : Notice where
  note := "Using semicolons as separators is deprecated, use commas instead"
  since := some "0.0.5"

end Notice

end AliasExpansion
