-- SUMMARY: Renaming plain identifiers keeps the form of code, so names can always be substituted.
import AliasExpansion.Proofs.Grammar.Likeness
import AliasExpansion.Proofs.Substitution.Stepwise

/-!
# Renaming

A renaming changes plain names into plain names. Renamed code is alike to the code before, so it is
accepted by the same categories and its members stand at the same places. A substitution of plain
names for plain names leaves code alike to what it was after every single replacement; it never
spoils the form of the code.
-/

namespace AliasExpansion

-- ---------------------------------------------------------------------------
-- Renamed tokens
-- ---------------------------------------------------------------------------

/-- Plain names are changed into plain names, and other names stay. -/
structure Name.IsRenaming (f : String → String) : Prop where
  plain : ∀ name, isPlain name = true → isPlain (f name) = true
  fixed : ∀ name, isPlain name = false → f name = name

namespace Token

mutual

def rename (f : String → String) : Token → Token
  | .ident name span => .ident (f name) span
  | .group delimiter content span => .group delimiter (renameAll f content) span
  | token => token

/-- The tokens with `f` applied to the identifiers at every depth. -/
def renameAll (f : String → String) : List Token → List Token
  | [] => []
  | token :: rest => rename f token :: renameAll f rest

end

mutual

theorem alike_rename {f : String → String} (h : Name.IsRenaming f) (token : Token) :
    token.Alike (rename f token) := by
  match token with
  | .ident name _ =>
    cases plain : Name.isPlain name with
    | false => exact .ident (.inl (h.fixed name plain))
    | true => exact .ident (.inr ⟨plain, h.plain name plain⟩)
  | .punct _ _ _ => exact .punct
  | .literal _ => exact .literal (.inl rfl)
  | .group _ content _ => exact .group (alikeAll_renameAll h content)

theorem alikeAll_renameAll {f : String → String} (h : Name.IsRenaming f) (tokens : List Token) :
    AlikeAll tokens (renameAll f tokens) := by
  match tokens with
  | [] => exact .nil
  | token :: rest => exact .cons (alike_rename h token) (alikeAll_renameAll h rest)

end

end Token

-- ---------------------------------------------------------------------------
-- Substituted names
-- ---------------------------------------------------------------------------

/-- The value is a plain name. -/
def Value.IsPlainName (value : Value) : Prop :=
  ∃ name span, value.tokens = [.ident name span] ∧ Name.isPlain name = true

/-- Plain names stand for plain names. -/
def Substitution.IsRenaming (values : Table String Value) : Prop :=
  ∀ name value, values.find? name = some value → Name.isPlain name = true ∧ value.IsPlainName

theorem Literal.isString_withContent (lit : Literal) (content : String) :
    (lit.withContent content).isString = true := by
  rw [withContent]
  split <;> rfl

namespace Substitution

variable {values : Table String Value}

theorem alike_of_change? (plain : IsRenaming values) {token : Token} {note : Replacement}
    {replacement : List Token} (h : change? values token = some (note, replacement)) :
    Token.AlikeAll [token] replacement := by
  cases token with
  | punct | group => cases h
  | ident name span =>
    obtain ⟨value, hvalue, h⟩ := Option.map_eq_some_iff.mp h
    obtain ⟨plain, name', span', htokens, plain'⟩ := plain name value hvalue
    cases h
    rw [htokens]
    exact .cons (.ident (.inr ⟨plain, plain'⟩)) .nil
  | literal lit =>
    simp only [change?] at h
    split at h
    · split at h
      · split at h
        · next both =>
          have string := (Bool.and_eq_true_iff.mp both).1
          cases h
          exact .cons (.literal (.inr ⟨string, Literal.isString_withContent _ _⟩)) .nil
        · cases h
      · cases h
    · cases h

mutual

theorem alike_rewriteToken (plain : IsRenaming values) (count : Nat) (token : Token) :
    Token.AlikeAll [token] (rewriteToken values count token) := by
  match count, token with
  | count, .group delimiter content span =>
    rw [rewriteToken]
    exact .cons (.group (alike_rewriteFirst plain count content)) .nil
  | 0, .ident _ _ | 0, .punct _ _ _ | 0, .literal _ =>
    rw [rewriteToken_zero]
    exact Token.AlikeAll.refl _
  | count + 1, .ident _ _ | count + 1, .punct _ _ _ | count + 1, .literal _ =>
    simp only [rewriteToken]
    split
    · next h => exact alike_of_change? plain h
    · exact Token.AlikeAll.refl _

/-- Replacing names by names leaves alike tokens. -/
theorem alike_rewriteFirst (plain : IsRenaming values) (count : Nat) (tokens : List Token) :
    Token.AlikeAll tokens (rewriteFirst values count tokens) := by
  match tokens with
  | [] =>
    rw [rewriteFirst_nil]
    exact .nil
  | token :: rest =>
    rw [rewriteFirst]
    exact List.rel_append (alike_rewriteToken plain count token) (alike_rewriteFirst plain _ rest)

end

/-- A substitution of names for names never spoils the form of the code. -/
theorem substitute_ne_substitution (plain : IsRenaming values) {category : Category}
    {tokens : List Token} (accepted : category.accepts tokens = true) (before after : String)
    (reason : SyntaxFault) (span : Option Span) :
    substitute values category tokens ≠ .error (.substitution before after reason span) := by
  intro failed
  rcases substitute_cases values category tokens with ⟨_, _, e, _, _, _, h⟩ | h
  · cases h.symm.trans failed
  · obtain ⟨k, site, reason, -, spoiled, -⟩ := (outcome_eq_error_iff _ _ _).mp (h.symm.trans failed)
    have kept := (Category.accepts_of_alike (alike_rewriteFirst plain (0 + k + 1) tokens)).trans
      accepted
    cases (Category.accepts_iff.mp kept).symm.trans spoiled

end Substitution

/-- Renaming plain identifiers does not change what the recognizer accepts, nor where the members
    of a body stand. Substituting plain names for plain names never spoils the form of a block. -/
theorem recognition_renaming_invariant :
    (∀ f, Name.IsRenaming f → ∀ tokens,
      (∀ category : Category,
        category.accepts (Token.renameAll f tokens) = category.accepts tokens) ∧
      ∀ kind : Member, kind.places (Token.renameAll f tokens) = kind.places tokens) ∧
    ∀ values, Substitution.IsRenaming values → ∀ tokens, Category.block.accepts tokens = true →
      ∀ before after reason span,
        substitute values .block tokens ≠ .error (.substitution before after reason span) := by
  refine ⟨fun f h tokens => ?_, fun values plain tokens accepted => ?_⟩
  · have alike := Token.alikeAll_renameAll h tokens
    exact ⟨fun category => Category.accepts_of_alike alike, fun kind => Member.places_of_alike alike⟩
  · exact Substitution.substitute_ne_substitution plain accepted

/-- The name of a variable is changed, next to a word and to a contextual name. -/
theorem recognition_renaming_invariant_let :
    let f (name : String) : String := if name = "a" then "b" else name
    let values : Table String Value := ⟨[("a", .ofName "b")]⟩
    let code : List Token :=
      [.ident "let" {}, .ident "a" {}, .punct '=' false {}, .ident "union" {},
        .group .parenthesis [.ident "a" {}] {}, .punct ';' false {}]
    (Name.IsRenaming f ∧ Member.statement.places (Token.renameAll f code) = some [(0, 6, false)]) ∧
      Substitution.IsRenaming values ∧ Category.block.accepts code = true ∧
      ∀ before after reason span,
        substitute values .block code ≠ .error (.substitution before after reason span) := by
  intro f values code
  have plain : Name.isPlain "a" = true ∧ Name.isPlain "b" = true := by decide +kernel
  have isRenaming : Name.IsRenaming f := by
    constructor
    · intro name h
      by_cases same : name = "a"
      · rw [show f name = "b" from if_pos same]
        exact plain.2
      · rw [show f name = name from if_neg same]
        exact h
    · intro name h
      refine if_neg fun same => ?_
      rw [same, plain.1] at h
      cases h
  have names : Substitution.IsRenaming values := by
    intro name value hfind
    obtain ⟨entry, hentry, rfl⟩ := Option.map_eq_some_iff.mp hfind
    have key : entry.1 = name := by simpa using List.find?_some hentry
    obtain rfl := List.mem_singleton.mp (List.mem_of_find?_eq_some hentry)
    exact ⟨key ▸ plain.1, "b", {}, rfl, plain.2⟩
  have accepted : Category.block.accepts code = true := by decide +kernel
  have places : Member.statement.places code = some [(0, 6, false)] := by decide +kernel
  refine ⟨⟨isRenaming, ?_⟩, names, accepted, ?_⟩
  · exact ((recognition_renaming_invariant.1 f isRenaming code).2 .statement).trans places
  · exact recognition_renaming_invariant.2 values names code accepted

end AliasExpansion
