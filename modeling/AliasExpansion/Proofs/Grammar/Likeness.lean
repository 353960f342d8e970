-- SUMMARY: Tokens that the grammar cannot tell apart, and the runs that they have in common.
import AliasExpansion.Proofs.Grammar.Budget
import AliasExpansion.Proofs.Grammar.Lookahead
import AliasExpansion.Proofs.Grammar.Members
import Mathlib.Data.List.Forall2

/-!
# Likeness

The grammar looks at an identifier only to ask whether it is one of a few words or usable as a
name, and at a literal only to ask for its kind. Two tokens are alike if no such question tells
them apart: names that are no words of the grammar are alike, and so are two string literals.
Groups are alike if their contents are. Every lookahead answers the same on alike tokens, so a run
over one list is a run over the other (`Rule.Runs.alike`), and members stand at the same places
(`Member.places_of_alike`).
-/

namespace AliasExpansion

-- ---------------------------------------------------------------------------
-- Plain names
-- ---------------------------------------------------------------------------

namespace Name

/-- Names to which the grammar gives a meaning in some places. -/
def contextual : List String :=
  ["union", "auto", "default", "macro_rules"]

/-- The words that the grammar knows. -/
def known : List String :=
  "_" :: contextual ++ keywords

/-- The name is usable as an identifier and has no meaning of its own. -/
def isPlain (name : String) : Bool :=
  isIdentifier name && !contextual.contains name

theorem isIdentifier_of_isPlain {name : String} (h : isPlain name = true) :
    isIdentifier name = true :=
  (Bool.and_eq_true_iff.mp h).1

/-- No word of the grammar is a plain name. -/
theorem not_isPlain_of_known {word : String} (h : word ∈ known) : isPlain word = false := by
  simp only [known, List.cons_append, List.mem_cons, List.mem_append] at h
  rcases h with rfl | h | h
  · decide
  · rw [isPlain, List.contains_iff_mem.mpr h, Bool.not_true, Bool.and_false]
  · have all : keywords.all (!isPlain ·) = true := by decide
    simpa using List.all_eq_true.mp all word h

end Name

-- ---------------------------------------------------------------------------
-- Alike tokens
-- ---------------------------------------------------------------------------

namespace Token

inductive Alike : Token → Token → Prop where
  | ident {name name' span span'}
      (same : name' = name ∨ Name.isPlain name = true ∧ Name.isPlain name' = true) :
      Alike (.ident name span) (.ident name' span')
  | punct {char joint span span'} : Alike (.punct char joint span) (.punct char joint span')
  | literal {lit lit' : Literal}
      (same : lit'.kind = lit.kind ∨ lit.isString = true ∧ lit'.isString = true) :
      Alike (.literal lit) (.literal lit')
  | group {delimiter content content' span span'} (inside : List.Forall₂ Alike content content') :
      Alike (.group delimiter content span) (.group delimiter content' span')

/-- The tokens of two lists are alike one by one. -/
abbrev AlikeAll : List Token → List Token → Prop :=
  List.Forall₂ Alike

mutual

theorem Alike.refl (token : Token) : Alike token token := by
  match token with
  | .ident _ _ => exact .ident (.inl rfl)
  | .punct _ _ _ => exact .punct
  | .literal _ => exact .literal (.inl rfl)
  | .group _ content _ => exact .group (AlikeAll.refl content)

theorem AlikeAll.refl (tokens : List Token) : AlikeAll tokens tokens := by
  match tokens with
  | [] => exact .nil
  | token :: rest => exact .cons (Alike.refl token) (AlikeAll.refl rest)

end

mutual

theorem Alike.symm {token other : Token} (h : Alike token other) : Alike other token := by
  match token, h with
  | .ident _ _, .ident same => exact .ident (same.imp Eq.symm And.symm)
  | .punct _ _ _, .punct => exact .punct
  | .literal _, .literal same => exact .literal (same.imp Eq.symm And.symm)
  | .group _ _ _, .group inside => exact .group (AlikeAll.symm inside)

theorem AlikeAll.symm {tokens others : List Token} (h : AlikeAll tokens others) :
    AlikeAll others tokens := by
  match tokens, h with
  | [], .nil => exact .nil
  | _ :: _, .cons head tail => exact .cons (Alike.symm head) (AlikeAll.symm tail)

end

mutual

theorem Alike.weight_eq {token other : Token} (h : Alike token other) :
    other.weight = token.weight := by
  match token, h with
  | .ident _ _, .ident _ | .punct _ _ _, .punct | .literal _, .literal _ => rfl
  | .group _ _ _, .group inside => rw [weight, weight, AlikeAll.weights_eq inside]

theorem AlikeAll.weights_eq {tokens others : List Token} (h : AlikeAll tokens others) :
    weights others = weights tokens := by
  match tokens, h with
  | [], .nil => rfl
  | _ :: _, .cons head tail => rw [weights, weights, Alike.weight_eq head, AlikeAll.weights_eq tail]

end

theorem Alike.isBraceGroup_eq {token other : Token} (h : Alike token other) :
    other.isBraceGroup = token.isBraceGroup := by
  cases h with
  | @group delimiter => cases delimiter <;> rfl
  | _ => rfl

end Token

-- ---------------------------------------------------------------------------
-- Lookahead
-- ---------------------------------------------------------------------------

/-- The test asks for known words only, and does not tell string literals apart. -/
def TokenTest.isBlunt : TokenTest → Bool
  | .words allowed | .groupHead _ allowed => allowed.all Name.known.contains
  | .literal kinds => kinds.contains .str == kinds.contains .rawStr
  | _ => true

/-- A list of known words holds both of two alike names, or none. -/
theorem contains_eq_of_alike {words : List String} (blunt : words.all Name.known.contains = true)
    {name name' : String}
    (same : name' = name ∨ Name.isPlain name = true ∧ Name.isPlain name' = true) :
    words.contains name' = words.contains name := by
  have unknown : ∀ {name}, Name.isPlain name = true → words.contains name = false := by
    intro name plain
    rw [Bool.eq_false_iff]
    intro member
    have known := List.all_eq_true.mp blunt name (List.contains_iff_mem.mp member)
    rw [Name.not_isPlain_of_known (List.contains_iff_mem.mp known)] at plain
    cases plain
  rcases same with rfl | ⟨plain, plain'⟩
  · rfl
  · rw [unknown plain, unknown plain']

theorem TokenTest.holds_of_alike {test : TokenTest} (blunt : test.isBlunt = true)
    {token other : Token} (h : token.Alike other) : test.holds other = test.holds token := by
  cases h with
  | punct => cases test <;> rfl
  | ident same =>
    have identifier := same.imp (congrArg Name.isIdentifier) fun ⟨plain, plain'⟩ =>
      (Name.isIdentifier_of_isPlain plain').trans (Name.isIdentifier_of_isPlain plain).symm
    have identifier := identifier.elim id id
    cases test with
    | words allowed => exact contains_eq_of_alike blunt same
    | name => exact identifier
    | pathSegment =>
      have paths : Name.pathKeywords.all Name.known.contains = true := by decide
      simp only [holds, Name.isPathSegment, identifier, contains_eq_of_alike paths same]
    | expressionStart =>
      have words : ["as", "else", "in"].all Name.known.contains = true := by decide
      simp only [holds, contains_eq_of_alike words same]
    | _ => rfl
  | @literal lit lit' same =>
    cases test with
    | literal kinds =>
      rcases same with same | ⟨string, string'⟩
      · simp only [holds, same]
      · have both := eq_of_beq blunt
        simp only [Literal.isString, Bool.or_eq_true, beq_iff_eq] at string string'
        simp only [holds]
        rcases string with string | string <;> rcases string' with string' | string' <;>
          rw [string, string'] <;> simp only [both]
    | _ => rfl
  | group inside =>
    cases test with
    | groupHead delimiter allowed =>
      cases inside with
      | nil => rfl
      | cons head tail =>
        cases head with
        | ident same => simp only [holds, contains_eq_of_alike blunt same]
        | _ => rfl
    | _ => rfl

theorem Token.spell_of_alike {chars : List Char} {tokens others : List Token}
    (h : AlikeAll tokens others) : spell chars others = spell chars tokens := by
  induction chars generalizing tokens others with
  | nil => rfl
  | cons c chars ih =>
    cases h with
    | nil => rfl
    | cons head tail =>
      cases head with
      | punct =>
        cases chars with
        | nil => rfl
        | cons d chars => simp only [spell, ih tail]
      | _ => cases chars <;> rfl

theorem Token.fnFollows_of_alike {qualifiers : List String}
    (blunt : qualifiers.all Name.known.contains = true) {tokens others : List Token}
    (h : AlikeAll tokens others) : fnFollows qualifiers others = fnFollows qualifiers tokens := by
  have one : ∀ word {name name'}, Name.known.contains word = true →
      (name' = name ∨ Name.isPlain name = true ∧ Name.isPlain name' = true) →
      decide (name' = word) = decide (name = word) := by
    intro word name name' known same
    have blunt : [word].all Name.known.contains = true := by
      rw [List.all_cons, known, List.all_nil, Bool.true_and]
    simpa using contains_eq_of_alike blunt same
  match tokens, h with
  | [], .nil => rfl
  | _ :: _, .cons .punct _ | _ :: _, .cons (.literal _) _ | _ :: _, .cons (.group _) _ => rfl
  | .ident name span :: rest, .cons (.ident same) tail =>
    have isFn := one "fn" (by decide) same
    have isExtern := one "extern" (by decide) same
    have qualified := contains_eq_of_alike blunt same
    cases known : qualifiers.contains name with
    | false =>
      rw [known] at qualified
      rw [fnFollows_unknown known, fnFollows_unknown qualified, isFn]
    | true =>
      rw [known] at qualified
      match rest, tail with
      | [], .nil =>
        rw [fnFollows_known known (by simp), fnFollows_known qualified (by simp)]
      | .literal lit :: rest, .cons (.literal _) tail =>
        rw [fnFollows_literal known, fnFollows_literal qualified, isExtern,
          fnFollows_of_alike blunt tail]
      | .ident _ _ :: _, .cons (.ident inner) tail =>
        rw [fnFollows_known known (by simp), fnFollows_known qualified (by simp)]
        exact fnFollows_of_alike blunt (.cons (.ident inner) tail)
      | .punct _ _ _ :: _, .cons .punct _ | .group _ _ _ :: _, .cons (.group _) _ =>
        rw [fnFollows_known known (by simp), fnFollows_known qualified (by simp)]
        rfl

/-- Every test in the lookahead is blunt. -/
def Look.isBlunt : Look → Bool
  | .token _ test => test.isBlunt
  | .fn qualifiers => qualifiers.all Name.known.contains
  | .mark _ _ | .atEnd | .afterBrace => true
  | .not look => look.isBlunt
  | .and left right | .or left right => left.isBlunt && right.isBlunt

/-- The tokens ahead are alike, and the grammar sees no difference in what lies behind. -/
structure Cursor.Alike (cursor other : Cursor) : Prop where
  rest : Token.AlikeAll cursor.rest other.rest
  previous : other.previous.any Token.isBraceGroup = cursor.previous.any Token.isBraceGroup

theorem Cursor.Alike.symm {cursor other : Cursor} (h : cursor.Alike other) : other.Alike cursor :=
  ⟨Token.AlikeAll.symm h.rest, h.previous.symm⟩

theorem Cursor.Alike.atEnd_eq {cursor other : Cursor} (h : cursor.Alike other) :
    other.atEnd = cursor.atEnd := by
  obtain ⟨previous, rest⟩ := cursor
  obtain ⟨previous', rest'⟩ := other
  cases h.rest <;> rfl

theorem Cursor.Alike.advance {cursor other : Cursor} (h : cursor.Alike other) (count : Nat) :
    (cursor.advance count).Alike (other.advance count) := by
  induction count generalizing cursor other with
  | zero => exact h
  | succ count ih =>
    obtain ⟨previous, rest⟩ := cursor
    obtain ⟨previous', rest'⟩ := other
    cases h.rest with
    | nil => exact h
    | cons head tail => exact ih ⟨tail, head.isBraceGroup_eq⟩

theorem Look.holds_of_alike {look : Look} (blunt : look.isBlunt = true) {cursor other : Cursor}
    (h : cursor.Alike other) : look.holds other = look.holds cursor := by
  induction look with
  | token offset test =>
    have get := List.forall₂_iff_get.mp h.rest
    simp only [holds]
    by_cases inside : offset < cursor.rest.length
    · have inside' : offset < other.rest.length := get.1 ▸ inside
      rw [List.getElem?_eq_getElem inside, List.getElem?_eq_getElem inside']
      exact TokenTest.holds_of_alike blunt (get.2 offset inside inside')
    · rw [List.getElem?_eq_none (Nat.le_of_not_lt inside),
        List.getElem?_eq_none (get.1 ▸ Nat.le_of_not_lt inside)]
  | mark offset chars => exact Token.spell_of_alike (List.forall₂_drop offset h.rest)
  | atEnd => exact h.atEnd_eq
  | afterBrace => exact h.previous
  | fn qualifiers => exact Token.fnFollows_of_alike blunt h.rest
  | not look ih => simp only [holds, ih blunt]
  | and left right ih₁ ih₂ | or left right ih₁ ih₂ =>
    obtain ⟨bluntLeft, bluntRight⟩ := Bool.and_eq_true_iff.mp blunt
    simp only [holds, ih₁ bluntLeft, ih₂ bluntRight]

-- ---------------------------------------------------------------------------
-- Runs
-- ---------------------------------------------------------------------------

namespace Rule

/-- Every lookahead of the rule is blunt. -/
def isBlunt : Production → Bool
  | .seq first second => first.isBlunt && second.isBlunt
  | .ite look yes no => look.isBlunt && yes.isBlunt && no.isBlunt
  | .within _ inner => inner.isBlunt
  | _ => true

end Rule

theorem Nonterminal.isBlunt_rule (nonterminal : Nonterminal) :
    nonterminal.rule.isBlunt = true := by
  cases nonterminal with
  | binaryTail minPrecedence position =>
    match minPrecedence with
    | 0 | 1 | 2 | 3 | 4 | 5 | 6 | 7 | 8 | 9 | 10 | 11 | n + 12 => rfl
  | path x | pathTail x | pathSegment x | type x | bounds x | unary x | primary x | pathExpr x
  | list x | member x | members x | binary n x => cases x <;> rfl
  | _ => rfl

namespace Rule

variable {budget : Nat} {rule : Production} {cursor final other : Cursor}

/-- A rule runs over alike tokens alike. -/
theorem Runs.alike (run : Runs budget rule cursor final) (blunt : rule.isBlunt = true)
    (h : cursor.Alike other) : ∃ final', Runs budget rule other final' ∧ final.Alike final' := by
  induction run generalizing other with
  | done => exact ⟨other, .done, h⟩
  | skip => exact ⟨_, .skip, h.advance _⟩
  | seq _ _ ih₁ ih₂ =>
    obtain ⟨blunt₁, blunt₂⟩ := Bool.and_eq_true_iff.mp blunt
    obtain ⟨middle', run₁, h₁⟩ := ih₁ blunt₁ h
    obtain ⟨final', run₂, h₂⟩ := ih₂ blunt₂ h₁
    exact ⟨final', .seq run₁ run₂, h₂⟩
  | yes holds _ ih =>
    obtain ⟨both, -⟩ := Bool.and_eq_true_iff.mp blunt
    obtain ⟨bluntLook, bluntYes⟩ := Bool.and_eq_true_iff.mp both
    obtain ⟨final', run, h'⟩ := ih bluntYes h
    exact ⟨final', .yes ((Look.holds_of_alike bluntLook h).trans holds) run, h'⟩
  | no fails _ ih =>
    obtain ⟨both, bluntNo⟩ := Bool.and_eq_true_iff.mp blunt
    obtain ⟨bluntLook, -⟩ := Bool.and_eq_true_iff.mp both
    obtain ⟨final', run, h'⟩ := ih bluntNo h
    exact ⟨final', .no ((Look.holds_of_alike bluntLook h).trans fails) run, h'⟩
  | @call _ nonterminal _ _ _ ih =>
    obtain ⟨final', run, h'⟩ := ih nonterminal.isBlunt_rule h
    exact ⟨final', .call run, h'⟩
  | @within _ delimiter inner cursor content span tail final rest _ ending ih =>
    have ahead := h.rest
    rw [rest] at ahead
    generalize hrest : other.rest = rest' at ahead
    cases ahead with
    | cons head tail =>
      cases head with
      | @group _ _ content' _ span' inside =>
        obtain ⟨final', run, h'⟩ := ih blunt
          (show (Cursor.start content).Alike (.start content') from ⟨inside, rfl⟩)
        have ending' := h'.rest
        rw [ending] at ending'
        exact ⟨_, .within hrest run (List.forall₂_nil_left_iff.mp ending'), h.advance 1⟩

theorem Accepts.alike {tokens others : List Token} (accepts : rule.Accepts tokens)
    (blunt : rule.isBlunt = true) (h : Token.AlikeAll tokens others) : rule.Accepts others := by
  obtain ⟨budget, final, run, ending⟩ := accepts
  obtain ⟨final', run', h'⟩ := run.alike blunt
    (show (Cursor.start tokens).Alike (.start others) from ⟨h, rfl⟩)
  have ending' := h'.rest
  rw [ending] at ending'
  exact ⟨budget, final', run', List.forall₂_nil_left_iff.mp ending'⟩

end Rule

theorem Category.accepts_of_alike {category : Category} {tokens others : List Token}
    (h : Token.AlikeAll tokens others) : category.accepts others = category.accepts tokens := by
  have blunt : category.rule.isBlunt = true := by cases category <;> rfl
  rw [Bool.eq_iff_iff, accepts_iff_accepts, accepts_iff_accepts]
  exact ⟨fun accepts => accepts.alike blunt (Token.AlikeAll.symm h),
    fun accepts => accepts.alike blunt h⟩

-- ---------------------------------------------------------------------------
-- Members
-- ---------------------------------------------------------------------------

/-- Where the member stands, and whether it counts as an item. -/
def Extent.place (extent : Extent) : Nat × Nat × Bool :=
  (extent.start, extent.stop, extent.isItem)

/-- The places of the members of a body, if it can be split. -/
def Member.places (kind : Member) (tokens : List Token) : Option (List (Nat × Nat × Bool)) :=
  (kind.split tokens).toOption.map (·.map Extent.place)

namespace Member

variable {kind : Member} {budget total limit : Nat} {cursor head final other : Cursor}
  {extents : List Extent}

theorem Reads.alike (reads : kind.Reads budget cursor head final) (h : cursor.Alike other) :
    ∃ head' final', kind.Reads budget other head' final' ∧ final.Alike final' ∧
      (kind.extent total other head' final').place = (kind.extent total cursor head final).place := by
  obtain ⟨head', attributes, h₁⟩ := reads.attributes.alike rfl h
  obtain ⟨final', element, h₂⟩ := reads.element.alike rfl h₁
  have left : other.rest ≠ [] := fun ending => by
    have ahead := h.rest
    rw [ending] at ahead
    exact reads.starts.left (List.forall₂_nil_right_iff.mp ahead)
  have plain := fun statement => (Look.holds_of_alike rfl h).trans (reads.starts.plain statement)
  have item : kind.isItem head' = kind.isItem head := by
    have blunt : Grammar.itemStart.isBlunt = true := rfl
    rw [isItem, isItem, Look.holds_of_alike blunt h₁]
  refine ⟨head', final', ⟨⟨left, plain⟩, attributes, element⟩, h₂, ?_⟩
  rw [Extent.place, Extent.place, extent, extent, h.rest.length_eq, h₂.rest.length_eq, item]

theorem Located.alike (located : Located kind budget total limit cursor extents)
    (h : cursor.Alike other) : ∃ extents', Located kind budget total limit other extents' ∧
      extents'.map Extent.place = extents.map Extent.place := by
  induction located generalizing other with
  | ending ending =>
    have ahead := h.rest
    rw [ending] at ahead
    exact ⟨[], .ending (List.forall₂_nil_left_iff.mp ahead), rfl⟩
  | semicolon statement left holds _ ih =>
    have left' : other.rest ≠ [] := fun ending => by
      have ahead := h.rest
      rw [ending] at ahead
      exact left (List.forall₂_nil_right_iff.mp ahead)
    obtain ⟨extents', more, places⟩ := ih (h.advance 1)
    exact ⟨extents', .semicolon statement left' ((Look.holds_of_alike rfl h).trans holds) more, places⟩
  | joined joined reads _ ih =>
    obtain ⟨head', final', reads', h', place⟩ := reads.alike h
    obtain ⟨extents', more, places⟩ := ih h'
    exact ⟨_, .joined joined reads' more, by rw [List.map_cons, List.map_cons, place, places]⟩
  | separated separated reads holds _ ih =>
    obtain ⟨head', final', reads', h', place⟩ := reads.alike h
    obtain ⟨extents', more, places⟩ := ih (h'.advance 1)
    have holds' := (Look.holds_of_alike rfl h').trans holds
    exact ⟨_, .separated separated reads' holds' more,
      by rw [List.map_cons, List.map_cons, place, places]⟩
  | last separated reads fails ending =>
    obtain ⟨head', final', reads', h', place⟩ := reads.alike h
    have fails' := (Look.holds_of_alike rfl h').trans fails
    have ahead := h'.rest
    rw [ending] at ahead
    exact ⟨_, .last separated reads' fails' (List.forall₂_nil_left_iff.mp ahead),
      by rw [List.map_singleton, List.map_singleton, place]⟩

theorem split_of_alike {tokens others : List Token} (h : Token.AlikeAll tokens others)
    (split : kind.split tokens = .ok extents) : ∃ extents', kind.split others = .ok extents' ∧
      extents'.map Extent.place = extents.map Extent.place := by
  have start : (Cursor.start tokens).Alike (.start others) := ⟨h, rfl⟩
  have budget : Grammar.budget others = Grammar.budget tokens := by
    rw [Grammar.budget, Grammar.budget, Token.AlikeAll.weights_eq h]
  obtain ⟨first, attributes, located⟩ := split_eq_ok.mp split
  simp only [split_eq_ok, budget, ← h.length_eq]
  cases inner : kind.hasInnerAttrs with
  | true =>
    rw [inner] at attributes
    obtain ⟨first', attributes', h'⟩ := Rule.Runs.alike attributes rfl start
    obtain ⟨extents', located', places⟩ := located.alike h'
    exact ⟨extents', ⟨first', attributes', located'⟩, places⟩
  | false =>
    rw [inner] at attributes
    obtain rfl : first = .start tokens := attributes
    obtain ⟨extents', located', places⟩ := located.alike start
    exact ⟨extents', ⟨_, rfl, located'⟩, places⟩

/-- Members of alike bodies stand at the same places. -/
theorem places_of_alike {tokens others : List Token} (h : Token.AlikeAll tokens others) :
    kind.places others = kind.places tokens := by
  cases split : kind.split tokens with
  | ok extents =>
    obtain ⟨extents', split', places⟩ := split_of_alike h split
    simp only [Member.places, split, split', Except.toOption, Option.map_some, places]
  | error =>
    cases split' : kind.split others with
    | ok extents' =>
      obtain ⟨extents, split'', -⟩ := split_of_alike (Token.AlikeAll.symm h) split'
      cases split.symm.trans split''
    | error => simp only [Member.places, split, split', Except.toOption]

end Member

end AliasExpansion
