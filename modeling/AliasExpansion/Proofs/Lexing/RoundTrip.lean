-- SUMMARY: Reading what rendering a canonical token sequence writes gives the sequence back.
import AliasExpansion.Proofs.Lexing.Scan

/-!
# The round trip of rendering and reading

A token sequence is canonical if its names and literals stand alone and its glued punctuation
characters are followed by what may be glued to them (`Token.CanonicalAll`). Rendered and read
again, such a sequence is the same up to its spans. The proof goes through the text from left to
right: `Token.Spells cs tail tokens` says that the characters `cs`, with `tail` behind them, are
read as `tokens`.
-/

namespace AliasExpansion.Token

open Lexeme

-- ---------------------------------------------------------------------------
-- Canonical sequences
-- ---------------------------------------------------------------------------

/-- Whether a punctuation character other than a quote may be glued to the token. -/
def takesGlue : Token → Bool
  | .punct .. => true
  | .literal lit => lit.text.toList.head? == some '\''
  | _ => false

/-- What may stand behind a punctuation character: a quote is glued to a name, any other glued one
    to a punctuation character or to a literal that starts with a quote, and no glued slash to a
    slash or star. -/
structure Follows (c : Char) (joint : Bool) (rest : List Token) : Prop where
  quote : c = '\'' → joint = true ∧ ∃ next ∈ rest.head?, next.isName = true
  glued : c ≠ '\'' → joint = true → ∃ next ∈ rest.head?, next.takesGlue = true
  slash : c = '/' → joint = true →
    ∀ next ∈ rest.head?, next.isPunct '/' = false ∧ next.isPunct '*' = false

instance (c : Char) (joint : Bool) (rest : List Token) : Decidable (Follows c joint rest) :=
  decidable_of_iff
    ((c = '\'' → joint = true ∧ ∃ next ∈ rest.head?, next.isName = true)
      ∧ (c ≠ '\'' → joint = true → ∃ next ∈ rest.head?, next.takesGlue = true)
      ∧ (c = '/' → joint = true →
          ∀ next ∈ rest.head?, next.isPunct '/' = false ∧ next.isPunct '*' = false))
    ⟨fun ⟨quote, glued, slash⟩ => ⟨quote, glued, slash⟩, fun h => ⟨h.quote, h.glued, h.slash⟩⟩

/-- What stands behind the token fits it. -/
def FollowedBy : Token → List Token → Prop
  | .punct c joint _, rest => Follows c joint rest
  | _, _ => True

instance : (token : Token) → (rest : List Token) → Decidable (token.FollowedBy rest)
  | .punct c joint _, rest => inferInstanceAs (Decidable (Follows c joint rest))
  | .ident .., _ | .literal _, _ | .group .., _ => isTrue trivial

mutual

def Canonical : Token → Prop
  | .ident name span => StandsAlone (.ident name span)
  | .literal lit => StandsAlone (.literal lit)
  | .punct c _ _ => c ∈ punctChars
  | .group delimiter content _ => delimiter ≠ .none ∧ CanonicalAll content

/-- Every token is canonical, at every depth, and fits what stands behind it. -/
def CanonicalAll : List Token → Prop
  | [] => True
  | token :: rest => token.Canonical ∧ token.FollowedBy rest ∧ CanonicalAll rest

end

mutual

def decCanonical : (token : Token) → Decidable token.Canonical
  | .ident name span => inferInstanceAs (Decidable (StandsAlone (.ident name span)))
  | .literal lit => inferInstanceAs (Decidable (StandsAlone (.literal lit)))
  | .punct c _ _ => inferInstanceAs (Decidable (c ∈ punctChars))
  | .group delimiter content _ =>
    have := decCanonicalAll content
    inferInstanceAs (Decidable (delimiter ≠ .none ∧ CanonicalAll content))

def decCanonicalAll : (tokens : List Token) → Decidable (CanonicalAll tokens)
  | [] => isTrue trivial
  | token :: rest =>
    have := decCanonical token
    have := decCanonicalAll rest
    inferInstanceAs (Decidable (token.Canonical ∧ token.FollowedBy rest ∧ CanonicalAll rest))

end

instance : DecidablePred CanonicalAll := decCanonicalAll

-- ---------------------------------------------------------------------------
-- Spelling
-- ---------------------------------------------------------------------------

/-- The characters `cs`, with `tail` behind them, are read as `tokens`, up to spans. -/
def Spells (cs tail : List Char) (tokens : List Token) : Prop :=
  ∀ span, ∃ span' lexemes tokens',
    (∀ more, scanAfter 0 span' tail = .ok more →
      scanAfter 0 span (cs ++ tail) = .ok (lexemes ++ more))
    ∧ (∀ stack content more, assemble stack content (lexemes ++ more)
      = assemble stack (tokens'.reverse ++ content) more)
    ∧ bareAll tokens' = bareAll tokens

namespace Spells

variable {cs cs' tail : List Char} {tokens tokens' : List Token} {kind : LexemeKind}

theorem nil : Spells [] tail [] :=
  fun span => ⟨span, [], [], fun _ h => h, fun _ _ _ => rfl, rfl⟩

theorem append (h : Spells cs (cs' ++ tail) tokens) (h' : Spells cs' tail tokens') :
    Spells (cs ++ cs') tail (tokens ++ tokens') := by
  intro span
  obtain ⟨span₁, lexemes₁, tokens₁, scan₁, assemble₁, bare₁⟩ := h span
  obtain ⟨span₂, lexemes₂, tokens₂, scan₂, assemble₂, bare₂⟩ := h' span₁
  refine ⟨span₂, lexemes₁ ++ lexemes₂, tokens₁ ++ tokens₂, ?_, ?_, ?_⟩
  · intro more hmore
    rw [List.append_assoc, List.append_assoc]
    exact scan₁ _ (scan₂ more hmore)
  · intro stack content more
    rw [List.append_assoc, assemble₁, assemble₂, List.reverse_append, List.append_assoc]
  · rw [bareAll_append, bareAll_append, bare₁, bare₂]

/-- One lexeme that is no delimiter. -/
theorem lexeme (first : first? (cs ++ tail) = some (kind, cs.length))
    (plain : ∀ delimiter, kind ≠ .opening delimiter ∧ kind ≠ .closing delimiter)
    (spelled : ∀ span, bareAll (Lexeme.tokens (take kind cs.length span (cs ++ tail)))
      = bareAll tokens) : Spells cs tail tokens := by
  intro span
  obtain ⟨span', hscan⟩ := scanAfter_append first span
  refine ⟨span', [take kind cs.length span (cs ++ tail)], _, ?_, ?_, spelled span⟩
  · intro more hmore
    rw [hscan, hmore]
    rfl
  · intro stack content more
    rw [List.singleton_append, assemble_plain plain]

/-- A group: its opening delimiter, its content, and its closing delimiter. -/
theorem group {o c : Char} {delimiter : Delimiter} {content : List Token} {span : Span}
    (opening : ∀ rest, first? (o :: rest) = some (.opening delimiter, 1))
    (closing : ∀ rest, first? (c :: rest) = some (.closing delimiter, 1))
    (h : Spells cs (c :: tail) content) :
    Spells (o :: (cs ++ [c])) tail [.group delimiter content span] := by
  intro start
  obtain ⟨span₁, hopen⟩ : ∃ span₁, scanAfter 0 start ([o] ++ (cs ++ c :: tail)) = _ :=
    scanAfter_append (opening (cs ++ c :: tail)) start
  obtain ⟨span₂, lexemes, inside, hscan, hassemble, hbare⟩ := h span₁
  obtain ⟨span₃, hclose⟩ : ∃ span₃, scanAfter 0 span₂ ([c] ++ tail) = _ :=
    scanAfter_append (closing tail) span₂
  generalize hfirst : take (.opening delimiter) [o].length start ([o] ++ (cs ++ c :: tail)) = first
    at hopen
  generalize hlast : take (.closing delimiter) [c].length span₂ ([c] ++ tail) = last at hclose
  have opens : first.kind = .opening delimiter := hfirst ▸ rfl
  have closes : last.kind = .closing delimiter := hlast ▸ rfl
  refine ⟨span₃, first :: (lexemes ++ [last]), [.group delimiter inside first.span], ?_, ?_, ?_⟩
  · intro more hmore
    have close : scanAfter 0 span₂ (c :: tail) = .ok (last :: more) := by
      rw [← List.singleton_append, hclose, hmore]
      rfl
    have text : o :: (cs ++ [c]) ++ tail = [o] ++ (cs ++ c :: tail) := by simp
    have whole : first :: (lexemes ++ [last]) ++ more = first :: (lexemes ++ last :: more) := by simp
    rw [text, hopen, hscan _ close, whole]
    rfl
  · intro stack content more
    have whole : first :: (lexemes ++ [last]) ++ more = first :: (lexemes ++ last :: more) := by simp
    rw [whole, assemble_opening opens, hassemble, assemble_closing closes,
      List.append_nil, List.reverse_reverse]
    rfl
  · simp only [bareAll, bare, hbare]

/-- A blank stands for nothing. -/
theorem blank (h : ∀ c ∈ tail.head?, Text.isBlank c = false) : Spells [' '] tail [] := by
  have one : run Text.isBlank tail = 0 := by
    cases tail with
    | nil => rfl
    | cons c rest => exact run_cons_of_neg (h c rfl) rest
  have first : first? (' ' :: tail) = some (.blank, 1) := by
    rw [first?_blank (by decide), one]
  exact lexeme first (fun _ => ⟨nofun, nofun⟩) fun _ => rfl

/-- A name or literal, in front of a boundary. -/
theorem atom {token : Token} (h : token.StandsAlone)
    (simple : token.isName = true ∨ token.isLiteral = true) (bounded : Bounded tail) :
    Spells token.render.toList tail [token] := by
  obtain ⟨kind, whole⟩ := h.whole simple
  refine lexeme (first?_append whole.first whole.atom bounded) ?_ fun span => ?_
  · have atom := whole.atom
    intro delimiter
    constructor <;>
    · rintro rfl
      revert atom
      cases delimiter <;> decide
  · rw [take_eq, whole.tokens]
    rfl

/-- A punctuation character other than a quote. -/
theorem punct {c : Char} {joint : Bool} {span : Span} (mem : c ∈ punctChars) (quote : c ≠ '\'')
    (noComment : NoComment (c :: tail))
    (glued : (tail.head?.any punctChars.contains) = joint) :
    Spells [c] tail [.punct c joint span] := by
  have first : first? ([c] ++ tail) = some (.punct, [c].length) := first?_punct mem quote noComment
  refine lexeme first (fun _ => ⟨nofun, nofun⟩) fun start => ?_
  rw [take_eq, glued]
  rfl

/-- A lifetime: a quote and a name glued to it. -/
theorem lifetime {name : String} {span span' : Span} (h : StandsAlone (.ident name span'))
    (bounded : Bounded tail) :
    Spells ('\'' :: name.toList) tail [.punct '\'' true span, .ident name span'] := by
  obtain ⟨kind, whole⟩ := h.whole (.inl rfl)
  have ident := whole.identShape
  have first : first? ('\'' :: name.toList ++ tail) = some (.lifetime, ('\'' :: name.toList).length) :=
    first?_lifetime ident bounded
  refine lexeme first (fun _ => ⟨nofun, nofun⟩) fun start => ?_
  rw [take_eq]
  simp only [Lexeme.tokens, List.drop_one, List.tail_cons, String.ofList_toList, bareAll, bare]

end Spells

-- ---------------------------------------------------------------------------
-- Rendered text
-- ---------------------------------------------------------------------------

theorem toList_renderAfter_cons (joint : Bool) (token : Token) (rest : List Token) :
    (renderAfter joint (token :: rest)).toList
      = (if joint then [] else [' ']) ++ (token.render.toList
          ++ (renderAfter token.isJoint rest).toList) := by
  rw [renderAfter]
  cases joint <;> simp

theorem toList_render_punct (c : Char) (joint : Bool) (span : Span) :
    (render (.punct c joint span)).toList = [c] := by
  rw [render, String.toList_singleton]

theorem toList_render_parenthesis (content : List Token) (span : Span) :
    (render (.group .parenthesis content span)).toList
      = '(' :: ((renderAfter true content).toList ++ [')']) := by
  rw [render]
  · simp [Delimiter.opening, Delimiter.closing]
  · exact nofun

theorem toList_render_bracket (content : List Token) (span : Span) :
    (render (.group .bracket content span)).toList
      = '[' :: ((renderAfter true content).toList ++ [']']) := by
  rw [render]
  · simp [Delimiter.opening, Delimiter.closing]
  · exact nofun

theorem toList_render_brace (content : List Token) (span : Span) :
    (render (.group .brace content span)).toList
      = '\x7b' :: ((if renderAfter true content = "" then [' ']
          else ' ' :: ((renderAfter true content).toList ++ [' '])) ++ ['\x7d']) := by
  rw [render]
  split <;> simp

/-- What follows a token that is not glued stands behind a boundary. -/
theorem bounded_renderAfter {tail : List Char} (h : Bounded tail) (rest : List Token) :
    Bounded ((renderAfter false rest).toList ++ tail) := by
  cases rest with
  | nil => exact h
  | cons token rest =>
    rw [toList_renderAfter_cons]
    exact bounded_cons (by decide) _

/-- A canonical token has a text, and does not start with a blank. -/
theorem Canonical.head {token : Token} (h : token.Canonical) :
    ∃ c cs, token.render.toList = c :: cs ∧ Text.isBlank c = false := by
  have atom : ∀ {token : Token}, token.StandsAlone → (token.isName = true ∨ token.isLiteral = true) →
      ∃ c cs, token.render.toList = c :: cs ∧ Text.isBlank c = false := by
    intro token alone simple
    obtain ⟨kind, whole⟩ := alone.whole simple
    have first := whole.first
    generalize token.render.toList = cs at first
    match cs with
    | [] => exact absurd (first?_positive first) (Nat.lt_irrefl _)
    | c :: cs => exact ⟨c, cs, rfl, not_blank_of_atom first whole.atom⟩
  match token with
  | .ident name span =>
    rw [Canonical] at h
    exact atom h (.inl rfl)
  | .literal lit =>
    rw [Canonical] at h
    exact atom h (.inr rfl)
  | .punct c joint span =>
    rw [Canonical] at h
    have blanks : ∀ c ∈ punctChars, Text.isBlank c = false := none_of_any (by decide +kernel)
    exact ⟨c, [], toList_render_punct c joint span, blanks c h⟩
  | .group delimiter content span =>
    rw [Canonical] at h
    cases delimiter with
    | none => exact absurd rfl h.1
    | parenthesis => exact ⟨'(', _, toList_render_parenthesis content span, by decide⟩
    | bracket => exact ⟨'[', _, toList_render_bracket content span, by decide⟩
    | brace => exact ⟨'\x7b', _, toList_render_brace content span, by decide⟩

/-- The text of a canonical sequence does not start with a blank. -/
theorem CanonicalAll.not_blank {content : List Token} (h : CanonicalAll content)
    (nonempty : renderAfter true content ≠ "") (tail : List Char) :
    ∀ c ∈ ((renderAfter true content).toList ++ tail).head?, Text.isBlank c = false := by
  match content with
  | [] => exact absurd rfl nonempty
  | token :: rest =>
    rw [CanonicalAll] at h
    obtain ⟨c, cs, head, blank⟩ := h.1.head
    rw [toList_renderAfter_cons, head]
    intro c' mem
    cases mem
    exact blank

theorem renderAfter_eq_empty {content : List Token} (h : CanonicalAll content)
    (empty : renderAfter true content = "") : content = [] := by
  match content with
  | [] => rfl
  | token :: rest =>
    rw [CanonicalAll] at h
    obtain ⟨c, cs, head, -⟩ := h.1.head
    have text := congrArg String.toList empty
    rw [toList_renderAfter_cons, head] at text
    cases text

-- ---------------------------------------------------------------------------
-- The round trip
-- ---------------------------------------------------------------------------

/-- The character that a punctuation character is glued to. -/
theorem Follows.head {c : Char} {rest : List Token} (h : Follows c true rest) (quote : c ≠ '\'')
    (canonical : CanonicalAll rest) :
    ∃ c' cs, (renderAfter true rest).toList = c' :: cs ∧ c' ∈ punctChars
      ∧ (c = '/' → c' ≠ '/' ∧ c' ≠ '*') := by
  obtain ⟨next, mem, takes⟩ := h.glued quote rfl
  match rest with
  | next' :: rest' =>
    cases mem
    rw [CanonicalAll] at canonical
    obtain ⟨c', cs, text, -⟩ := canonical.1.head
    rw [toList_renderAfter_cons, text]
    refine ⟨c', _, rfl, ?_⟩
    cases next with
    | punct d joint span =>
      have mem := canonical.1
      rw [Canonical] at mem
      rw [toList_render_punct] at text
      cases text
      refine ⟨mem, fun slash => ?_⟩
      have apart := h.slash slash rfl _ rfl
      simpa [isPunct] using apart
    | literal lit =>
      have opens : lit.text.toList.head? = some '\'' := beq_iff_eq.mp takes
      rw [show lit.text.toList = c' :: cs from text] at opens
      cases opens
      exact ⟨by decide, fun _ => by decide⟩
    | ident | group => cases takes

/-- A punctuation character other than a quote, in front of what follows it. -/
theorem Follows.spells {c : Char} {joint : Bool} {span : Span} {rest : List Token}
    (h : Follows c joint rest) (mem : c ∈ punctChars) (quote : c ≠ '\'')
    (canonical : CanonicalAll rest) {tail : List Char} (bounded : Bounded tail) :
    Spells [c] ((renderAfter joint rest).toList ++ tail) [.punct c joint span] := by
  cases joint with
  | true =>
    obtain ⟨c', cs, text, glued, apart⟩ := h.head quote canonical
    rw [text]
    refine .punct mem quote (noComment_of_head fun slash c'' head => ?_) ?_
    · cases head
      exact apart slash
    · exact List.contains_iff_mem.mpr glued
  | false =>
    have behind := bounded_renderAfter bounded rest
    have free : ∀ c ∈ boundaries, c ∉ punctChars := apart_of_any (by decide)
    refine .punct mem quote (noComment_of_head fun _ c' head => ?_) ?_
    · exact ⟨ne_of_boundary (behind c' head) (by decide), ne_of_boundary (behind c' head) (by decide)⟩
    · rcases behind.cases with nil | ⟨c', boundary, cs, text⟩
      · rw [nil]
        rfl
      · rw [text]
        exact Bool.eq_false_iff.mpr fun contains => free c' boundary (List.contains_iff_mem.mp contains)

mutual

theorem Canonical.spells {token : Token} (h : token.Canonical)
    (noPunct : ∀ c joint span, token ≠ .punct c joint span) {tail : List Char}
    (bounded : Bounded tail) : Spells token.render.toList tail [token] := by
  match token with
  | .ident name span =>
    rw [Canonical] at h
    exact .atom h (.inl rfl) bounded
  | .literal lit =>
    rw [Canonical] at h
    exact .atom h (.inr rfl) bounded
  | .punct c joint span => exact absurd rfl (noPunct c joint span)
  | .group delimiter content span =>
    rw [Canonical] at h
    have inside : ∀ {tail}, Bounded tail → Spells (renderAfter true content).toList tail content :=
      fun bounded => CanonicalAll.spells h.2 true bounded
    have delimiters := fun rest => first?_delimiter rest
    cases delimiter with
    | none => exact absurd rfl h.1
    | parenthesis =>
      rw [toList_render_parenthesis]
      exact .group (fun rest => (delimiters rest).1) (fun rest => (delimiters rest).2.2.2.1)
        (inside (bounded_cons (by decide) _))
    | bracket =>
      rw [toList_render_bracket]
      exact .group (fun rest => (delimiters rest).2.1) (fun rest => (delimiters rest).2.2.2.2.1)
        (inside (bounded_cons (by decide) _))
    | brace =>
      rw [toList_render_brace]
      refine .group (fun rest => (delimiters rest).2.2.1) (fun rest => (delimiters rest).2.2.2.2.2) ?_
      have closing : Spells [' '] ('\x7d' :: tail) [] := .blank fun c mem => by
        cases mem
        decide
      split
      · next empty =>
        rw [renderAfter_eq_empty h.2 empty]
        exact closing
      · next nonempty =>
        have padded := (inside (bounded_cons (by decide) _)).append closing
        rw [List.append_nil] at padded
        have start := h.2.not_blank nonempty ([' '] ++ '\x7d' :: tail)
        rw [← List.append_assoc] at start
        exact Spells.append (.blank start) padded

/-- A canonical sequence is read as itself, in front of a boundary. -/
theorem CanonicalAll.spells {tokens : List Token} (h : CanonicalAll tokens) (joint : Bool)
    {tail : List Char} (bounded : Bounded tail) :
    Spells (renderAfter joint tokens).toList tail tokens := by
  match tokens with
  | [] => exact .nil
  | token :: rest =>
    rw [CanonicalAll] at h
    obtain ⟨canonical, follows, later⟩ := h
    obtain ⟨c, cs, head, blank⟩ := canonical.head
    rw [toList_renderAfter_cons]
    -- the space before the token, if there is one
    rw [← List.nil_append (token :: rest)]
    refine Spells.append ?_ ?_
    · cases joint with
      | true => exact .nil
      | false => exact .blank fun c' mem => by rw [head] at mem; cases mem; exact blank
    -- a quote is read together with the name that it is glued to
    by_cases glued : ∃ span, token = .punct '\'' true span
    · obtain ⟨span, rfl⟩ := glued
      obtain ⟨-, next, mem, isName⟩ := (show Follows '\'' true rest from follows).quote rfl
      match rest, next, mem with
      | .ident name span' :: rest', _, rfl =>
        rw [CanonicalAll] at later
        obtain ⟨alone, -, later⟩ := later
        rw [Canonical] at alone
        rw [toList_renderAfter_cons, toList_render_punct]
        exact (Spells.lifetime alone (bounded_renderAfter bounded rest')).append
          (CanonicalAll.spells later false bounded)
    · by_cases punct : ∃ c joint span, token = .punct c joint span
      · obtain ⟨c, joint, span, rfl⟩ := punct
        rw [Canonical] at canonical
        have follows : Follows c joint rest := follows
        have quote : c ≠ '\'' := by
          rintro rfl
          obtain ⟨rfl, -⟩ := follows.quote rfl
          exact glued ⟨span, rfl⟩
        rw [toList_render_punct]
        exact .append (follows.spells canonical quote later bounded)
          (CanonicalAll.spells later joint bounded)
      · have noPunct : ∀ c joint span, token ≠ .punct c joint span :=
          fun c joint span eq => punct ⟨c, joint, span, eq⟩
        have apart : token.isJoint = false := by
          cases token with
          | punct c joint span => exact absurd rfl (noPunct c joint span)
          | _ => rfl
        rw [apart]
        exact .append (canonical.spells noPunct (bounded_renderAfter bounded rest))
          (CanonicalAll.spells later false bounded)

end

/-- A canonical sequence, rendered and read again, is the same up to its spans. -/
theorem read_renderAll {tokens : List Token} (h : CanonicalAll tokens) :
    ∃ tokens', read (renderAll tokens) = .ok tokens' ∧ bareAll tokens' = bareAll tokens := by
  obtain ⟨span, lexemes, tokens', hscan, hassemble, same⟩ := h.spells true bounded_nil {}
  have scanned : scan (renderAll tokens) = .ok lexemes := by
    have whole := hscan [] (by rw [scanAfter])
    rwa [List.append_nil, List.append_nil] at whole
  have assembled : ofLexemes lexemes = .ok tokens' := by
    have whole := hassemble [] [] []
    rw [List.append_nil, List.append_nil, assemble, List.reverse_reverse] at whole
    exact whole
  refine ⟨tokens', ?_, same⟩
  rw [read, scanned, Outcome.ok_bind, assembled]

/-- The round trip of `&'a [- 1.5, 'c']`, whose quotes and joint characters all matter. -/
theorem read_renderAll_lifetime :
    CanonicalAll [.punct '&' true {}, .punct '\'' true {}, .ident "a" {},
        .group .bracket [.punct '-' false {}, .literal { kind := .float, text := "1.5" },
          .punct ',' true {}, .literal { kind := .char, text := "'c'" }] {}]
      ∧ ∃ tokens', read "&'a [- 1.5 ,'c']" = .ok tokens'
          ∧ bareAll tokens' = bareAll [.punct '&' true {}, .punct '\'' true {}, .ident "a" {},
            .group .bracket [.punct '-' false {}, .literal { kind := .float, text := "1.5" },
              .punct ',' true {}, .literal { kind := .char, text := "'c'" }] {}] :=
  have canonical : CanonicalAll [.punct '&' true {}, .punct '\'' true {}, .ident "a" {},
      .group .bracket [.punct '-' false {}, .literal { kind := .float, text := "1.5" },
        .punct ',' true {}, .literal { kind := .char, text := "'c'" }] {}] := by
    decide +kernel
  ⟨canonical, read_renderAll canonical⟩

end AliasExpansion.Token
