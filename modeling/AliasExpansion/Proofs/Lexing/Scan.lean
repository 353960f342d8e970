-- SUMMARY: The lexemes of a source spell it, and assembling them keeps their atoms in order.
import AliasExpansion.Proofs.Lexing.First
import AliasExpansion.Proofs.Outcome
import AliasExpansion.Proofs.Token.Atoms
import AliasExpansion.Token.Render
import AliasExpansion.Token.Tree

/-!
# Scanning and assembling

The lexemes of a source spell it (`Lexeme.scanAfter_spells`), and assembling them keeps the
sequence of their atoms (`Token.assemble_atoms`). So when a name or literal is all that a source
holds, the source is one lexeme (`Token.StandsAlone.whole`).
-/

namespace AliasExpansion

-- ---------------------------------------------------------------------------
-- Scanning
-- ---------------------------------------------------------------------------

namespace Lexeme

variable {cs tail : List Char} {kind : LexemeKind} {skip length : Nat} {span : Span}
  {lexemes : List Lexeme}

theorem scanAfter_cons {c : Char} {rest : List Char} (first : first? (c :: rest) = some (kind, length)) :
    scanAfter 0 span (c :: rest)
      = (take kind length span (c :: rest) :: ·) <$>
          scanAfter (length - 1) (span.advance c) rest := by
  rw [scanAfter, first]
  dsimp only
  cases scanAfter (length - 1) (span.advance c) rest <;> rfl

/-- The lexemes of a source are none of them empty, and spell it. -/
theorem scanAfter_spells (h : scanAfter skip span cs = .ok lexemes) :
    lexemes.flatMap Lexeme.text = cs.drop skip ∧ ∀ lexeme ∈ lexemes, lexeme.text ≠ [] := by
  induction cs generalizing skip span lexemes with
  | nil =>
    rw [scanAfter] at h
    cases h
    exact ⟨by rw [List.drop_nil]; rfl, nofun⟩
  | cons c rest ih =>
    match skip with
    | skip + 1 =>
      rw [scanAfter] at h
      exact ih h
    | 0 =>
      cases first : first? (c :: rest) with
      | none =>
        rw [scanAfter, first] at h
        cases h
      | some entry =>
        obtain ⟨kind, length⟩ := entry
        rw [scanAfter_cons first] at h
        cases later : scanAfter (length - 1) (span.advance c) rest with
        | error e => rw [later] at h; cases h
        | ok others =>
          rw [later] at h
          cases h
          obtain ⟨spells, ne⟩ := ih later
          obtain ⟨length, rfl⟩ : ∃ k, length = k + 1 :=
            ⟨length - 1, (Nat.sub_add_cancel (first?_positive first)).symm⟩
          constructor
          · rw [List.flatMap_cons, spells, take, List.take_succ_cons, Nat.add_sub_cancel,
              List.cons_append, List.take_append_drop, List.drop_zero]
          · rw [List.forall_mem_cons]
            exact ⟨by rw [take, List.take_succ_cons]; exact List.cons_ne_nil _ _, ne⟩

/-- Every lexeme was the first one at some place. -/
theorem first?_of_mem_scanAfter (h : scanAfter skip span cs = .ok lexemes) :
    ∀ lexeme ∈ lexemes,
      ∃ cs n, first? cs = some (lexeme.kind, n) ∧ lexeme.text = cs.take n := by
  induction cs generalizing skip span lexemes with
  | nil =>
    rw [scanAfter] at h
    cases h
    nofun
  | cons c rest ih =>
    match skip with
    | skip + 1 =>
      rw [scanAfter] at h
      exact ih h
    | 0 =>
      cases first : first? (c :: rest) with
      | none =>
        rw [scanAfter, first] at h
        cases h
      | some entry =>
        rw [scanAfter_cons first] at h
        cases later : scanAfter (entry.2 - 1) (span.advance c) rest with
        | error e => rw [later] at h; cases h
        | ok others =>
          rw [later] at h
          cases h
          rw [List.forall_mem_cons]
          exact ⟨⟨c :: rest, entry.2, first, rfl⟩, ih later⟩

/-- Characters of a lexeme already taken are passed over. -/
theorem scanAfter_skip (skipped tail : List Char) (span : Span) :
    scanAfter skipped.length span (skipped ++ tail)
      = scanAfter 0 (skipped.foldl Span.advance span) tail := by
  induction skipped generalizing span with
  | nil => rfl
  | cons c skipped ih =>
    rw [List.length_cons, List.cons_append, scanAfter, ih, List.foldl_cons]

/-- The scan of a lexeme and what is behind it. -/
theorem scanAfter_lexeme (first : first? (cs ++ tail) = some (kind, cs.length)) (span : Span) :
    scanAfter 0 span (cs ++ tail)
      = (take kind cs.length span (cs ++ tail) :: ·) <$>
          scanAfter 0 (cs.foldl Span.advance span) tail := by
  match cs with
  | [] => exact absurd (first?_positive first) (Nat.lt_irrefl _)
  | c :: rest =>
    rw [List.cons_append] at first ⊢
    rw [scanAfter_cons first, List.length_cons, Nat.add_sub_cancel, scanAfter_skip, List.foldl_cons]

theorem scanAfter_append (first : first? (cs ++ tail) = some (kind, cs.length)) (span : Span) :
    ∃ span', scanAfter 0 span (cs ++ tail)
      = (take kind cs.length span (cs ++ tail) :: ·) <$> scanAfter 0 span' tail :=
  ⟨_, scanAfter_lexeme first span⟩

theorem take_eq (kind : LexemeKind) (span : Span) (cs tail : List Char) :
    take kind cs.length span (cs ++ tail)
      = ⟨kind, cs, span, (kind == .punct || kind == .lifetime)
          && tail.head?.any punctChars.contains⟩ := by
  rw [take, List.take_left, List.getElem?_append_right (Nat.le_refl _), Nat.sub_self,
    List.head?_eq_getElem?]

end Lexeme

-- ---------------------------------------------------------------------------
-- Assembling
-- ---------------------------------------------------------------------------

namespace Token

section

variable {lexeme : Lexeme} {rest : List Lexeme} {stack : List OpenGroup} {content : List Token}
  {delimiter : Delimiter}

theorem assemble_opening (kind : lexeme.kind = .opening delimiter) :
    assemble stack content (lexeme :: rest)
      = assemble (⟨delimiter, lexeme.span, content⟩ :: stack) [] rest := by
  rw [assemble, kind]

theorem assemble_closing (kind : lexeme.kind = .closing delimiter) {span : Span}
    {before : List Token} :
    assemble (⟨delimiter, span, before⟩ :: stack) content (lexeme :: rest)
      = assemble stack (.group delimiter content.reverse span :: before) rest := by
  rw [assemble, kind]
  exact if_pos rfl

theorem assemble_plain
    (plain : ∀ delimiter, lexeme.kind ≠ .opening delimiter ∧ lexeme.kind ≠ .closing delimiter) :
    assemble stack content (lexeme :: rest)
      = assemble stack (lexeme.tokens.reverse ++ content) rest := by
  rw [assemble]
  split
  · next delimiter kind => exact absurd kind (plain delimiter).1
  · next delimiter kind => exact absurd kind (plain delimiter).2
  · rfl

end

/-- The atoms before the innermost of the open groups. -/
def stackAtoms : List OpenGroup → List Token
  | [] => []
  | opened :: stack => stackAtoms stack ++ atomsAll opened.before.reverse

theorem assemble_atoms {stack : List OpenGroup} {content out : List Token} {lexemes : List Lexeme}
    (h : assemble stack content lexemes = .ok out) :
    atomsAll out = stackAtoms stack ++ atomsAll content.reverse
      ++ lexemes.flatMap fun lexeme => atomsAll lexeme.tokens := by
  induction lexemes generalizing stack content with
  | nil =>
    match stack with
    | [] =>
      cases h
      simp [stackAtoms]
    | _ :: _ => cases h
  | cons lexeme rest ih =>
    rw [assemble.eq_def] at h
    dsimp only at h
    split at h
    · next delimiter kind =>
      rw [ih h]
      simp [stackAtoms, Lexeme.tokens, kind]
    · next delimiter kind =>
      split at h
      · next opened stack =>
        split at h
        · rw [ih h]
          simp [stackAtoms, Lexeme.tokens, kind, atomsAll, atoms]
        · cases h
      · cases h
    · rw [ih h]
      simp

-- ---------------------------------------------------------------------------
-- Texts that are one lexeme
-- ---------------------------------------------------------------------------

/-- The text of the token is read as just this token. -/
def StandsAlone (token : Token) : Prop :=
  ∃ token', read token.render = .ok [token'] ∧ token'.bare = token.bare

instance (token : Token) : Decidable token.StandsAlone :=
  decidable_of_iff ((read token.render).toOption.map (List.map bare) = some [token.bare]) <| by
    cases hread : read token.render with
    | error e => exact ⟨nofun, fun ⟨_, h, _⟩ => nomatch hread.symm.trans h⟩
    | ok tokens =>
      constructor
      · intro h
        match tokens with
        | [token'] => exact ⟨token', hread, (List.cons.inj (Option.some.inj h)).1⟩
        | [] => cases h
        | _ :: _ :: _ => exact nomatch (List.cons.inj (Option.some.inj h)).2
      · rintro ⟨token', h, same⟩
        cases hread.symm.trans h
        exact congrArg (fun token => some [token]) same

def isName : Token → Bool
  | .ident .. => true
  | _ => false

def isLiteral : Token → Bool
  | .literal _ => true
  | _ => false

end Token

/-- A text that is one lexeme, of a kind that stands for a given token. -/
structure Lexeme.Whole (token : Token) (kind : LexemeKind) (cs : List Char) : Prop where
  first : Lexeme.first? cs = some (kind, cs.length)
  atom : kind ∈ Lexeme.atomKinds
  tokens : ∀ span joint, Token.bareAll (Lexeme.tokens ⟨kind, cs, span, joint⟩) = [token.bare]

namespace Lexeme

/-- The text of a name has the shape of an identifier. -/
theorem Whole.identShape {name : String} {span : Span} {kind : LexemeKind} {cs : List Char}
    (h : Whole (.ident name span) kind cs) : identShape cs = some cs.length := by
  have shape := atomShape_of_first? h.first h.atom
  have tokens := h.tokens {} false
  have atom := h.atom
  simp only [atomKinds, List.mem_cons, List.not_mem_nil, or_false] at atom
  rcases atom with rfl | rfl | rfl | rfl | rfl | rfl
  · cases tokens
  · cases tokens
  · cases tokens
  · cases tokens
  · cases tokens
  · exact shape

variable {lexeme : Lexeme} {token token' : Token}

/-- The lexeme that one name or literal comes from. -/
theorem tokens_of_atom (atoms : Token.atomsAll lexeme.tokens = [token])
    (simple : token.isName = true ∨ token.isLiteral = true) :
    lexeme.kind ∈ atomKinds ∧ lexeme.text = token.render.toList
      ∧ ∀ span joint, Token.bareAll (tokens ⟨lexeme.kind, lexeme.text, span, joint⟩) = [token.bare] := by
  obtain ⟨kind, text, span, joint⟩ := lexeme
  cases kind with
  | ident | int | float | char | string | rawString =>
    simp only [tokens, literal, Token.atomsAll, Token.atoms, List.append_nil, List.cons.injEq,
      and_true] at atoms
    subst atoms
    refine ⟨by simp [atomKinds], (String.toList_ofList).symm, fun span joint => ?_⟩
    simp only [tokens, literal, Token.bareAll, Token.bare]
  | comment | blank | opening | closing =>
    simp only [tokens, Token.atomsAll] at atoms
    cases atoms
  | punct =>
    cases text with
    | nil => cases atoms
    | cons c =>
      cases atoms
      rcases simple with h | h <;> cases h
  | lifetime | outerDoc | innerDoc =>
    simp only [tokens, Token.docGroup, Token.atomsAll, Token.atoms] at atoms
    cases atoms

end Lexeme

namespace Token

variable {token : Token}

/-- What a name or literal shares with one that differs in its span. -/
theorem alike_of_bare {token' : Token} (same : token'.bare = token.bare)
    (simple : token.isName = true ∨ token.isLiteral = true) :
    (token'.isName = true ∨ token'.isLiteral = true) ∧ token'.render = token.render
      ∧ token'.atoms = [token'] := by
  cases token with
  | ident =>
    cases token' with
    | ident => cases same; exact ⟨.inl rfl, rfl, rfl⟩
    | _ => cases same
  | literal lit =>
    cases token' with
    | literal lit' =>
      have text : lit'.text = lit.text := (Literal.mk.inj (Token.literal.inj same)).2.1
      exact ⟨.inr rfl, text, rfl⟩
    | _ => cases same
  | punct | group => rcases simple with h | h <;> cases h

end Token

namespace Lexeme

/-- Names and literals take no more characters than there are. -/
theorem atomShape_within {kind : LexemeKind} (atom : kind ∈ atomKinds) :
    (atomShape kind).Within := by
  simp only [atomKinds, List.mem_cons, List.not_mem_nil, or_false] at atom
  rcases atom with rfl | rfl | rfl | rfl | rfl | rfl
  · exact afterByteMark_within rawStringShape_within
  · exact afterByteMark_within stringShape_within
  · exact afterByteMark_within charShape_within
  · exact floatShape_local.within
  · exact intShape_local.within
  · exact identShape_local.within

/-- A list of lexemes with the text of one of them has no other. -/
theorem eq_singleton_of_text {lexemes : List Lexeme} {lexeme : Lexeme} (mem : lexeme ∈ lexemes)
    (ne : ∀ lexeme ∈ lexemes, lexeme.text ≠ [])
    (spells : lexemes.flatMap Lexeme.text = lexeme.text) : lexemes = [lexeme] := by
  have empty : ∀ {others : List Lexeme}, (∀ lexeme ∈ others, lexeme.text ≠ []) →
      others.flatMap Lexeme.text = [] → others = [] := by
    intro others ne spells
    cases others with
    | nil => rfl
    | cons other others =>
      rw [List.flatMap_cons, List.append_eq_nil_iff] at spells
      exact absurd spells.1 (ne other List.mem_cons_self)
  obtain ⟨before, after, rfl⟩ := List.append_of_mem mem
  rw [List.flatMap_append, List.flatMap_cons] at spells
  have length := congrArg List.length spells
  rw [List.length_append, List.length_append] at length
  have hbefore : before = [] := by
    refine empty (fun other mem => ne other (List.mem_append_left _ mem)) ?_
    exact List.length_eq_zero_iff.mp (by omega)
  have hafter : after = [] := by
    refine empty (fun other mem =>
      ne other (List.mem_append_right _ (List.mem_cons_of_mem _ mem))) ?_
    exact List.length_eq_zero_iff.mp (by omega)
  rw [hbefore, hafter, List.nil_append]

end Lexeme

namespace Token

variable {token : Token}

theorem eq_singleton_of_flatMap {α β : Type} {f : α → List β} {items : List α} {b : β}
    (h : items.flatMap f = [b]) : ∃ item ∈ items, f item = [b] := by
  induction items with
  | nil => cases h
  | cons item items ih =>
    rw [List.flatMap_cons] at h
    rcases List.append_eq_singleton_iff.mp h with ⟨-, later⟩ | ⟨first, -⟩
    · obtain ⟨item', mem, eq⟩ := ih later
      exact ⟨item', List.mem_cons_of_mem _ mem, eq⟩
    · exact ⟨item, List.mem_cons_self, first⟩

/-- A name or literal that stands alone is one lexeme. -/
theorem StandsAlone.whole (h : token.StandsAlone)
    (simple : token.isName = true ∨ token.isLiteral = true) :
    ∃ kind, Lexeme.Whole token kind token.render.toList := by
  obtain ⟨token', hread, same⟩ := h
  obtain ⟨simple', render, atomic⟩ := alike_of_bare same simple
  obtain ⟨lexemes, hscan, hassemble⟩ := Outcome.bind_eq_ok.mp hread
  have atoms := assemble_atoms hassemble
  rw [atomsAll, atomic, atomsAll] at atoms
  obtain ⟨lexeme, mem, hatoms⟩ := eq_singleton_of_flatMap atoms.symm
  obtain ⟨atom, text, tokens⟩ := Lexeme.tokens_of_atom hatoms simple'
  obtain ⟨spells, ne⟩ := Lexeme.scanAfter_spells hscan
  rw [render] at text
  rw [List.drop_zero, ← text] at spells
  obtain rfl := Lexeme.eq_singleton_of_text mem ne spells
  rw [Lexeme.scan, ← text] at hscan
  rw [← text]
  have nonempty := ne lexeme List.mem_cons_self
  generalize hcs : lexeme.text = cs at hscan nonempty tokens
  cases cs with
  | nil => exact absurd rfl nonempty
  | cons c rest =>
    cases first : Lexeme.first? (c :: rest) with
    | none =>
      rw [Lexeme.scanAfter, first] at hscan
      cases hscan
    | some entry =>
      obtain ⟨kind, length⟩ := entry
      rw [Lexeme.scanAfter_cons first] at hscan
      cases later : Lexeme.scanAfter (length - 1) (Span.advance {} c) rest with
      | error e => rw [later] at hscan; cases hscan
      | ok others =>
        rw [later] at hscan
        obtain ⟨rfl, -⟩ := List.cons.inj (Except.ok.inj hscan)
        -- the lexeme takes the whole text, and no shape takes more than there is
        have taken : (c :: rest).take length = c :: rest := hcs
        have le : (c :: rest).length ≤ length := by
          have := congrArg List.length taken
          rw [List.length_take] at this
          omega
        have ge := Lexeme.atomShape_within atom _ _ (Lexeme.atomShape_of_first? first atom)
        obtain rfl := Nat.le_antisymm ge le
        exact ⟨kind, first, atom, fun span joint => (tokens span joint).trans (by rw [same])⟩

end Token

end AliasExpansion
