-- SUMMARY: How the answer to a lookahead may change when the tokens behind a seam change.
import AliasExpansion.Proofs.Grammar.Runs

/-!
# Lookahead across a seam

Two token lists agree up to a seam and differ behind it. From the text of a lookahead, and from
what is known of the first token behind the seam on either side, `Look.peek` computes how its two
answers may differ. The computation errs on the side of a difference: what it does not allow does
not happen (`Look.peek_sound`).

Two seams matter. Where both lists go on with the same separator or body, no lookahead of the
grammar sees any further. Where an attribute is put before the first word of an item, a lookahead
may see the word in one list only.
-/

namespace AliasExpansion

-- ---------------------------------------------------------------------------
-- Outlooks
-- ---------------------------------------------------------------------------

/-- The pairs of answers that a test may give on two lists. That both fail is always possible. -/
structure Outlook where
  /-- Both may succeed. -/
  stays : Bool
  /-- The old one may succeed alone. -/
  drops : Bool
  /-- The new one may succeed alone. -/
  rises : Bool
deriving DecidableEq, Repr

namespace Outlook

def same : Outlook := ⟨true, false, false⟩

def never : Outlook := ⟨false, false, false⟩

def any : Outlook := ⟨true, true, true⟩

def not (o : Outlook) : Outlook := ⟨true, o.rises, o.drops⟩

def and (o p : Outlook) : Outlook where
  stays := o.stays && p.stays
  drops := o.stays && p.drops || o.drops && (p.stays || p.drops)
  rises := o.stays && p.rises || o.rises && (p.stays || p.rises)

def or (o p : Outlook) : Outlook where
  stays := o.stays || p.stays || o.drops && p.rises || o.rises && p.drops
  drops := o.drops || p.drops
  rises := o.rises || p.rises

def allows (o : Outlook) : (old new : Bool) → Bool
  | true, true => o.stays
  | true, false => o.drops
  | false, true => o.rises
  | false, false => true

/-- The two answers are the same. -/
def settled (o : Outlook) : Bool := !o.drops && !o.rises

variable {o p : Outlook} {old new old' new' : Bool}

theorem allows_same : same.allows old old = true := by
  cases old <;> rfl

theorem allows_any : any.allows old new = true := by
  cases old <;> cases new <;> rfl

theorem allows_not (h : o.allows old new = true) : o.not.allows (!old) (!new) = true := by
  cases old <;> cases new <;> first | rfl | exact h

theorem allows_and (h : o.allows old new = true) (h' : p.allows old' new' = true) :
    (o.and p).allows (old && old') (new && new') = true := by
  cases old <;> cases new <;> cases old' <;> cases new' <;>
    simp_all only [allows, and, Bool.and_self, Bool.and_true, Bool.and_false, Bool.true_or,
      Bool.or_true]

theorem allows_or (h : o.allows old new = true) (h' : p.allows old' new' = true) :
    (o.or p).allows (old || old') (new || new') = true := by
  cases old <;> cases new <;> cases old' <;> cases new' <;>
    simp_all only [allows, or, Bool.and_self, Bool.or_false, Bool.true_or, Bool.or_true]

theorem allows_guard (start : Bool) (h : o.allows old new = true) :
    o.allows (start && old) (start && new) = true := by
  cases start with
  | true => exact h
  | false => rfl

theorem eq_of_settled (h : o.settled = true) (ok : o.allows old new = true) : old = new := by
  obtain ⟨stays, drops, rises⟩ := o
  cases old <;> cases new <;> simp_all [settled, allows]

end Outlook

-- ---------------------------------------------------------------------------
-- Peeking over a seam
-- ---------------------------------------------------------------------------

/-- What is known of the tokens behind a seam: how tests of the first one may differ, and
    whether a function that follows may be gone. -/
structure Seam where
  test : TokenTest → Outlook
  char : Char → Outlook
  fn : Outlook

/-- How the spelling of punctuation from the seam on may differ. -/
def Seam.chars (seam : Seam) : List Char → Outlook
  | [] => .same
  | [c] => seam.char c
  | c :: _ => (seam.char c).and .any

namespace Look

/-- How the answers may differ when `count` tokens stand before the seam. -/
def peek (seam : Seam) (count : Nat) : Look → Outlook
  | .token offset test =>
    if offset < count then .same else if offset = count then seam.test test else .any
  | .mark offset chars =>
    if offset ≤ count then seam.chars (chars.drop (count - offset)) else .any
  | .atEnd | .afterBrace => .same
  | .fn _ => seam.fn
  | .not look => (look.peek seam count).not
  | .and left right => (left.peek seam count).and (right.peek seam count)
  | .or left right => (left.peek seam count).or (right.peek seam count)

/-- A number of tokens, which a lookahead for a function may exceed. -/
def reach : Look → Nat
  | .token offset _ => offset + 1
  | .mark offset chars => offset + chars.length
  | .atEnd | .afterBrace | .fn _ => 0
  | .not look => look.reach
  | .and left right | .or left right => max left.reach right.reach

theorem peek_of_reach {seam : Seam} {count : Nat} {look : Look} (far : look.reach ≤ count) :
    look.peek seam count = look.peek seam look.reach := by
  suffices ∀ {more}, look.reach ≤ more → look.reach ≤ count →
      look.peek seam count = look.peek seam more from this (Nat.le_refl _) far
  clear far
  intro more le far
  induction look with
  | token offset test =>
    simp only [reach] at le far
    simp only [peek, if_pos (show offset < count by omega), if_pos (show offset < more by omega)]
  | mark offset chars =>
    simp only [reach] at le far
    simp only [peek, if_pos (show offset ≤ count by omega), if_pos (show offset ≤ more by omega),
      List.drop_eq_nil_of_le (show chars.length ≤ count - offset by omega),
      List.drop_eq_nil_of_le (show chars.length ≤ more - offset by omega)]
  | atEnd | afterBrace | fn => rfl
  | not look ih => simp only [peek, ih le far]
  | and left right ih₁ ih₂ | or left right ih₁ ih₂ =>
    simp only [reach, Nat.max_le] at le far
    simp only [peek, ih₁ le.1 far.1, ih₂ le.2 far.2]

end Look

/-- The seam describes the two lists of tokens behind it. -/
structure Seam.Fits (seam : Seam) (old new : List Token) : Prop where
  old_ne : old ≠ []
  new_ne : new ≠ []
  test : ∀ test : TokenTest,
    (seam.test test).allows (old[0]?.any test.holds) (new[0]?.any test.holds) = true
  char : ∀ c, (seam.char c).allows (Token.spell [c] old) (Token.spell [c] new) = true
  fn : ∀ before qualifiers, seam.fn.allows (Token.fnFollows qualifiers (before ++ old))
    (Token.fnFollows qualifiers (before ++ new)) = true

namespace Token

theorem spell_cons (c d : Char) (chars : List Char) (tokens : List Token) :
    spell (c :: d :: chars) tokens
      = (spell [c] tokens && tokens[0]?.any isJoint && spell (d :: chars) tokens.tail) := by
  match tokens with
  | [] | .ident _ _ :: _ | .literal _ :: _ | .group _ _ _ :: _ => rfl
  | .punct char joint _ :: rest =>
    simp only [spell, List.getElem?_cons_zero, Option.any_some, isJoint, List.tail_cons]

/-- The first character is spelled by a punctuation token. -/
theorem eq_of_spell {c : Char} {chars : List Char} {tokens : List Token}
    (h : spell (c :: chars) tokens = true) :
    ∃ joint span rest, tokens = .punct c joint span :: rest := by
  cases tokens with
  | nil => cases chars <;> cases h
  | cons token rest =>
    cases token with
    | punct char joint span =>
      have same : char = c := by
        cases chars with
        | nil => exact eq_of_beq h
        | cons => exact eq_of_beq (Bool.and_eq_true_iff.mp (Bool.and_eq_true_iff.mp h).1).1
      exact ⟨joint, span, rest, by rw [same]⟩
    | ident | literal | group => cases chars <;> cases h

/-- Each character of spelled punctuation stands at its place, and all but the last are joint. -/
theorem punct_of_spell {chars : List Char} {tokens : List Token}
    (h : spell chars tokens = true) {place : Nat} {c : Char} (found : chars[place]? = some c) :
    ∃ joint span, tokens[place]? = some (.punct c joint span)
      ∧ (place + 1 < chars.length → joint = true) := by
  induction chars generalizing tokens place with
  | nil => cases found
  | cons d chars ih =>
    obtain ⟨joint, span, rest, rfl⟩ := eq_of_spell h
    match chars, place with
    | _, 0 =>
      cases found
      refine ⟨joint, span, rfl, fun longer => ?_⟩
      obtain ⟨e, chars, rfl⟩ := List.exists_cons_of_length_pos (Nat.lt_of_succ_lt_succ longer)
      rw [spell_cons, Bool.and_eq_true, Bool.and_eq_true] at h
      exact h.1.2
    | [], place + 1 => cases found
    | e :: chars, place + 1 =>
      rw [spell_cons, Bool.and_eq_true] at h
      obtain ⟨joint', span', here, joins⟩ := ih h.2 found
      exact ⟨joint', span', here, fun longer => joins (Nat.lt_of_succ_lt_succ longer)⟩

theorem length_le_of_spell {chars : List Char} {tokens : List Token}
    (h : spell chars tokens = true) : chars.length ≤ tokens.length := by
  cases last : chars.getLast? with
  | none =>
    rw [List.getLast?_eq_none_iff.mp last]
    exact Nat.zero_le _
  | some c =>
    rw [List.getLast?_eq_getElem?] at last
    obtain ⟨_, _, found, -⟩ := punct_of_spell h last
    have := (List.getElem?_eq_some_iff.mp found).1
    omega

/-- Punctuation that goes over the end of a list is spelled in two parts. -/
theorem spell_append (chars : List Char) (before : List Token) :
    ∃ start : Bool, ∀ rest,
      spell chars (before ++ rest) = (start && spell (chars.drop before.length) rest) := by
  induction before generalizing chars with
  | nil =>
    refine ⟨true, fun rest => ?_⟩
    simp only [List.nil_append, List.length_nil, List.drop_zero, Bool.true_and]
  | cons token before ih =>
    match chars with
    | [] => exact ⟨true, fun rest => rfl⟩
    | [c] =>
      refine ⟨spell [c] [token], fun rest => ?_⟩
      have nil : spell ([].drop before.length) rest = true := by rw [List.drop_nil]; rfl
      cases token <;> simp [spell]
    | c :: d :: chars =>
      obtain ⟨start, h⟩ := ih (d :: chars)
      refine ⟨spell [c] [token] && token.isJoint && start, fun rest => ?_⟩
      have head : spell [c] (token :: before ++ rest) = spell [c] [token] := by
        cases token <;> rfl
      rw [spell_cons, head, List.cons_append, List.tail_cons, h rest, List.getElem?_cons_zero,
        Option.any_some, List.length_cons, List.drop_succ_cons, Bool.and_assoc]
      simp only [Bool.and_assoc]

end Token

theorem Seam.Fits.chars {seam : Seam} {old new : List Token} (fits : seam.Fits old new)
    (chars : List Char) :
    (seam.chars chars).allows (Token.spell chars old) (Token.spell chars new) = true := by
  match chars with
  | [] =>
    have empty : ∀ tokens, Token.spell [] tokens = true := fun _ => rfl
    rw [empty, empty]
    rfl
  | [c] => exact fits.char c
  | c :: d :: chars =>
    rw [Token.spell_cons, Token.spell_cons, Bool.and_assoc, Bool.and_assoc]
    exact Outlook.allows_and (fits.char c) Outlook.allows_any

theorem Look.peek_sound {seam : Seam} {old new : List Token} (fits : seam.Fits old new)
    (look : Look) (previous : Option Token) (before : List Token) :
    (look.peek seam before.length).allows (look.holds ⟨previous, before ++ old⟩)
      (look.holds ⟨previous, before ++ new⟩) = true := by
  induction look with
  | token offset test =>
    simp only [peek, holds]
    split
    · next inside =>
      rw [List.getElem?_append_left inside, List.getElem?_append_left inside]
      exact Outlook.allows_same
    · next outside =>
      split
      · next at_seam =>
        rw [List.getElem?_append_right (by omega), List.getElem?_append_right (by omega),
          at_seam, Nat.sub_self]
        exact fits.test test
      · exact Outlook.allows_any
  | mark offset chars =>
    simp only [peek, holds]
    split
    · next inside =>
      rw [List.drop_append_of_le_length inside, List.drop_append_of_le_length inside]
      obtain ⟨start, h⟩ := Token.spell_append chars (before.drop offset)
      rw [h old, h new, List.length_drop]
      exact Outlook.allows_guard start (fits.chars _)
    · exact Outlook.allows_any
  | atEnd =>
    have more : ∀ tokens : List Token, tokens ≠ [] →
        (Cursor.mk previous (before ++ tokens)).atEnd = false := by
      intro tokens ne
      simp [Cursor.atEnd, ne]
    simp only [holds, more old fits.old_ne, more new fits.new_ne]
    rfl
  | afterBrace => exact Outlook.allows_same
  | fn qualifiers => exact fits.fn before qualifiers
  | not look ih => exact Outlook.allows_not ih
  | and left right ih₁ ih₂ => exact Outlook.allows_and ih₁ ih₂
  | or left right ih₁ ih₂ => exact Outlook.allows_or ih₁ ih₂

-- ---------------------------------------------------------------------------
-- Functions that follow
-- ---------------------------------------------------------------------------

namespace Token

/-- The token ends the search for a function. -/
def decidesFn (qualifiers : List String) : Token → Bool
  | .ident name _ => !(qualifiers.contains name)
  | .literal _ => false
  | _ => true

theorem fnFollows_unknown {qualifiers : List String} {name : String} {span : Span}
    (unknown : qualifiers.contains name = false) (rest : List Token) :
    fnFollows qualifiers (.ident name span :: rest) = decide (name = "fn") := by
  unfold fnFollows
  split <;> simp_all

theorem fnFollows_literal {qualifiers : List String} {name : String} {span : Span} {lit : Literal}
    (known : qualifiers.contains name = true) (rest : List Token) :
    fnFollows qualifiers (.ident name span :: .literal lit :: rest)
      = (decide (name = "extern") && fnFollows qualifiers rest) := by
  rw [fnFollows, if_pos known]

/-- Where no literal follows, a qualifier is passed over. -/
theorem fnFollows_known {qualifiers : List String} {name : String} {span : Span}
    {rest : List Token} (known : qualifiers.contains name = true)
    (plain : ∀ lit tail, rest ≠ .literal lit :: tail) :
    fnFollows qualifiers (.ident name span :: rest) = fnFollows qualifiers rest := by
  rw [fnFollows, if_pos known]
  exact plain

/-- What stands behind a token that ends the search does not matter. -/
theorem fnFollows_append {qualifiers : List String} {before : List Token}
    (decided : before.any (decidesFn qualifiers) = true) (old new : List Token) :
    fnFollows qualifiers (before ++ old) = fnFollows qualifiers (before ++ new) := by
  match before with
  | [] => cases decided
  | .literal _ :: _ | .punct _ _ _ :: _ | .group _ _ _ :: _ => rfl
  | .ident name span :: before =>
    cases known : qualifiers.contains name with
    | false =>
      exact (fnFollows_unknown known _).trans (fnFollows_unknown known _).symm
    | true =>
      have decided : before.any (decidesFn qualifiers) = true := by
        simpa only [List.any_cons, decidesFn, known, Bool.not_true, Bool.false_or] using decided
      match before with
      | [] => cases decided
      | .literal lit :: before =>
        simp only [List.cons_append, fnFollows_literal known]
        have decided : before.any (decidesFn qualifiers) = true := decided
        rw [fnFollows_append decided old new]
      | .ident _ _ :: _ | .punct _ _ _ :: _ | .group _ _ _ :: _ =>
        simp only [List.cons_append] at decided ⊢
        rw [fnFollows_known known (by simp), fnFollows_known known (by simp)]
        exact fnFollows_append decided old new

/-- No function follows where punctuation or a group comes before the search has ended. -/
theorem fnFollows_stop {qualifiers : List String} {before : List Token}
    (undecided : before.any (decidesFn qualifiers) = false) {token : Token}
    (stops : ∀ qualifiers, token.decidesFn qualifiers = true) (rest : List Token) :
    fnFollows qualifiers (before ++ token :: rest) = false := by
  have noWord : ∀ name span, token ≠ .ident name span := by
    rintro name span rfl
    simpa [decidesFn] using stops [name]
  have noLiteral : ∀ lit, token ≠ .literal lit := by
    rintro lit rfl
    cases stops []
  match before with
  | [] =>
    cases token with
    | ident name span => exact absurd rfl (noWord name span)
    | literal | punct | group => rfl
  | .literal _ :: _ => rfl
  | .punct _ _ _ :: _ | .group _ _ _ :: _ => cases undecided
  | .ident name span :: before =>
    simp only [List.any_cons, Bool.or_eq_false_iff, decidesFn, Bool.not_eq_false'] at undecided
    obtain ⟨known, undecided⟩ := undecided
    match before with
    | [] =>
      rw [List.cons_append, fnFollows_known known (by simpa using noLiteral)]
      exact fnFollows_stop undecided stops rest
    | .literal lit :: before =>
      have undecided : before.any (decidesFn qualifiers) = false := undecided
      rw [List.cons_append, List.cons_append, fnFollows_literal known,
        fnFollows_stop undecided stops, Bool.and_false]
    | .ident _ _ :: _ | .punct _ _ _ :: _ | .group _ _ _ :: _ =>
      rw [List.cons_append, fnFollows_known known (by simp)]
      exact fnFollows_stop undecided stops rest

end Token

-- ---------------------------------------------------------------------------
-- The two seams
-- ---------------------------------------------------------------------------

/-- A separator or a body, over which no lookahead of the grammar sees. -/
def Token.isBarrier : Token → Bool
  | .punct c _ _ => c == ',' || c == ';'
  | .group .brace _ _ => true
  | _ => false

namespace Seam

/-- The same barrier stands on both sides. -/
def barrier : Seam where
  test
    | .anyIdent | .words _ | .name | .pathSegment | .anyLiteral | .literal _ => .never
    | _ => .same
  char c := if c == ',' || c == ';' then .same else .never
  fn := .same

theorem barrier_fits {token : Token} (isBarrier : token.isBarrier = true) (old new : List Token) :
    barrier.Fits (token :: old) (token :: new) where
  old_ne := List.cons_ne_nil _ _
  new_ne := List.cons_ne_nil _ _
  test test := by
    cases test <;> cases token <;> first | rfl | cases isBarrier | exact Outlook.allows_same
  char c := by
    have first : ∀ rest, Token.spell [c] (token :: rest) = token.isPunct c := by
      intro rest
      cases token <;> rfl
    rw [first, first]
    unfold barrier
    dsimp only
    split
    · exact Outlook.allows_same
    · next other =>
      have never : token.isPunct c = false := by
        cases token with
        | punct char joint span =>
          simp only [Token.isBarrier, Bool.or_eq_true, beq_iff_eq] at isBarrier other
          simp only [Token.isPunct, beq_eq_false_iff_ne]
          rintro rfl
          exact other isBarrier
        | _ => rfl
      rw [never]
      rfl
  fn before qualifiers := by
    have decided : (before ++ [token]).any (Token.decidesFn qualifiers) = true := by
      have : token.decidesFn qualifiers = true := by
        cases token <;> first | rfl | cases isBarrier
      rw [List.any_append, List.any_cons, this, Bool.true_or, Bool.or_true]
    have eq := Token.fnFollows_append decided old new
    rw [List.append_assoc, List.append_assoc] at eq
    rw [show token :: old = [token] ++ old from rfl, show token :: new = [token] ++ new from rfl,
      eq]
    exact Outlook.allows_same

end Seam

/-- The tokens start with an attribute, or with a word that can start an item. -/
inductive Opens : List Token → Prop where
  | mark {joint span content span' rest} :
      Opens (.punct '#' joint span :: .group .bracket content span' :: rest)
  | word {name span rest} (start : name ∉ ["where", "as", "else", "in"]) :
      Opens (.ident name span :: rest)

namespace Seam

/-- An attribute is put in front of the start of an item. -/
def opening : Seam where
  test
    | .expressionStart => .same
    | .anyIdent | .name | .pathSegment => ⟨false, true, false⟩
    | .words words => if words = ["where"] then .never else ⟨false, true, false⟩
    | _ => .never
  char c := if c == '#' then ⟨true, false, true⟩ else .never
  fn := ⟨true, true, false⟩

theorem opening_fits {old : List Token} (opens : Opens old) (joint : Bool) (span : Span)
    (new : List Token) : opening.Fits old (.punct '#' joint span :: new) where
  old_ne := by rintro rfl; cases opens
  new_ne := List.cons_ne_nil _ _
  test test := by
    have lost : ∀ answer, Outlook.allows ⟨false, true, false⟩ answer false = true := by decide
    cases test with
    | expressionStart =>
      cases opens with
      | mark => rfl
      | @word name span rest start =>
        have starts : TokenTest.expressionStart.holds (.ident name span) = true := by
          simpa [TokenTest.holds] using fun h => start (List.mem_cons_of_mem _ h)
        rw [List.getElem?_cons_zero, Option.any_some, starts]
        rfl
    | anyIdent | name | pathSegment => exact lost _
    | words words =>
      unfold opening
      dsimp only
      split
      · next eq =>
        subst eq
        cases opens with
        | mark => rfl
        | @word name span rest start =>
          have other : (TokenTest.words ["where"]).holds (.ident name span) = false := by
            have ne : name ≠ "where" := fun h => start (h ▸ List.mem_cons_self)
            simpa [TokenTest.holds] using ne
          rw [List.getElem?_cons_zero, Option.any_some, other]
          rfl
      · exact lost _
    | _ => cases opens <;> rfl
  char c := by
    unfold opening
    dsimp only
    split
    · next hash =>
      have : Token.spell [c] (.punct '#' joint span :: new) = true := by
        rw [eq_of_beq hash]; rfl
      rw [this]
      cases Token.spell [c] old <;> rfl
    · next other =>
      have hash : ('#' == c) = false := by
        rw [Bool.eq_false_iff, ne_eq, beq_iff_eq, eq_comm, ← beq_iff_eq]
        exact other
      cases opens <;> simp only [Token.spell, hash] <;> rfl
  fn before qualifiers := by
    cases decided : before.any (Token.decidesFn qualifiers) with
    | true =>
      rw [Token.fnFollows_append decided old]
      cases Token.fnFollows qualifiers (before ++ .punct '#' joint span :: new) <;> rfl
    | false =>
      rw [Token.fnFollows_stop decided fun _ => rfl]
      cases Token.fnFollows qualifiers (before ++ old) <;> rfl

end Seam

end AliasExpansion
