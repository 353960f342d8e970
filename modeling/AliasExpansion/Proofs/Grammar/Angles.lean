-- SUMMARY: Types and generic parameters have balanced angle brackets.
import AliasExpansion.Proofs.Grammar.Lookahead

/-!
# Angle brackets

Angle brackets are punctuation, so nothing but the grammar says that they are balanced.
`Angled depth tokens depth'` says that the tokens lead from one nesting depth to another without
closing a bracket that is not open, where the head of an arrow closes nothing. From the text of a
rule `Rule.nests` computes how deep a run of it ends, and `Runs.angled` shows that this is so: a
rule takes punctuation only where it has looked at it.
-/

namespace AliasExpansion

-- ---------------------------------------------------------------------------
-- Nesting depth
-- ---------------------------------------------------------------------------

namespace Token

/-- The token has no part in angle brackets and arrows. -/
def isFlat : Token → Bool
  | .punct c _ _ => c != '<' && c != '>' && c != '-'
  | _ => true

/-- The tokens lead from one nesting depth to another. -/
inductive Angled : Nat → List Token → Nat → Prop where
  | nil {depth} : Angled depth [] depth
  | flat {depth token rest final} (isFlat : token.isFlat = true) (more : Angled depth rest final) :
      Angled depth (token :: rest) final
  | opens {depth joint span rest final} (more : Angled (depth + 1) rest final) :
      Angled depth (.punct '<' joint span :: rest) final
  | closes {depth joint span rest final} (more : Angled depth rest final) :
      Angled (depth + 1) (.punct '>' joint span :: rest) final
  | arrow {depth span joint span' rest final} (more : Angled depth rest final) :
      Angled depth (.punct '-' true span :: .punct '>' joint span' :: rest) final
  | minus {depth joint span token rest final} (isFlat : token.isFlat = true)
      (more : Angled depth rest final) :
      Angled depth (.punct '-' joint span :: token :: rest) final

variable {depth middle final : Nat} {tokens before after : List Token}

theorem Angled.append (h : Angled depth before middle) (h' : Angled middle after final) :
    Angled depth (before ++ after) final := by
  induction h with
  | nil => exact h'
  | flat isFlat _ ih => exact .flat isFlat (ih h')
  | opens _ ih => exact .opens (ih h')
  | closes _ ih => exact .closes (ih h')
  | arrow _ ih => exact .arrow (ih h')
  | minus isFlat _ ih => exact .minus isFlat (ih h')

theorem Angled.raise (h : Angled depth tokens final) (count : Nat) :
    Angled (depth + count) tokens (final + count) := by
  induction h with
  | nil => exact .nil
  | flat isFlat _ ih => exact .flat isFlat ih
  | opens _ ih => exact .opens (by rwa [Nat.add_right_comm] at ih)
  | closes _ ih => exact Nat.add_right_comm _ 1 count ▸ .closes ih
  | arrow _ ih => exact .arrow ih
  | minus isFlat _ ih => exact .minus isFlat ih

end Token

-- ---------------------------------------------------------------------------
-- What a lookahead sees
-- ---------------------------------------------------------------------------

/-- What is known of a token. -/
inductive Bracket where
  | flat
  | opens
  | closes
  | dash
  /-- A dash that is joined to what follows. -/
  | jointDash
  | unknown
deriving DecidableEq, Repr

namespace Bracket

/-- The token is there and is what is known of it. -/
def Fits : Bracket → Option Token → Prop
  | .flat, some token => token.isFlat = true
  | .opens, some (.punct c _ _) => c = '<'
  | .closes, some (.punct c _ _) => c = '>'
  | .dash, some (.punct c _ _) => c = '-'
  | .jointDash, some (.punct c joint _) => c = '-' ∧ joint = true
  | .unknown, _ => True
  | _, _ => False

def ofChar (joint : Bool) (c : Char) : Bracket :=
  if c = '<' then .opens
  else if c = '>' then .closes
  else if c = '-' then if joint then .jointDash else .dash
  else .flat

/-- What is known of the token at `offset` of joint punctuation. -/
def ofChars : List Char → (offset : Nat) → Bracket
  | c :: rest, 0 => ofChar (!rest.isEmpty) c
  | _ :: rest, offset + 1 => ofChars rest offset
  | [], _ => .unknown

/-- Nothing is known of the tokens ahead. -/
def unseen (_ : Nat) : Bracket := .unknown

theorem unseen_fits (tokens : List Token) (offset : Nat) :
    (unseen offset).Fits tokens[offset]? :=
  trivial

end Bracket

/-- A test that no bracket passes. -/
def TokenTest.isFlat : TokenTest → Bool
  | .expressionStart => false
  | _ => true

/-- What a lookahead that holds says of the token at `offset`. -/
def Look.bracket (offset : Nat) : Look → Bracket
  | .token place test => if place = offset ∧ test.isFlat then .flat else .unknown
  | .mark place chars => if place ≤ offset then .ofChars chars (offset - place) else .unknown
  | .and left right =>
    if left.bracket offset = .unknown then right.bracket offset else left.bracket offset
  | .or left right =>
    if left.bracket offset = right.bracket offset then left.bracket offset else .unknown
  | _ => .unknown

theorem TokenTest.flat_of_holds {test : TokenTest} {token : Token} (isFlat : test.isFlat = true)
    (holds : test.holds token = true) : token.isFlat = true := by
  cases token with
  | punct => cases test <;> first | cases holds | cases isFlat
  | ident | literal | group => rfl

namespace Bracket

theorem ofChar_fits (c : Char) {joint joint' : Bool} (imp : joint' = true → joint = true)
    (span : Span) : (ofChar joint' c).Fits (some (.punct c joint span)) := by
  unfold ofChar
  split
  · assumption
  · split
    · assumption
    · split
      · next eq =>
        split
        · next h => exact ⟨eq, imp h⟩
        · exact eq
      · simp_all [Fits, Token.isFlat]

theorem ofChars_fits {chars : List Char} {tokens : List Token}
    (spelled : Token.spell chars tokens = true) (offset : Nat) :
    (ofChars chars offset).Fits tokens[offset]? := by
  induction chars generalizing tokens offset with
  | nil => rw [ofChars]; trivial
  | cons c chars ih =>
    cases tokens with
    | nil => cases chars <;> cases spelled
    | cons token rest =>
      cases token with
      | ident | literal | group => cases chars <;> cases spelled
      | punct char joint span =>
        obtain ⟨rfl, joined, later⟩ : char = c ∧ ((!chars.isEmpty) = true → joint = true)
            ∧ Token.spell chars rest = true := by
          cases chars with
          | nil => exact ⟨eq_of_beq spelled, (fun h => by cases h), rfl⟩
          | cons d chars =>
            simp only [Token.spell, Bool.and_eq_true, beq_iff_eq] at spelled
            exact ⟨spelled.1.1, fun _ => spelled.1.2, spelled.2⟩
        cases offset with
        | zero => exact ofChar_fits char joined span
        | succ offset => exact ih later offset

variable {token : Token}

theorem Fits.eq_opens (h : opens.Fits (some token)) :
    ∃ joint span, token = .punct '<' joint span := by
  cases token <;> cases h
  exact ⟨_, _, rfl⟩

theorem Fits.eq_closes (h : closes.Fits (some token)) :
    ∃ joint span, token = .punct '>' joint span := by
  cases token <;> cases h
  exact ⟨_, _, rfl⟩

theorem Fits.eq_dash (h : dash.Fits (some token)) :
    ∃ joint span, token = .punct '-' joint span := by
  cases token <;> cases h
  exact ⟨_, _, rfl⟩

theorem Fits.eq_jointDash (h : jointDash.Fits (some token)) :
    ∃ span, token = .punct '-' true span := by
  cases token with
  | punct =>
    obtain ⟨rfl, rfl⟩ := h
    exact ⟨_, rfl⟩
  | ident | literal | group => cases h

end Bracket

theorem Look.bracket_fits {look : Look} {cursor : Cursor} (holds : look.holds cursor = true)
    (offset : Nat) : (look.bracket offset).Fits cursor.rest[offset]? := by
  induction look with
  | token place test =>
    unfold bracket
    split
    · next here =>
      obtain ⟨rfl, isFlat⟩ := here
      unfold Look.holds at holds
      generalize cursor.rest[place]? = found at holds
      cases found with
      | none => cases holds
      | some token => exact TokenTest.flat_of_holds isFlat holds
    · trivial
  | mark place chars =>
    unfold bracket
    split
    · next le =>
      have spelled : Token.spell chars (cursor.rest.drop place) = true := holds
      have fits := Bracket.ofChars_fits spelled (offset - place)
      rwa [List.getElem?_drop, Nat.add_sub_cancel' le] at fits
    · trivial
  | and left right ih₁ ih₂ =>
    obtain ⟨holdsLeft, holdsRight⟩ := Bool.and_eq_true_iff.mp holds
    unfold bracket
    split
    · exact ih₂ holdsRight
    · exact ih₁ holdsLeft
  | or left right ih₁ ih₂ =>
    unfold bracket
    split
    · next same =>
      rcases Bool.or_eq_true_iff.mp holds with h | h
      · exact ih₁ h
      · exact same ▸ ih₂ h
    · trivial
  | atEnd | afterBrace | fn | not => trivial

-- ---------------------------------------------------------------------------
-- The depth at the end of a rule
-- ---------------------------------------------------------------------------

/-- Where a run of a rule ends. -/
inductive Nesting where
  /-- The rule fails. -/
  | never
  | ends (depth : Nat)
  | unknown
deriving DecidableEq, Repr

namespace Nesting

def join : Nesting → Nesting → Nesting
  | .never, other | other, .never => other
  | .ends depth, .ends depth' => if depth = depth' then .ends depth else .unknown
  | _, _ => .unknown

variable {left right : Nesting} {depth : Nat}

theorem known (ends : left = .ends depth) : left ≠ .unknown := by
  rintro rfl
  cases ends

theorem left_known (known : left.join right ≠ .unknown) : left ≠ .unknown := by
  rintro rfl
  cases right <;> exact known rfl

theorem right_known (known : left.join right ≠ .unknown) : right ≠ .unknown := by
  rintro rfl
  cases left <;> exact known rfl

theorem join_left (known : left.join right ≠ .unknown) (ends : left = .ends depth) :
    left.join right = .ends depth := by
  subst ends
  cases right with
  | never => rfl
  | unknown => exact absurd rfl known
  | ends depth' =>
    by_cases eq : depth = depth'
    · exact if_pos eq
    · exact absurd (if_neg eq) known

theorem join_right (known : left.join right ≠ .unknown) (ends : right = .ends depth) :
    left.join right = .ends depth := by
  subst ends
  cases left with
  | never => rfl
  | unknown => exact absurd rfl known
  | ends depth' =>
    by_cases eq : depth' = depth
    · exact (if_pos eq).trans (congrArg _ eq)
    · exact absurd (if_neg eq) known

end Nesting

namespace Bracket

/-- The depth after tokens of which something is known. -/
def through : (depth : Nat) → List Bracket → Option Nat
  | depth, [] => some depth
  | depth, .flat :: rest => through depth rest
  | depth, .opens :: rest => through (depth + 1) rest
  | depth + 1, .closes :: rest => through depth rest
  | depth, .jointDash :: .closes :: rest => through depth rest
  | depth, .dash :: .flat :: rest => through depth rest
  | _, _ => none

/-- What is known of tokens holds of them. -/
def Foretells (seen : List Bracket) (tokens : List Token) : Prop :=
  ∀ (offset : Nat) (bracket : Bracket), seen[offset]? = some bracket → bracket.Fits tokens[offset]?

variable {bracket : Bracket} {seen : List Bracket} {tokens : List Token}

theorem Foretells.cons (h : Foretells (bracket :: seen) tokens) (known : bracket ≠ .unknown) :
    ∃ token rest, tokens = token :: rest ∧ bracket.Fits (some token) ∧ Foretells seen rest := by
  have first := h 0 bracket rfl
  match tokens with
  | [] => cases bracket <;> first | exact absurd rfl known | cases first
  | token :: rest => exact ⟨token, rest, rfl, first, fun offset => h (offset + 1)⟩

theorem through_angled {depth final : Nat} (h : Foretells seen tokens)
    (ends : through depth seen = some final) :
    Token.Angled depth (tokens.take seen.length) final := by
  fun_induction through depth seen generalizing tokens with
  | case1 depth =>
    cases ends
    exact .nil
  | case2 depth rest ih =>
    obtain ⟨token, tokens, rfl, flat, later⟩ := h.cons (by decide)
    exact .flat flat (ih later ends)
  | case3 depth rest ih =>
    obtain ⟨token, tokens, rfl, opens, later⟩ := h.cons (by decide)
    obtain ⟨joint, span, rfl⟩ := opens.eq_opens
    exact .opens (ih later ends)
  | case4 depth rest ih =>
    obtain ⟨token, tokens, rfl, closes, later⟩ := h.cons (by decide)
    obtain ⟨joint, span, rfl⟩ := closes.eq_closes
    exact .closes (ih later ends)
  | case5 depth rest ih =>
    obtain ⟨token, others, rfl, dash, second⟩ := h.cons (by decide)
    obtain ⟨span, rfl⟩ := dash.eq_jointDash
    obtain ⟨token, tokens, rfl, closes, later⟩ := second.cons (by decide)
    obtain ⟨joint, span, rfl⟩ := closes.eq_closes
    exact .arrow (ih later ends)
  | case6 depth rest ih =>
    obtain ⟨token, others, rfl, dash, second⟩ := h.cons (by decide)
    obtain ⟨joint, span, rfl⟩ := dash.eq_dash
    obtain ⟨token, tokens, rfl, flat, later⟩ := second.cons (by decide)
    exact .minus flat (ih later ends)
  | case7 => cases ends

end Bracket

/-- A nonterminal that stands between angle brackets. -/
def Nonterminal.isAngled : Nonterminal → Bool
  | .path _ | .pathTail _ | .pathSegment _ | .genericArgs | .genericArgList | .genericArg
  | .qualifiedPath | .qualifiedPathTail | .type _ | .fnPointer | .forLifetimes | .lifetimeList
  | .bounds _ | .boundsTail | .typeBounds | .bound | .outerAttrs | .generics | .genericParams
  | .lifetimeBounds => true
  | _ => false

namespace Rule

/-- How deep a run of the rule ends, where `seen` is known of the tokens ahead. -/
def nests (seen : Nat → Bracket) (depth : Nat) : Production → Nesting
  | .done | .within _ _ => .ends depth
  | .fail _ => .never
  | .skip count => (Bracket.through depth ((List.range count).map seen)).elim .unknown .ends
  | .seq first second =>
    match first.nests seen depth with
    | .ends depth => second.nests Bracket.unseen depth
    | nesting => nesting
  | .ite look yes no => (yes.nests look.bracket depth).join (no.nests Bracket.unseen depth)
  | .call nonterminal => if nonterminal.isAngled then .ends depth else .unknown

end Rule

theorem Nonterminal.nests {nonterminal : Nonterminal} (isAngled : nonterminal.isAngled = true) :
    nonterminal.rule.nests Bracket.unseen 0 = .ends 0 := by
  cases nonterminal with
  | path x | pathTail x | pathSegment x | type x | bounds x => cases x <;> rfl
  | genericArgs | genericArgList | genericArg | qualifiedPath | qualifiedPathTail | fnPointer
  | forLifetimes | lifetimeList | boundsTail | typeBounds | bound | outerAttrs | generics
  | genericParams | lifetimeBounds => rfl
  | _ => cases isAngled

namespace Rule

variable {budget : Nat} {rule : Production} {cursor final : Cursor}

/-- A run ends as deep as its rule says. -/
theorem Runs.ends {seen : Nat → Bracket} {depth : Nat} (run : Runs budget rule cursor final)
    (fits : ∀ offset, (seen offset).Fits cursor.rest[offset]?)
    (known : rule.nests seen depth ≠ .unknown) :
    ∃ passed depth', cursor.Passes passed final ∧ Token.Angled depth passed depth'
      ∧ rule.nests seen depth = .ends depth' := by
  induction run generalizing seen depth with
  | done => exact ⟨[], depth, .refl _, .nil, rfl⟩
  | @skip _ count cursor =>
    rw [nests] at known ⊢
    cases ends : Bracket.through depth ((List.range count).map seen) with
    | none => rw [ends] at known; exact absurd rfl known
    | some depth' =>
      have foretells : Bracket.Foretells ((List.range count).map seen) cursor.rest := by
        intro offset bracket h
        rw [List.getElem?_map] at h
        obtain ⟨place, eq, rfl⟩ := Option.map_eq_some_iff.mp h
        obtain ⟨_, rfl⟩ := List.getElem?_eq_some_iff.mp eq
        exact List.getElem_range _ ▸ fits offset
      have angled := Bracket.through_angled foretells ends
      rw [List.length_map, List.length_range] at angled
      exact ⟨_, depth', cursor.passes_advance count, angled, rfl⟩
  | @seq _ first second cursor middle final run₁ run₂ ih₁ ih₂ =>
    rw [nests] at known ⊢
    have known₁ : first.nests seen depth ≠ .unknown := by
      intro unknown
      rw [unknown] at known
      exact known rfl
    obtain ⟨passed, depth', h₁, angled₁, ends₁⟩ := ih₁ fits known₁
    rw [ends₁] at known ⊢
    obtain ⟨passed', depth'', h₂, angled₂, ends₂⟩ := ih₂ (Bracket.unseen_fits _) known
    exact ⟨passed ++ passed', depth'', h₁.trans h₂, angled₁.append angled₂, ends₂⟩
  | yes holds run ih =>
    rw [nests] at known ⊢
    obtain ⟨passed, depth', h, angled, ends⟩ :=
      ih (Look.bracket_fits holds) (Nesting.left_known known)
    exact ⟨passed, depth', h, angled, Nesting.join_left known ends⟩
  | no fails run ih =>
    rw [nests] at known ⊢
    obtain ⟨passed, depth', h, angled, ends⟩ :=
      ih (Bracket.unseen_fits _) (Nesting.right_known known)
    exact ⟨passed, depth', h, angled, Nesting.join_right known ends⟩
  | @call _ nonterminal cursor final run ih =>
    rw [nests] at known ⊢
    split at known
    · next isAngled =>
      have nests := nonterminal.nests isAngled
      obtain ⟨passed, depth', h, angled, ends⟩ := ih (Bracket.unseen_fits _) (Nesting.known nests)
      obtain rfl : 0 = depth' := Nesting.ends.inj (nests.symm.trans ends)
      rw [if_pos isAngled]
      refine ⟨passed, depth, h, ?_, rfl⟩
      have raised := angled.raise depth
      rwa [Nat.zero_add] at raised
    · exact absurd rfl known
  | @within _ delimiter inner cursor content span tail final rest run ending =>
    refine ⟨_, depth, cursor.passes_advance 1, ?_, rfl⟩
    rw [rest]
    exact .flat rfl .nil

/-- What stands between angle brackets has balanced ones itself. -/
theorem Runs.angled {nonterminal : Nonterminal} (isAngled : nonterminal.isAngled = true)
    (run : Runs budget (.call nonterminal) cursor final) :
    ∃ passed, cursor.Passes passed final ∧ Token.Angled 0 passed 0 := by
  have nests : nests Bracket.unseen 0 (.call nonterminal) = .ends 0 := if_pos isAngled
  obtain ⟨passed, depth, h, angled, ends⟩ := run.ends (Bracket.unseen_fits _) (Nesting.known nests)
  obtain rfl : 0 = depth := Nesting.ends.inj (nests.symm.trans ends)
  exact ⟨passed, h, angled⟩

end Rule

end AliasExpansion
