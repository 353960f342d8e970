-- SUMMARY: With which tokens expressions end.
import AliasExpansion.Proofs.Grammar.Angles
import AliasExpansion.Proofs.Grammar.Budget

/-!
# How expressions end

An expression does not end in the middle of an operator: its last token is no `<`, `:`, `&`, `|` or
`;`. A range may end with a `.`, but then no expression follows, which would be its right end. From
the text of a rule `Rule.settles` computes whether this is so, with a table for the nonterminals
that expressions are made of (`Nonterminal.settles_rule`).
-/

namespace AliasExpansion

-- ---------------------------------------------------------------------------
-- Last tokens
-- ---------------------------------------------------------------------------

/-- Punctuation after which an expression goes on. -/
def Grammar.dangling : List Char := ['<', ':', '&', '|', ';', '.']

/-- An expression can end with the token. If `point`, the token may also be a `.`. -/
def Token.canEnd (point : Bool) : Token → Bool
  | .punct c _ _ => !Grammar.dangling.contains c || point && c == '.'
  | _ => true

/-- An expression can end before the cursor. -/
def Cursor.Settled (cursor : Cursor) : Prop :=
  ∀ token, cursor.previous = some token →
    token.canEnd (!Grammar.expressionStart.holds cursor) = true

theorem Token.canEnd_of_false {token : Token} (ends : token.canEnd false = true) (point : Bool) :
    token.canEnd point = true := by
  cases token with
  | punct c joint span =>
    simp only [canEnd, Bool.false_and, Bool.or_false] at ends
    simp only [canEnd, ends, Bool.true_or]
  | ident | literal | group => rfl

/-- The token before a cursor that has moved over more than `place` tokens. -/
theorem Cursor.advance_previous {cursor : Cursor} {place : Nat} {token : Token}
    (last : cursor.rest[place]? = some token) :
    (cursor.advance (place + 1)).previous = some token := by
  rw [(passes_advance (place + 1) cursor).previous, List.getLast?_take]
  simp [last]

/-- A dangling token before a settled cursor is a `.`, and no expression follows. -/
theorem Cursor.Settled.point {cursor : Cursor} (settled : cursor.Settled) {c : Char} {joint : Bool}
    {span : Span} (previous : cursor.previous = some (.punct c joint span))
    (dangles : c ∈ Grammar.dangling) : c = '.' ∧ Grammar.expressionStart.holds cursor = false := by
  have ends := settled _ previous
  rw [Token.canEnd, List.contains_iff_mem.mpr dangles] at ends
  simp only [Bool.not_true, Bool.false_or, Bool.and_eq_true, Bool.not_eq_true', beq_iff_eq] at ends
  exact ⟨ends.2, ends.1⟩

-- ---------------------------------------------------------------------------
-- What a lookahead says of the last token
-- ---------------------------------------------------------------------------

/-- A lookahead that holds says that an expression can end with the token at `place`. -/
def Look.showsEnd (point : Bool) (place : Nat) : Look → Bool
  | .token offset test => offset == place && test.isFlat
  | .mark offset chars =>
    offset + chars.length == place + 1
      && chars.getLast?.any fun c => (Token.punct c false {}).canEnd point
  | .and left right => left.showsEnd point place || right.showsEnd point place
  | .or left right => left.showsEnd point place && right.showsEnd point place
  | _ => false

theorem Look.canEnd_of_shows {point : Bool} {place : Nat} {look : Look} {cursor : Cursor}
    (shows : look.showsEnd point place = true) (holds : look.holds cursor = true) :
    ∃ token, cursor.rest[place]? = some token ∧ token.canEnd point = true := by
  induction look with
  | token offset test =>
    obtain ⟨here, isFlat⟩ := Bool.and_eq_true_iff.mp shows
    obtain rfl := eq_of_beq here
    unfold Look.holds at holds
    cases found : cursor.rest[offset]? with
    | none => rw [found] at holds; cases holds
    | some token =>
      rw [found] at holds
      refine ⟨token, rfl, ?_⟩
      cases token with
      | punct => cases test <;> first | cases holds | cases isFlat
      | ident | literal | group => rfl
  | mark offset chars =>
    obtain ⟨here, ends⟩ := Bool.and_eq_true_iff.mp shows
    have length : offset + chars.length = place + 1 := eq_of_beq here
    obtain ⟨c, last, ends⟩ := (Option.any_eq_true _ _).mp ends
    have some : chars ≠ [] := by rintro rfl; cases last
    have pos := List.length_pos_iff.mpr some
    rw [List.getLast?_eq_getElem?] at last
    obtain ⟨joint, span, h, -⟩ := Token.punct_of_spell holds last
    rw [List.getElem?_drop, show offset + (chars.length - 1) = place by omega] at h
    exact ⟨_, h, ends⟩
  | and left right ih₁ ih₂ =>
    obtain ⟨holdsLeft, holdsRight⟩ := Bool.and_eq_true_iff.mp holds
    rcases Bool.or_eq_true_iff.mp shows with shows | shows
    · exact ih₁ shows holdsLeft
    · exact ih₂ shows holdsRight
  | or left right ih₁ ih₂ =>
    obtain ⟨showsLeft, showsRight⟩ := Bool.and_eq_true_iff.mp shows
    rcases Bool.or_eq_true_iff.mp holds with holds | holds
    · exact ih₁ showsLeft holds
    · exact ih₂ showsRight holds
  | atEnd | afterBrace | fn | not => cases shows

-- ---------------------------------------------------------------------------
-- The end of a rule
-- ---------------------------------------------------------------------------

/-- A nonterminal after which an expression can end. -/
def Nonterminal.settles : Nonterminal → Bool
  | .path _ | .pathTail _ | .pathSegment _ | .genericArgs | .qualifiedPath | .qualifiedPathTail
  | .type _ | .fnPointer | .bounds _ | .boundsTail | .typeBounds | .bound | .binary _ _
  | .binaryTail _ _ | .unary _ | .postfixTail | .primary _ | .pathExpr _ | .ifExpr
  | .closure => true
  | _ => false

namespace Rule

/-- A run that takes nothing has seen that no expression follows. -/
def refusesStart : Production → Bool
  | .ite (.token 0 .expressionStart) yes _ => yes.takes false
  | .seq first second => first.refusesStart || second.refusesStart
  | _ => false

/-- The rule skips tokens of which the last can end an expression, or is a `.`. -/
def skipsPoint (ahead : Option Look) : Production → Bool
  | .skip (place + 1) => ahead.any (·.showsEnd true place)
  | _ => false

/-- An expression can end after a run that takes something. It is known that the lookahead `ahead`
    holds, if there is one. -/
def settles (ahead : Option Look) : Production → Bool
  | .skip (place + 1) => ahead.any (·.showsEnd false place)
  | .seq first second =>
    second.settles none
      && (first.settles ahead || second.takes false
        || first.skipsPoint ahead && second.refusesStart)
  | .ite look yes no => yes.settles (some look) && no.settles none
  | .call nonterminal => nonterminal.settles
  | .skip 0 | .done | .fail _ | .within _ _ => true

end Rule

theorem Nonterminal.settles_rule {nonterminal : Nonterminal}
    (settles : nonterminal.settles = true) : nonterminal.rule.settles none = true := by
  cases nonterminal with
  | binaryTail minPrecedence position =>
    match minPrecedence with
    | 0 | 1 | 2 | 3 | 4 | 5 | 6 | 7 | 8 | 9 | 10 | 11 | n + 12 => cases position <;> rfl
  | path x | pathTail x | pathSegment x | type x | bounds x | unary x | primary x | pathExpr x
  | binary n x => cases x <;> rfl
  | genericArgs | qualifiedPath | qualifiedPathTail | fnPointer | boundsTail | typeBounds | bound
  | postfixTail | ifExpr | closure => rfl
  | _ => cases settles

namespace Rule

variable {budget : Nat} {rule : Production} {cursor final : Cursor}

theorem Runs.eq_of_length (run : Runs budget rule cursor final)
    (le : cursor.rest.length ≤ final.rest.length) : final = cursor := by
  obtain ⟨passed, rest, previous⟩ := run.passes
  have length := congrArg List.length rest
  rw [List.length_append] at length
  obtain rfl : passed = [] := List.length_eq_zero_iff.mp (by omega)
  cases cursor
  cases final
  cases rest
  cases previous
  rfl

theorem Runs.refuses (run : Runs budget rule cursor final) (refuses : rule.refusesStart = true)
    (still : final = cursor) : Grammar.expressionStart.holds cursor = false := by
  induction run with
  | done | skip | call | within => cases refuses
  | @seq _ first second cursor middle final run₁ run₂ ih₁ ih₂ =>
    subst still
    obtain rfl : middle = final := run₁.eq_of_length run₂.length_le
    rcases Bool.or_eq_true_iff.mp refuses with refuses | refuses
    · exact ih₁ refuses rfl
    · exact ih₂ refuses rfl
  | yes holds run =>
    subst still
    unfold refusesStart at refuses
    split at refuses
    · next h =>
      cases h
      exact absurd (run.length_lt_of_takes refuses nofun) (Nat.lt_irrefl _)
    · next h => cases h
    · cases refuses
  | no fails run =>
    unfold refusesStart at refuses
    split at refuses
    · next h => cases h; exact fails
    · next h => cases h
    · cases refuses

/-- An expression can end after a run of a rule that settles. -/
theorem Runs.settled {ahead : Option Look} (run : Runs budget rule cursor final)
    (settles : rule.settles ahead = true)
    (known : ∀ look, ahead = some look → look.holds cursor = true) :
    final = cursor ∨ final.Settled := by
  induction run generalizing ahead with
  | done => exact .inl rfl
  | @skip _ count cursor =>
    cases count with
    | zero => exact .inl rfl
    | succ place =>
      obtain ⟨look, isAhead, shows⟩ := (Option.any_eq_true _ _).mp settles
      obtain ⟨token, found, ends⟩ := Look.canEnd_of_shows shows (known look isAhead)
      refine .inr fun last same => ?_
      rw [Cursor.advance_previous found] at same
      cases same
      exact token.canEnd_of_false ends _
  | @seq _ first second cursor middle final run₁ run₂ ih₁ ih₂ =>
    obtain ⟨second, first⟩ := Bool.and_eq_true_iff.mp settles
    rcases ih₂ second nofun with rfl | settled
    · rcases Bool.or_eq_true_iff.mp first with h | point
      · rcases Bool.or_eq_true_iff.mp h with first | takes
        · exact ih₁ first known
        · exact absurd (run₂.length_lt_of_takes takes nofun) (Nat.lt_irrefl _)
      · -- A range without a right end.
        obtain ⟨skips, refuses⟩ := Bool.and_eq_true_iff.mp point
        have noStart := run₂.refuses refuses rfl
        unfold skipsPoint at skips
        split at skips
        · next place =>
          obtain ⟨look, isAhead, shows⟩ := (Option.any_eq_true _ _).mp skips
          obtain ⟨token, found, ends⟩ := Look.canEnd_of_shows shows (known look isAhead)
          cases run₁
          refine .inr fun last same => ?_
          rw [Cursor.advance_previous found] at same
          cases same
          rw [noStart]
          exact ends
        · cases skips
    · exact .inr settled
  | yes holds _ ih =>
    refine ih (Bool.and_eq_true_iff.mp settles).1 fun look same => ?_
    cases same
    exact holds
  | no _ _ ih => exact ih (Bool.and_eq_true_iff.mp settles).2 nofun
  | call _ ih => exact ih (Nonterminal.settles_rule settles) nofun
  | @within _ delimiter inner cursor content span tail final rest =>
    refine .inr fun last same => ?_
    have first : cursor.rest[0]? = some (.group delimiter content span) := by rw [rest]; rfl
    rw [Cursor.advance_previous first] at same
    cases same
    rfl

end Rule

end AliasExpansion
