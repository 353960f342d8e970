-- SUMMARY: A pattern is read alike when an arrow comes behind it.
import AliasExpansion.Proofs.Grammar.Truncation

/-!
# Patterns before an arrow

A pattern that is a whole token list is read alike when an arrow and more come behind it
(`Runs.extend`). A lookahead near the end of the pattern may see the arrow. No test of one token
asks for `=`, but a mark such as `..=` may go over the end: `Look.beforeArrow` tells, from the
number of tokens that are left, how the answer may differ. Not every nonterminal may be run right
before an arrow: a generic argument that is a name, say, would take the `=` behind it. What is run
inside a pattern without being its end leaves some tokens (`Nonterminal.clearance`), and
`Rule.extensible` checks over the text of a rule that they are enough.
-/

namespace AliasExpansion

-- ---------------------------------------------------------------------------
-- Tokens that are there
-- ---------------------------------------------------------------------------

/-- A lookahead that holds has seen a token at `place`. -/
def Look.shows (place : Nat) : Look → Bool
  | .token offset _ => decide (place ≤ offset)
  | .mark offset chars => !chars.isEmpty && decide (place < offset + chars.length)
  | .and left right => left.shows place || right.shows place
  | .or left right => left.shows place && right.shows place
  | .atEnd | .afterBrace | .fn _ | .not _ => false

theorem Look.lt_of_shows {place : Nat} {look : Look} {cursor : Cursor}
    (shows : look.shows place = true) (holds : look.holds cursor = true) :
    place < cursor.rest.length := by
  induction look with
  | token offset test =>
    have le := of_decide_eq_true shows
    cases found : cursor.rest[offset]? with
    | none =>
      rw [Look.holds, found] at holds
      cases holds
    | some token => exact Nat.lt_of_le_of_lt le (List.getElem?_eq_some_iff.mp found).1
  | mark offset chars =>
    obtain ⟨some, lt⟩ := Bool.and_eq_true_iff.mp shows
    have length := Token.length_le_of_spell holds
    have pos : 0 < chars.length := List.length_pos_iff.mpr (by simpa using some)
    have lt := of_decide_eq_true lt
    rw [List.length_drop] at length
    omega
  | and left right ih₁ ih₂ =>
    obtain ⟨holdsLeft, holdsRight⟩ := Bool.and_eq_true_iff.mp holds
    rcases Bool.or_eq_true_iff.mp shows with shows | shows
    · exact ih₁ shows holdsLeft
    · exact ih₂ shows holdsRight
  | or left right ih₁ ih₂ =>
    obtain ⟨showsLeft, showsRight⟩ := Bool.and_eq_true_iff.mp shows
    rcases Bool.or_eq_true_iff.mp holds with holds | holds
    · exact ih₁ showsLeft holds
    · exact ih₂ showsRight holds
  | atEnd | afterBrace | fn | not => cases shows

/-- How many tokens the nonterminal must leave before an arrow, if it can be run before one. What
    stands in angle brackets leaves at least the closing one. -/
def Nonterminal.clearance : Nonterminal → Option Nat
  | .path .expression | .pathTail .expression | .pathSegment .expression | .pathSegment .plain
  | .genericArgs | .qualifiedPath | .qualifiedPathTail | .pattern | .patternAlternatives
  | .patternAtom | .rangePatternEnd | .rangeBound => some 0
  | .path _ | .pathTail _ | .pathSegment _ | .genericArgList | .genericArg | .type _ | .fnPointer
  | .forLifetimes | .lifetimeList | .bounds _ | .boundsTail | .typeBounds | .bound => some 1
  | _ => none

namespace Rule

/-- The rule skips no tokens but those that a lookahead has seen. It is known that the lookahead
    `ahead` holds, if there is one. -/
def cautious (ahead : Option Look) : Production → Bool
  | .skip (place + 1) => ahead.any (·.shows place)
  | .seq first second => first.cautious ahead && second.cautious none
  | .ite look yes no => yes.cautious (some look) && no.cautious none
  | .call nonterminal => nonterminal.clearance.isSome
  | .skip 0 | .done | .fail _ | .within _ _ => true

end Rule

theorem Nonterminal.cautious {nonterminal : Nonterminal}
    (known : nonterminal.clearance.isSome = true) : nonterminal.rule.cautious none = true := by
  cases nonterminal with
  | path x | pathTail x | pathSegment x | type x | bounds x => cases x <;> rfl
  | _ => first | rfl | cases known

namespace Rule

variable {budget : Nat} {rule : Production} {cursor final : Cursor}

/-- A run of a cautious rule takes as much as the rule says, even at the end of the tokens. -/
theorem Runs.least_le_of_cautious {ahead : Option Look} (run : Runs budget rule cursor final)
    (cautious : rule.cautious ahead = true)
    (known : ahead.all (·.holds cursor) = true) :
    final.rest.length + rule.least ≤ cursor.rest.length := by
  induction run generalizing ahead with
  | done => simp only [least, Nat.add_zero, Nat.le_refl]
  | @skip _ count cursor =>
    cases count with
    | zero => simp only [least, Nat.add_zero, Cursor.advance_zero, Nat.le_refl]
    | succ place =>
      obtain ⟨look, rfl, shows⟩ := (Option.any_eq_true _ _).mp cautious
      have lt := Look.lt_of_shows shows known
      rw [Cursor.advance_rest, List.length_drop]
      simp only [least]
      omega
  | seq _ _ ih₁ ih₂ =>
    obtain ⟨first, second⟩ := Bool.and_eq_true_iff.mp cautious
    have := ih₁ first known
    have := ih₂ second rfl
    simp only [least]
    omega
  | @yes _ look _ _ _ _ holds _ ih =>
    have := ih (Bool.and_eq_true_iff.mp cautious).1 holds
    simp only [least]
    omega
  | no _ _ ih =>
    have := ih (Bool.and_eq_true_iff.mp cautious).2 rfl
    simp only [least]
    omega
  | @call _ nonterminal _ _ _ ih =>
    have := ih (Nonterminal.cautious cautious) rfl
    exact Nat.le_trans (Nat.add_le_add_left nonterminal.least_le _) this
  | within rest =>
    rw [Cursor.advance_rest, rest]
    simp only [least, List.drop_one, List.tail_cons, List.length_cons, Nat.le_refl]

end Rule

-- ---------------------------------------------------------------------------
-- Lookahead over the arrow
-- ---------------------------------------------------------------------------

/-- The tokens start with an arrow. -/
inductive Arrow : List Token → Prop
  | intro (span : Span) (joint : Bool) (span' : Span) (rest : List Token) :
      Arrow (.punct '=' true span :: .punct '>' joint span' :: rest)

/-- The last token is not glued to an arrow behind it. A closing angle bracket may be: it is read
    alone. -/
def Token.detached (tokens : List Token) : Bool :=
  tokens.getLast?.all fun token => !token.isJoint || token.isPunct '>'

namespace Outlook

/-- What has failed may succeed. -/
def gained : Outlook := ⟨false, false, true⟩

theorem allows_gained (new : Bool) : gained.allows false new = true := by
  cases new <;> rfl

end Outlook

namespace Look

/-- How the answer may differ when an arrow comes behind the next `count` tokens. A mark that goes
    over the end has the `=` of the arrow in it; before that, only a closing angle bracket may
    stand. -/
def beforeArrow (count : Nat) : Look → Outlook
  | .token offset _ => if offset < count then .same else if offset = count then .never else .gained
  | .mark offset chars =>
    if chars.isEmpty then .same
    else if offset + chars.length ≤ count then .same
    else if count < offset then .gained
    else if chars[count - offset]? = some '='
        ∧ (offset < count → chars[count - offset - 1]? = some '>') then .gained
    else .never
  | .atEnd => if count = 0 then ⟨false, true, false⟩ else .same
  | .afterBrace | .fn _ => .same
  | .not look => (look.beforeArrow count).not
  | .and left right => (left.beforeArrow count).and (right.beforeArrow count)
  | .or left right => (left.beforeArrow count).or (right.beforeArrow count)

theorem beforeArrow_of_reach {count : Nat} {look : Look} (far : look.reach < count) :
    look.beforeArrow count = look.beforeArrow (look.reach + 1) := by
  suffices ∀ {more}, look.reach < more → look.reach < count →
      look.beforeArrow count = look.beforeArrow more from this (Nat.lt_succ_self _) far
  clear far
  intro more lt far
  induction look with
  | token offset test =>
    simp only [reach] at lt far
    simp only [beforeArrow, if_pos (show offset < count by omega),
      if_pos (show offset < more by omega)]
  | mark offset chars =>
    simp only [reach] at lt far
    simp only [beforeArrow, if_pos (show offset + chars.length ≤ count by omega),
      if_pos (show offset + chars.length ≤ more by omega)]
  | atEnd =>
    simp only [beforeArrow, if_neg (show count ≠ 0 by omega), if_neg (show more ≠ 0 by omega)]
  | afterBrace | fn => rfl
  | not look ih => simp only [beforeArrow, ih lt far]
  | and left right ih₁ ih₂ | or left right ih₁ ih₂ =>
    simp only [reach, Nat.max_lt] at lt far
    simp only [beforeArrow, ih₁ lt.1 far.1, ih₂ lt.2 far.2]

/-- The answer does not change when an arrow comes behind `least` tokens or more. -/
def steadyFrom (least : Nat) (look : Look) : Bool :=
  (look.beforeArrow (look.reach + 1)).settled && (List.range (look.reach + 1)).all fun count =>
    decide (count < least) || (look.beforeArrow count).settled

section

variable {before tail : List Token}

theorem holds_equals (test : TokenTest) (joint : Bool) (span : Span) :
    test.holds (.punct '=' joint span) = false := by
  cases test <;> rfl

/-- A mark that goes over the end of the tokens has the `=` of the arrow in it. -/
theorem arrow_of_spell (arrow : Arrow tail) (detached : Token.detached before = true)
    {chars : List Char} (longer : before.length < chars.length)
    (spelled : Token.spell chars (before ++ tail) = true) :
    chars[before.length]? = some '='
      ∧ (0 < before.length → chars[before.length - 1]? = some '>') := by
  obtain ⟨span, joint, span', rest⟩ := arrow
  constructor
  · have found := List.getElem?_eq_getElem longer
    obtain ⟨_, _, here, -⟩ := Token.punct_of_spell spelled found
    rw [List.getElem?_append_right (Nat.le_refl _), Nat.sub_self, List.getElem?_cons_zero,
      Option.some.injEq, Token.punct.injEq] at here
    rw [found, ← here.1]
  · intro pos
    have found := List.getElem?_eq_getElem (show before.length - 1 < chars.length by omega)
    obtain ⟨joint', _, here, joins⟩ := Token.punct_of_spell spelled found
    rw [List.getElem?_append_left (by omega), ← List.getLast?_eq_getElem?] at here
    rw [Token.detached, here, joins (by omega)] at detached
    rw [found]
    simpa [Token.isJoint, Token.isPunct] using detached

theorem detached_drop (detached : Token.detached before = true) (count : Nat) :
    Token.detached (before.drop count) = true := by
  unfold Token.detached at detached ⊢
  rw [List.getLast?_drop]
  split
  · rfl
  · exact detached

/-- Too few tokens spell no mark. -/
theorem spell_short {chars : List Char} {offset : Nat} (some : chars ≠ [])
    (short : before.length < offset + chars.length) :
    Token.spell chars (before.drop offset) = false := by
  rw [Bool.eq_false_iff]
  intro spelled
  have pos := List.length_pos_iff.mpr some
  have length := Token.length_le_of_spell spelled
  rw [List.length_drop] at length
  omega

theorem fnFollows_arrow (arrow : Arrow tail) (qualifiers : List String) :
    Token.fnFollows qualifiers (before ++ tail) = Token.fnFollows qualifiers before := by
  obtain ⟨span, joint, span', rest⟩ := arrow
  cases decided : before.any (Token.decidesFn qualifiers) with
  | true =>
    have same := Token.fnFollows_append decided
      (.punct '=' true span :: .punct '>' joint span' :: rest) []
    rwa [List.append_nil] at same
  | false =>
    have none : Token.fnFollows qualifiers
        (before ++ .punct '=' true span :: .punct '>' joint span' :: rest) = false :=
      Token.fnFollows_stop decided (fun _ => rfl) _
    rw [none, eq_comm, Bool.eq_false_iff]
    intro follows
    cases none.symm.trans (Token.fnFollows_more follows _)

theorem beforeArrow_token (arrow : Arrow tail) (offset : Nat) (test : TokenTest)
    (previous : Option Token) :
    ((token offset test).beforeArrow before.length).allows
      ((token offset test).holds ⟨previous, before⟩)
      ((token offset test).holds ⟨previous, before ++ tail⟩) = true := by
  simp only [beforeArrow, holds]
  split
  · next inside =>
    rw [List.getElem?_append_left inside]
    exact Outlook.allows_same
  · next outside =>
    rw [List.getElem?_eq_none (Nat.le_of_not_lt outside)]
    split
    · next first =>
      obtain ⟨span, joint, span', rest⟩ := arrow
      rw [List.getElem?_append_right (by omega), first, Nat.sub_self, List.getElem?_cons_zero,
        Option.any_some, holds_equals]
      rfl
    · exact Outlook.allows_gained _

theorem beforeArrow_mark (arrow : Arrow tail) (detached : Token.detached before = true)
    (offset : Nat) (chars : List Char) (previous : Option Token) :
    ((mark offset chars).beforeArrow before.length).allows
      ((mark offset chars).holds ⟨previous, before⟩)
      ((mark offset chars).holds ⟨previous, before ++ tail⟩) = true := by
  simp only [beforeArrow, holds]
  split
  · next empty =>
    rw [List.isEmpty_iff.mp empty]
    exact Outlook.allows_same
  next some =>
  split
  · next inside =>
    have same := Token.spell_inside inside [] tail
    rw [List.append_nil] at same
    rw [same]
    exact Outlook.allows_same
  next crosses =>
  rw [spell_short (by simpa using some) (Nat.lt_of_not_le crosses)]
  split
  · exact Outlook.allows_gained _
  next reaches =>
  split
  · exact Outlook.allows_gained _
  · next apart =>
    -- No mark of the grammar goes over the end, so the answer is no on both lists.
    have crossing : Token.spell chars ((before ++ tail).drop offset) = false := by
      rw [Bool.eq_false_iff]
      intro spelled
      rw [List.drop_append_of_le_length (by omega)] at spelled
      have inside := arrow_of_spell arrow (detached_drop detached offset)
        (by rw [List.length_drop]; omega) spelled
      rw [List.length_drop] at inside
      exact apart ⟨inside.1, fun lt => inside.2 (by omega)⟩
    rw [crossing]
    rfl

theorem beforeArrow_sound (arrow : Arrow tail) (detached : Token.detached before = true)
    (look : Look) (previous : Option Token) :
    (look.beforeArrow before.length).allows (look.holds ⟨previous, before⟩)
      (look.holds ⟨previous, before ++ tail⟩) = true := by
  induction look with
  | token offset test => exact beforeArrow_token arrow offset test previous
  | mark offset chars => exact beforeArrow_mark arrow detached offset chars previous
  | atEnd =>
    obtain ⟨span, joint, span', rest⟩ := arrow
    simp only [beforeArrow, holds]
    split
    · next empty =>
      rw [List.length_eq_zero_iff.mp empty]
      rfl
    · next some =>
      obtain ⟨token, before, rfl⟩ := List.exists_cons_of_length_pos (Nat.pos_of_ne_zero some)
      rfl
  | afterBrace => exact Outlook.allows_same
  | fn qualifiers =>
    simp only [beforeArrow, holds, fnFollows_arrow arrow]
    exact Outlook.allows_same
  | not look ih => exact Outlook.allows_not ih
  | and left right ih₁ ih₂ => exact Outlook.allows_and ih₁ ih₂
  | or left right ih₁ ih₂ => exact Outlook.allows_or ih₁ ih₂

end

end Look

namespace Rule

/-- A run of the rule that leaves `slack` tokens does not see an arrow behind them. -/
def extensible : Nat → Production → Bool
  | slack, .seq first second => first.extensible (slack + second.least) && second.extensible slack
  | slack, .ite look yes no =>
    look.steadyFrom (slack + min yes.least no.least) && yes.extensible slack && no.extensible slack
  | slack, .call nonterminal => nonterminal.clearance.any fun least => decide (least ≤ slack)
  | _, _ => true

end Rule

theorem Nonterminal.extensible {nonterminal : Nonterminal} {slack : Nat}
    (known : nonterminal.clearance = some slack) : nonterminal.rule.extensible slack = true := by
  cases nonterminal with
  | path x | pathTail x | pathSegment x | type x | bounds x => cases x <;> cases known <;> rfl
  | _ => cases known <;> rfl

namespace Rule

theorem holds_of_steadyFrom {look : Look} {least : Nat} (steady : look.steadyFrom least = true)
    {before tail : List Token} (le : least ≤ before.length) (arrow : Arrow tail)
    (detached : Token.detached before = true) (previous : Option Token) :
    look.holds ⟨previous, before ++ tail⟩ = look.holds ⟨previous, before⟩ := by
  obtain ⟨far, near⟩ := Bool.and_eq_true_iff.mp steady
  have settled : (look.beforeArrow before.length).settled = true := by
    by_cases lt : look.reach < before.length
    · rwa [Look.beforeArrow_of_reach lt]
    · have here := List.all_eq_true.mp near before.length (List.mem_range.mpr (by omega))
      rcases Bool.or_eq_true_iff.mp here with less | settled
      · have := of_decide_eq_true less
        omega
      · exact settled
  exact (Outlook.eq_of_settled settled (Look.beforeArrow_sound arrow detached look previous)).symm

/-- A run is the same when an arrow comes behind the tokens. -/
theorem Runs.extend {budget : Nat} {rule : Production} {previous previous' : Option Token}
    {before after tail : List Token} {slack : Nat} {ahead : Option Look}
    (run : Runs budget rule ⟨previous, before⟩ ⟨previous', after⟩) (arrow : Arrow tail)
    (detached : Token.detached before = true) (le : slack ≤ after.length)
    (extensible : rule.extensible slack = true) (cautious : rule.cautious ahead = true)
    (known : ahead.all (·.holds ⟨previous, before⟩) = true) :
    Runs budget rule ⟨previous, before ++ tail⟩ ⟨previous', after ++ tail⟩ := by
  generalize hcursor : Cursor.mk previous before = cursor at run
  generalize hfinal : Cursor.mk previous' after = final at run
  induction run generalizing previous previous' before after slack ahead with
  | done =>
    subst hcursor
    cases hfinal
    exact .done
  | @skip _ count cursor =>
    subst hcursor
    have skips : Runs 0 (.skip count) ⟨previous, before⟩
        (Cursor.advance count ⟨previous, before⟩) := .skip
    have taken := skips.least_le_of_cautious cautious known
    have count_le : count ≤ before.length := by
      simp only [least] at taken
      omega
    have skipped : Cursor.mk previous' (after ++ [])
        = Cursor.advance count ⟨previous, before ++ []⟩ := by
      rw [List.append_nil, List.append_nil, hfinal]
    rw [advance_frame count_le skipped tail]
    exact .skip
  | @seq _ first second cursor middle final run₁ run₂ ih₁ ih₂ =>
    subst hcursor hfinal
    obtain ⟨firstExtensible, secondExtensible⟩ := Bool.and_eq_true_iff.mp extensible
    obtain ⟨firstCautious, secondCautious⟩ := Bool.and_eq_true_iff.mp cautious
    obtain ⟨previous'', rest⟩ := middle
    have taken : after.length + second.least ≤ rest.length :=
      run₂.least_le_of_cautious secondCautious rfl
    obtain ⟨passed, passes⟩ := run₁.passes
    have restDetached : Token.detached rest = true := by
      have whole : before = passed ++ rest := passes.rest
      have dropped := Look.detached_drop detached passed.length
      rwa [whole, List.drop_left] at dropped
    exact .seq (ih₁ detached (by omega) firstExtensible firstCautious known rfl rfl)
      (ih₂ restDetached le secondExtensible secondCautious rfl rfl rfl)
  | @yes _ look yes no cursor final holds run ih =>
    subst hcursor hfinal
    obtain ⟨both, _⟩ := Bool.and_eq_true_iff.mp extensible
    obtain ⟨steady, yesExtensible⟩ := Bool.and_eq_true_iff.mp both
    obtain ⟨yesCautious, -⟩ := Bool.and_eq_true_iff.mp cautious
    have taken : after.length + yes.least ≤ before.length :=
      run.least_le_of_cautious yesCautious holds
    have same := holds_of_steadyFrom steady (by omega) arrow detached previous
    exact .yes (same.trans holds) (ih detached le yesExtensible yesCautious holds rfl rfl)
  | @no _ look yes no cursor final fails run ih =>
    subst hcursor hfinal
    obtain ⟨both, noExtensible⟩ := Bool.and_eq_true_iff.mp extensible
    obtain ⟨steady, -⟩ := Bool.and_eq_true_iff.mp both
    obtain ⟨-, noCautious⟩ := Bool.and_eq_true_iff.mp cautious
    have taken : after.length + no.least ≤ before.length :=
      run.least_le_of_cautious noCautious rfl
    have same := holds_of_steadyFrom steady (by omega) arrow detached previous
    exact .no (same.trans fails) (ih detached le noExtensible noCautious rfl rfl rfl)
  | @call _ nonterminal cursor final run ih =>
    obtain ⟨least, isClearance, enough⟩ := (Option.any_eq_true _ _).mp extensible
    have least_le := of_decide_eq_true enough
    exact .call (ih detached (Nat.le_trans least_le le) (Nonterminal.extensible isClearance)
      (Nonterminal.cautious cautious) rfl hcursor hfinal)
  | @within _ delimiter inner cursor content span rest final inside run ending =>
    subst hcursor
    cases inside
    cases hfinal
    exact .within rfl run ending

end Rule

end AliasExpansion
