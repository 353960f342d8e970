-- SUMMARY: An expression is read alike when the tokens behind it are cut off.
import AliasExpansion.Proofs.Grammar.Ending
import AliasExpansion.Proofs.Grammar.Frame
import AliasExpansion.Proofs.Grammar.Previous

/-!
# Truncation

A run that ends before the end of the tokens is the same run when the tokens behind it are cut off
(`Runs.cut`). A lookahead that had seen the tokens behind the cut may lose its answer, but then the
run would have taken some of them. So it remains that no punctuation mark goes over the cut
(`Sealed`), and that a rule which is run at the cut stops there (`Rule.rests`). `Rule.cuttable`
checks this over the text of a rule. It is true of expressions and of what they are made of, but not
of statements: where a statement may end depends on what comes next.
-/

namespace AliasExpansion

-- ---------------------------------------------------------------------------
-- Marks at the cut
-- ---------------------------------------------------------------------------

namespace Grammar

/-- The beginnings of punctuation marks that do not go on with `=` or `>`. -/
def twins : List (Char × Char) :=
  [('<', '<'), ('<', '-'), ('.', '.'), (':', ':'), ('&', '&'), ('|', '|')]

/-- The characters may stand one behind the other in a punctuation mark. -/
def joins (c d : Char) : Bool :=
  d == '=' || d == '>' || twins.contains (c, d)

/-- All neighbours in the punctuation mark may stand in one. -/
def joined : List Char → Bool
  | c :: d :: chars => joins c d && joined (d :: chars)
  | _ => true

end Grammar

/-- No punctuation mark starts before the cut and ends behind it. -/
def Sealed (before old : List Token) : Prop :=
  ∀ c joint span d joint' span' tail, before.getLast? = some (.punct c joint span) →
    old = .punct d joint' span' :: tail → Grammar.joins c d = false

theorem Sealed.nil {before : List Token} : Sealed before [] := nofun

theorem Sealed.suffix {front before old : List Token} (sealed : Sealed (front ++ before) old) :
    Sealed before old := by
  intro c joint span d joint' span' tail last first
  refine sealed c joint span d joint' span' tail ?_ first
  rw [List.getLast?_append, last]
  rfl

namespace Token

variable {chars : List Char} {before old : List Token}

theorem spell_nil (some : ¬chars.isEmpty) : spell chars [] = false := by
  rcases chars with _ | ⟨c, _ | _⟩
  · exact absurd rfl some
  · rfl
  · rfl

/-- A mark that ends before the cut does not depend on what stands behind it. -/
theorem spell_before (le : chars.length ≤ before.length) (old new : List Token) :
    spell chars (before ++ old) = spell chars (before ++ new) := by
  obtain ⟨start, h⟩ := spell_append chars before
  rw [h old, h new, List.drop_eq_nil_of_le le]
  rfl

theorem spell_inside {offset : Nat} (le : offset + chars.length ≤ before.length)
    (old new : List Token) :
    spell chars ((before ++ old).drop offset) = spell chars ((before ++ new).drop offset) := by
  have le' : chars.length ≤ (before.drop offset).length := by
    rw [List.length_drop]
    omega
  rw [List.drop_append_of_le_length (by omega), List.drop_append_of_le_length (by omega)]
  exact spell_before le' old new

/-- No mark goes over a sealed cut. -/
theorem spell_sealed (sealed : Sealed before old) (joined : Grammar.joined chars = true)
    (ne : before ≠ []) (longer : before.length < chars.length) :
    spell chars (before ++ old) = false := by
  induction before generalizing chars with
  | nil => exact absurd rfl ne
  | cons token before ih =>
    match chars with
    | [] | [c] => simp at longer
    | c :: d :: chars =>
      rw [Grammar.joined, Bool.and_eq_true] at joined
      rw [List.cons_append, spell_cons, List.tail_cons, Bool.and_eq_false_iff]
      by_cases last : before = []
      · subst last
        refine Decidable.or_iff_not_imp_left.mpr fun start => Bool.eq_false_iff.mpr fun more => ?_
        rw [Bool.not_eq_false] at start
        obtain ⟨start, -⟩ := Bool.and_eq_true_iff.mp start
        obtain ⟨joint, span, rest, first⟩ := eq_of_spell start
        obtain ⟨joint', span', tail, second⟩ := eq_of_spell more
        -- The last token before the cut is `c`, so the first one behind it cannot be `d`.
        have apart := sealed c joint span d joint' span' tail
          (congrArg some (List.cons.inj first).1) second
        rw [joined.1] at apart
        cases apart
      · have sealed : Sealed ([token] ++ before) old := sealed
        refine .inr (ih sealed.suffix joined.2 last ?_)
        simpa using longer

/-- A function that follows before the cut still follows when more tokens come. -/
theorem fnFollows_more {qualifiers : List String} {before : List Token}
    (h : fnFollows qualifiers before = true) (old : List Token) :
    fnFollows qualifiers (before ++ old) = true := by
  match before with
  | [] | .literal _ :: _ | .punct _ _ _ :: _ | .group _ _ _ :: _ => cases h
  | .ident name span :: before =>
    cases known : qualifiers.contains name with
    | false =>
      rw [fnFollows_unknown known] at h
      rw [List.cons_append, fnFollows_unknown known]
      exact h
    | true =>
      match before with
      | [] =>
        rw [fnFollows_known known (by simp)] at h
        cases h
      | .literal lit :: before =>
        rw [fnFollows_literal known, Bool.and_eq_true] at h
        rw [List.cons_append, List.cons_append, fnFollows_literal known, h.1, Bool.true_and]
        exact fnFollows_more h.2 old
      | .ident _ _ :: _ | .punct _ _ _ :: _ | .group _ _ _ :: _ =>
        rw [fnFollows_known known (by simp)] at h
        rw [List.cons_append, fnFollows_known known (by simp)]
        exact fnFollows_more h old

end Token

-- ---------------------------------------------------------------------------
-- Lookahead over the cut
-- ---------------------------------------------------------------------------

/-- What has succeeded may fail. -/
def Outlook.lost : Outlook := ⟨false, true, false⟩

theorem Outlook.allows_lost (old : Bool) : lost.allows old false = true := by
  cases old <;> rfl

namespace Look

/-- How the answer may differ when the tokens behind the next `count` ones are cut off. -/
def cut (count : Nat) : Look → Outlook
  | .token offset _ => if offset < count then .same else .lost
  | .mark offset chars =>
    if offset + chars.length ≤ count then .same
    else if offset < count then if Grammar.joined chars then .never else .any
    else if chars.isEmpty then .any else .lost
  | .atEnd | .afterBrace => .same
  | .fn _ => ⟨true, true, false⟩
  | .not look => (look.cut count).not
  | .and left right => (left.cut count).and (right.cut count)
  | .or left right => (left.cut count).or (right.cut count)

theorem cut_of_reach {count : Nat} {look : Look} (far : look.reach < count) :
    look.cut count = look.cut (look.reach + 1) := by
  suffices ∀ {more}, look.reach < more → look.reach < count → look.cut count = look.cut more from
    this (Nat.lt_succ_self _) far
  clear far
  intro more lt far
  induction look with
  | token offset test =>
    simp only [reach] at lt far
    simp only [cut, if_pos (show offset < count by omega), if_pos (show offset < more by omega)]
  | mark offset chars =>
    simp only [reach] at lt far
    simp only [cut, if_pos (show offset + chars.length ≤ count by omega),
      if_pos (show offset + chars.length ≤ more by omega)]
  | atEnd | afterBrace | fn => rfl
  | not look ih => simp only [cut, ih lt far]
  | and left right ih₁ ih₂ | or left right ih₁ ih₂ =>
    simp only [reach, Nat.max_lt] at lt far
    simp only [cut, ih₁ lt.1 far.1, ih₂ lt.2 far.2]

/-- A mark that would go over the cut is not there, be the tokens behind the cut there or not. -/
theorem cut_sound_mark {before old : List Token} (sealed : Sealed before old) (offset : Nat)
    (chars : List Char) (previous : Option Token) :
    ((mark offset chars).cut before.length).allows
      ((mark offset chars).holds ⟨previous, before ++ old⟩)
      ((mark offset chars).holds ⟨previous, before⟩) = true := by
  simp only [cut, holds]
  split
  · next inside =>
    rw [Token.spell_inside inside old [], List.append_nil]
    exact Outlook.allows_same
  · next crosses =>
    split
    · next starts =>
      split
      · next joined =>
        have split : before.take offset ++ before.drop offset = before :=
          List.take_append_drop offset before
        have some : before.drop offset ≠ [] := by
          rw [ne_eq, List.drop_eq_nil_iff]
          omega
        have sealed : Sealed (before.drop offset) old := (split ▸ sealed).suffix
        have longer : (before.drop offset).length < chars.length := by
          rw [List.length_drop]
          omega
        have lost := Token.spell_sealed .nil joined some longer
        rw [List.append_nil] at lost
        rw [List.drop_append_of_le_length (Nat.le_of_lt starts),
          Token.spell_sealed sealed joined some longer, lost]
        rfl
      · exact Outlook.allows_any
    · next behind =>
      split
      · exact Outlook.allows_any
      · next some =>
        have lost : Token.spell chars (before.drop offset) = false := by
          rw [List.drop_eq_nil_of_le (Nat.le_of_not_lt behind)]
          exact Token.spell_nil some
        rw [lost]
        exact Outlook.allows_lost _

theorem cut_sound {before old : List Token} (ne : before ≠ []) (sealed : Sealed before old)
    (look : Look) (previous : Option Token) :
    (look.cut before.length).allows (look.holds ⟨previous, before ++ old⟩)
      (look.holds ⟨previous, before⟩) = true := by
  induction look with
  | token offset test =>
    simp only [cut, holds]
    split
    · next inside =>
      rw [List.getElem?_append_left inside]
      exact Outlook.allows_same
    · next outside =>
      rw [List.getElem?_eq_none (Nat.le_of_not_lt outside)]
      exact Outlook.allows_lost _
  | mark offset chars => exact cut_sound_mark sealed offset chars previous
  | atEnd =>
    have more : ∀ tokens, (Cursor.mk previous (before ++ tokens)).atEnd = false := by
      intro tokens
      simp [Cursor.atEnd, ne]
    have here := more []
    rw [List.append_nil] at here
    simp only [holds, more, here]
    rfl
  | afterBrace => exact Outlook.allows_same
  | fn qualifiers =>
    simp only [holds]
    cases new : Token.fnFollows qualifiers before with
    | true =>
      rw [Token.fnFollows_more new old]
      rfl
    | false => cases Token.fnFollows qualifiers (before ++ old) <;> rfl
  | not look ih => exact Outlook.allows_not ih
  | and left right ih₁ ih₂ => exact Outlook.allows_and ih₁ ih₂
  | or left right ih₁ ih₂ => exact Outlook.allows_or ih₁ ih₂

end Look

-- ---------------------------------------------------------------------------
-- At the end of the tokens
-- ---------------------------------------------------------------------------

namespace Rule

/-- The rule runs at the end of the tokens, where it takes nothing. It may call the nonterminals in
    `calls`. -/
def idle (calls : Nonterminal → Bool) : Production → Bool
  | .done | .skip _ => true
  | .seq first second => first.idle calls && second.idle calls
  | .ite look yes no =>
    !look.looksBack && if look.holds (.start []) then yes.idle calls else no.idle calls
  | .call nonterminal => calls nonterminal
  | .fail _ | .within _ _ => false

/-- A run that takes nothing where something is left takes nothing at the end either. -/
def rests (rule : Production) : Bool :=
  decide (0 < rule.least) || rule.idle fun nonterminal => nonterminal.rule.idle fun _ => false

theorem Runs.of_idle {calls : Nonterminal → Bool} {rule : Production}
    (idle : rule.idle calls = true) {previous : Option Token} {budget : Nat}
    (called : ∀ nonterminal, calls nonterminal = true →
      Runs budget (.call nonterminal) ⟨previous, []⟩ ⟨previous, []⟩) :
    Runs budget rule ⟨previous, []⟩ ⟨previous, []⟩ := by
  induction rule with
  | done => exact .done
  | skip count =>
    have run : Runs budget (.skip count) ⟨previous, []⟩ (Cursor.advance count ⟨previous, []⟩) :=
      .skip
    rwa [Cursor.advance_nil] at run
  | seq first second ih₁ ih₂ =>
    obtain ⟨first, second⟩ := Bool.and_eq_true_iff.mp idle
    exact .seq (ih₁ first) (ih₂ second)
  | ite look yes no ih₁ ih₂ =>
    obtain ⟨forward, branch⟩ := Bool.and_eq_true_iff.mp idle
    have same : look.holds ⟨previous, []⟩ = look.holds (.start []) :=
      Look.holds_of_rest (by simpa using forward) rfl
    split at branch
    · next holds => exact .yes (same.trans holds) (ih₁ branch)
    · next fails => exact .no (same.trans (Bool.not_eq_true _ ▸ fails)) (ih₂ branch)
  | call nonterminal => exact called nonterminal idle
  | fail | within => cases idle

/-- A run that takes nothing in front of other tokens takes nothing at the end of the tokens. -/
theorem Runs.cut_empty {budget : Nat} {rule : Production} {previous previous' : Option Token}
    {after old : List Token} (left : old ≠ [])
    (run : Runs budget rule ⟨previous, [] ++ old⟩ ⟨previous', after ++ old⟩)
    (rests : rule.rests = true) : ∃ more, Runs more rule ⟨previous, []⟩ ⟨previous', after⟩ := by
  have taken := run.least_le_before left
  rw [List.length_nil] at taken
  obtain rfl : after = [] := List.length_eq_zero_iff.mp (by omega)
  have still := run.eq_of_length (Nat.le_refl _)
  cases still
  rcases Bool.or_eq_true_iff.mp rests with pos | idle
  · have := of_decide_eq_true pos
    omega
  · exact ⟨1, .of_idle idle fun _ called => .call (.of_idle called nofun)⟩

end Rule

-- ---------------------------------------------------------------------------
-- Runs before the cut
-- ---------------------------------------------------------------------------

/-- How many tokens the nonterminal must leave before the cut, if it can be run before one. -/
def Nonterminal.margin : Nonterminal → Option Nat
  | .path _ | .pathTail _ | .pathSegment _ | .genericArgs | .qualifiedPath | .qualifiedPathTail
  | .type _ | .fnPointer | .forLifetimes | .lifetimeList | .bounds _ | .boundsTail | .typeBounds
  | .bound | .binary _ _ | .binaryTail _ _ | .unary _ | .postfixTail | .primary _ | .pathExpr _
  | .ifExpr | .closure | .outerAttrs => some 0
  | .condition | .genericArg | .genericArgList | .pattern | .patternAlternatives | .patternAtom
  | .rangePatternEnd | .rangeBound | .closureParams => some 1
  | _ => none

namespace Rule

/-- Where the lookahead may change its answer, the branch takes tokens from behind the cut. -/
def keepsCut (slack : Nat) (yes no : Production) : Look → Bool
  | .fn qualifiers => !(qualifiers.contains "fn") && yes.callsFn
  | look => (look.cut (look.reach + 1)).settled && (List.range look.reach).all fun count =>
    (!(look.cut (count + 1)).drops || decide (count + 1 < yes.least + slack)) &&
      (!(look.cut (count + 1)).rises || decide (count + 1 < no.least + slack))

/-- A run of the rule that leaves `slack` tokens before the cut does not need those behind it. -/
def cuttable : Nat → Production → Bool
  | slack, .seq first second =>
    first.cuttable (slack + second.least) && second.cuttable slack
      && (decide (0 < slack) || second.rests)
  | slack, .ite look yes no => keepsCut slack yes no look && yes.cuttable slack && no.cuttable slack
  | slack, .call nonterminal => nonterminal.margin.any fun margin => decide (margin ≤ slack)
  | _, _ => true

end Rule

theorem Nonterminal.cuttable {nonterminal : Nonterminal} {margin : Nat}
    (isMargin : nonterminal.margin = some margin) : nonterminal.rule.cuttable margin = true := by
  cases nonterminal with
  | binaryTail minPrecedence position =>
    cases isMargin
    match minPrecedence with
    | 0 | 1 | 2 | 3 | 4 | 5 | 6 | 7 | 8 | 9 | 10 | 11 | n + 12 => cases position <;> rfl
  | path x | pathTail x | pathSegment x | type x | bounds x | unary x | primary x | pathExpr x
  | binary n x => cases isMargin; cases x <;> rfl
  | _ => cases isMargin <;> rfl

namespace Rule

variable {before old : List Token} {slack : Nat} {look : Look} {yes no : Production}

theorem bounds_of_keepsCut (keeps : keepsCut slack yes no look = true)
    (plain : ∀ qualifiers, look ≠ .fn qualifiers) {count : Nat} (pos : 0 < count) :
    ((look.cut count).drops = true → count < yes.least + slack)
      ∧ ((look.cut count).rises = true → count < no.least + slack) := by
  unfold keepsCut at keeps
  split at keeps
  · next qualifiers => exact absurd rfl (plain qualifiers)
  · obtain ⟨far, near⟩ := Bool.and_eq_true_iff.mp keeps
    by_cases lt : look.reach < count
    · rw [Look.cut_of_reach lt]
      unfold Outlook.settled at far
      constructor
      · intro drops
        simp [drops] at far
      · intro rises
        simp [rises] at far
    · have here := List.all_eq_true.mp near (count - 1) (List.mem_range.mpr (by omega))
      rw [Nat.sub_add_cancel pos] at here
      simpa [Decidable.imp_iff_not_or] using here

/-- A lookahead keeps its answer when the tokens behind the cut go, if the branch that it chooses
    ends before the cut. -/
theorem Runs.keeps_cut {budget : Nat} {previous previous' : Option Token} {after : List Token}
    (answer : Bool) (left : old ≠ []) (ne : before ≠ []) (sealed : Sealed before old)
    (le : slack ≤ after.length) (keeps : keepsCut slack yes no look = true)
    (run : Runs budget (if answer then yes else no) ⟨previous, before ++ old⟩
      ⟨previous', after ++ old⟩)
    (holds : look.holds ⟨previous, before ++ old⟩ = answer) :
    look.holds ⟨previous, before⟩ = answer := by
  have sound := look.cut_sound ne sealed previous
  have taken := run.least_le_before left
  have pos := List.length_pos_iff.mpr ne
  cases h : look.holds ⟨previous, before⟩ with
  | true =>
    cases answer with
    | true => rfl
    | false =>
      -- The answer was gained, so the other branch has taken too much to end before the cut.
      rw [holds, h] at sound
      by_cases plain : ∀ qualifiers, look ≠ .fn qualifiers
      · have := (bounds_of_keepsCut keeps plain pos).2 sound
        simp only [Bool.false_eq_true, if_false] at taken
        omega
      · obtain ⟨qualifiers, rfl⟩ := Classical.not_forall_not.mp plain
        cases sound
  | false =>
    cases answer with
    | false => rfl
    | true =>
      rw [holds, h] at sound
      by_cases plain : ∀ qualifiers, look ≠ .fn qualifiers
      · have := (bounds_of_keepsCut keeps plain pos).1 sound
        simp only [if_true] at taken
        omega
      · -- The word `fn` was passed before the cut, so it is still there.
        obtain ⟨qualifiers, rfl⟩ := Classical.not_forall_not.mp plain
        obtain ⟨unqualified, calls⟩ := Bool.and_eq_true_iff.mp keeps
        have kept : Keeps (fun _ => True) old [] slack (.fn qualifiers) yes true :=
          keeps_fn (by simpa using unqualified) (passesFn_of_callsFn calls)
        have still := kept _ _ _ _ _ trivial le run holds
        rw [List.append_nil, h] at still
        exact still

theorem Runs.cut_some {budget : Nat} {rule : Production} {previous previous' : Option Token}
    {after : List Token} (left : old ≠ [])
    (run : Runs budget rule ⟨previous, before ++ old⟩ ⟨previous', after ++ old⟩)
    (ne : before ≠ []) (sealed : Sealed before old) (le : slack ≤ after.length)
    (cuttable : rule.cuttable slack = true) :
    ∃ more, Runs more rule ⟨previous, before⟩ ⟨previous', after⟩ := by
  generalize hcursor : Cursor.mk previous (before ++ old) = cursor at run
  generalize hfinal : Cursor.mk previous' (after ++ old) = final at run
  induction run generalizing previous previous' before after slack with
  | done =>
    subst hcursor
    simp only [Cursor.mk.injEq, List.append_left_inj] at hfinal
    obtain ⟨rfl, rfl⟩ := hfinal
    exact ⟨0, .done⟩
  | skip =>
    subst hcursor
    have skipped := advance_frame (le_of_advance (by simp [left]) hfinal) hfinal []
    rw [List.append_nil, List.append_nil] at skipped
    rw [skipped]
    exact ⟨0, .skip⟩
  | @seq _ first second cursor middle final run₁ run₂ ih₁ ih₂ =>
    subst hcursor hfinal
    obtain ⟨both, rests⟩ := Bool.and_eq_true_iff.mp cuttable
    obtain ⟨firstCuttable, secondCuttable⟩ := Bool.and_eq_true_iff.mp both
    obtain ⟨passed, hpassed⟩ := run₂.passes
    obtain ⟨previous'', rest⟩ := middle
    obtain rfl : rest = passed ++ after ++ old := by
      rw [List.append_assoc]
      exact hpassed.rest
    have taken := run₂.least_le_before left
    have enough : slack + second.least ≤ (passed ++ after).length := by omega
    obtain ⟨more₁, run₁'⟩ := ih₁ ne sealed enough firstCuttable rfl rfl
    have run₂' : ∃ more, Runs more second ⟨previous'', passed ++ after⟩ ⟨previous', after⟩ := by
      by_cases ending : passed ++ after = []
      · obtain ⟨rfl, rfl⟩ := List.append_eq_nil_iff.mp ending
        obtain rfl : slack = 0 := Nat.le_zero.mp le
        have run₂ : Runs _ second ⟨previous'', [] ++ old⟩ ⟨previous', [] ++ old⟩ := run₂
        exact run₂.cut_empty left rests
      · obtain ⟨front, rfl, -⟩ := run₁.passed_before
        exact ih₂ ending sealed.suffix le secondCuttable rfl rfl
    obtain ⟨more₂, run₂'⟩ := run₂'
    exact ⟨max more₁ more₂, .seq (run₁'.mono (Nat.le_max_left _ _))
      (run₂'.mono (Nat.le_max_right _ _))⟩
  | yes holds run ih =>
    subst hcursor hfinal
    obtain ⟨both, noCuttable⟩ := Bool.and_eq_true_iff.mp cuttable
    obtain ⟨keeps, yesCuttable⟩ := Bool.and_eq_true_iff.mp both
    obtain ⟨more, run'⟩ := ih ne sealed le yesCuttable rfl rfl
    exact ⟨more, .yes (run.keeps_cut true left ne sealed le keeps holds) run'⟩
  | no fails run ih =>
    subst hcursor hfinal
    obtain ⟨both, noCuttable⟩ := Bool.and_eq_true_iff.mp cuttable
    obtain ⟨keeps, yesCuttable⟩ := Bool.and_eq_true_iff.mp both
    obtain ⟨more, run'⟩ := ih ne sealed le noCuttable rfl rfl
    exact ⟨more, .no (run.keeps_cut false left ne sealed le keeps fails) run'⟩
  | @call _ nonterminal _ _ run ih =>
    obtain ⟨margin, isMargin, enough⟩ := (Option.any_eq_true _ _).mp cuttable
    have margin_le := of_decide_eq_true enough
    obtain ⟨more, run'⟩ := ih ne sealed (Nat.le_trans margin_le le) (Nonterminal.cuttable isMargin)
      hcursor hfinal
    exact ⟨more + 1, .call run'⟩
  | within rest run ending =>
    subst hcursor
    have pos := le_of_advance (by simp [left]) hfinal
    obtain ⟨tail, rest⟩ := cons_frame pos rest []
    have passed := advance_frame pos hfinal []
    rw [List.append_nil] at rest
    rw [List.append_nil, List.append_nil] at passed
    rw [passed]
    exact ⟨_, .within rest run ending⟩

/-- A run that ends before the cut is the same run when the tokens behind the cut go. -/
theorem Runs.cut {budget : Nat} {rule : Production} {previous previous' : Option Token}
    {after : List Token} (left : old ≠ [])
    (run : Runs budget rule ⟨previous, before ++ old⟩ ⟨previous', after ++ old⟩)
    (sealed : Sealed before old) (cuttable : rule.cuttable 0 = true) (rests : rule.rests = true) :
    ∃ more, Runs more rule ⟨previous, before⟩ ⟨previous', after⟩ := by
  by_cases ne : before = []
  · subst ne
    exact run.cut_empty left rests
  · exact run.cut_some left ne sealed (Nat.zero_le _) cuttable

end Rule

end AliasExpansion
