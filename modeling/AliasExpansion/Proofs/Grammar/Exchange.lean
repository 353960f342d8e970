-- SUMMARY: Exchanging the contents of groups that a run enters.
import AliasExpansion.Proofs.Grammar.Lookahead
import AliasExpansion.Proofs.Grammar.Reach

/-!
# Exchanging contents

A run that enters some groups goes on as before when the contents of these groups are exchanged
for others that follow the same rules. Contents are named by their place: the number of tokens
from their group to the end of the list. Only one lookahead of the grammar reads the content of a
group, and a run that it succeeds on skips the group, so the group is not one that the run enters.
-/

namespace AliasExpansion

-- ---------------------------------------------------------------------------
-- Exchanged contents
-- ---------------------------------------------------------------------------

namespace Token

/-- The token with its content changed, if it is a group. -/
def mapContent (change : List Token → List Token) : Token → Token
  | .group delimiter content span => .group delimiter (change content) span
  | token => token

/-- The tokens with the contents of their groups exchanged. -/
def exchange (swap : Nat → List Token → List Token) : List Token → List Token
  | [] => []
  | token :: rest => token.mapContent (swap (rest.length + 1)) :: exchange swap rest

variable {swap : Nat → List Token → List Token} {tokens : List Token}

@[simp] theorem length_exchange : (exchange swap tokens).length = tokens.length := by
  induction tokens with
  | nil => rfl
  | cons token rest ih => simp only [exchange, List.length_cons, ih]

theorem exchange_drop (count : Nat) :
    (exchange swap tokens).drop count = exchange swap (tokens.drop count) := by
  induction count generalizing tokens with
  | zero => rfl
  | succ count ih =>
    cases tokens with
    | nil => rfl
    | cons token rest => exact ih

theorem getElem?_exchange (place : Nat) :
    ∃ change, (exchange swap tokens)[place]? = tokens[place]?.map (mapContent change) := by
  induction tokens generalizing place with
  | nil => exact ⟨id, rfl⟩
  | cons token rest ih =>
    cases place with
    | zero => exact ⟨_, rfl⟩
    | succ place =>
      obtain ⟨change, h⟩ := ih place
      exact ⟨change, h⟩

theorem group_of_exchange {delimiter : Delimiter} {content tail : List Token} {span : Span}
    (h : exchange swap tokens = .group delimiter content span :: tail) :
    ∃ old rest, tokens = .group delimiter old span :: rest
      ∧ content = swap (rest.length + 1) old := by
  rcases tokens with _ | ⟨_ | _ | _ | ⟨_, old, _⟩, rest⟩
  any_goals cases h
  exact ⟨old, rest, rfl, rfl⟩

theorem spell_exchange (chars : List Char) :
    spell chars (exchange swap tokens) = spell chars tokens := by
  induction chars generalizing tokens with
  | nil => rfl
  | cons c chars ih =>
    rcases tokens with _ | ⟨_ | _ | _ | _, rest⟩
    · rfl
    · cases chars <;> rfl
    · cases chars with
      | nil => rfl
      | cons d chars => simp only [exchange, mapContent, spell, ih]
    · cases chars <;> rfl
    · cases chars <;> rfl

theorem fnFollows_exchange {qualifiers : List String} (tokens : List Token) :
    fnFollows qualifiers (exchange swap tokens) = fnFollows qualifiers tokens := by
  match tokens with
  | [] | .punct _ _ _ :: _ | .literal _ :: _ | .group _ _ _ :: _ => rfl
  | .ident name span :: rest =>
    cases known : qualifiers.contains name with
    | false => exact (fnFollows_unknown known _).trans (fnFollows_unknown known _).symm
    | true =>
      match rest with
      | [] => rfl
      | .literal lit :: rest =>
        simp only [exchange, mapContent, fnFollows_literal known]
        rw [fnFollows_exchange rest]
      | .ident name' span' :: rest =>
        rw [fnFollows_known known (by simp), ← fnFollows_exchange (.ident name' span' :: rest)]
        exact fnFollows_known known (by simp [exchange, mapContent])
      | .punct _ _ _ :: _ | .group _ _ _ :: _ =>
        rw [fnFollows_known known (by simp)]
        exact fnFollows_known known (by simp [exchange, mapContent])

end Token

-- ---------------------------------------------------------------------------
-- Lookahead
-- ---------------------------------------------------------------------------

/-- The cursor with the contents of the groups behind it exchanged. The token before it may have
    another content too. -/
structure Cursor.Exchanged (swap : Nat → List Token → List Token) (cursor other : Cursor) :
    Prop where
  rest : other.rest = Token.exchange swap cursor.rest
  previous : other.previous.any Token.isBraceGroup = cursor.previous.any Token.isBraceGroup

theorem Cursor.Exchanged.advance {swap : Nat → List Token → List Token} {cursor other : Cursor}
    (h : cursor.Exchanged swap other) (count : Nat) :
    (cursor.advance count).Exchanged swap (other.advance count) := by
  induction count generalizing cursor other with
  | zero => exact h
  | succ count ih =>
    obtain ⟨previous, _ | ⟨token, rest⟩⟩ := cursor
    · obtain ⟨previous', rest'⟩ := other
      obtain rfl : rest' = [] := h.rest
      exact h
    · obtain ⟨previous', rest'⟩ := other
      obtain rfl : rest' = _ :: _ := h.rest
      refine ih ⟨rfl, ?_⟩
      rcases token with _ | _ | _ | ⟨_ | _ | _ | _, _, _⟩ <;> rfl

/-- The lookahead reads the content of a group. -/
def Look.seesInside : Look → Bool
  | .token _ (.groupHead _ _) => true
  | .not look => look.seesInside
  | .and left right | .or left right => left.seesInside || right.seesInside
  | _ => false

theorem Look.holds_exchanged {look : Look} (outside : look.seesInside = false)
    {swap : Nat → List Token → List Token} {cursor other : Cursor}
    (h : cursor.Exchanged swap other) : look.holds other = look.holds cursor := by
  induction look with
  | token offset test =>
    obtain ⟨change, eq⟩ : ∃ change, (Token.exchange swap cursor.rest)[offset]?
        = cursor.rest[offset]?.map (Token.mapContent change) := Token.getElem?_exchange offset
    simp only [holds, h.rest, eq]
    cases cursor.rest[offset]? with
    | none => rfl
    | some token =>
      cases test <;> cases token <;> first | rfl | cases outside
  | mark offset chars =>
    simp only [holds, h.rest, Token.exchange_drop, Token.spell_exchange]
  | atEnd =>
    obtain ⟨_, rest⟩ := cursor
    simp only [holds, Cursor.atEnd, h.rest]
    cases rest <;> rfl
  | afterBrace => exact h.previous
  | fn qualifiers => simp only [holds, h.rest, Token.fnFollows_exchange]
  | not look ih => simp only [holds, ih outside]
  | and left right ih₁ ih₂ | or left right ih₁ ih₂ =>
    obtain ⟨leftOutside, rightOutside⟩ := Bool.or_eq_false_iff.mp outside
    simp only [holds, ih₁ leftOutside, ih₂ rightOutside]

namespace Rule

/-- The lookahead asks for the first word in a group. -/
def asksHead : Look → Bool
  | .token 0 (.groupHead _ _) => true
  | _ => false

def takesOne : Production → Bool
  | .skip 1 => true
  | _ => false

theorem eq_of_asksHead {look : Look} (h : asksHead look = true) :
    ∃ delimiter words, look = .token 0 (.groupHead delimiter words) := by
  unfold asksHead at h
  split at h
  · exact ⟨_, _, rfl⟩
  · cases h

theorem eq_of_takesOne {rule : Production} (h : rule.takesOne = true) : rule = .skip 1 := by
  unfold takesOne at h
  split at h
  · rfl
  · cases h

theorem group_of_holds {delimiter : Delimiter} {words : List String} {cursor : Cursor}
    (holds : (Look.token 0 (.groupHead delimiter words)).holds cursor = true) :
    ∃ name span rest span' tail, words.contains name = true
      ∧ cursor.rest = .group delimiter (.ident name span :: rest) span' :: tail := by
  obtain ⟨previous, _ | ⟨_ | _ | _ | ⟨d, _ | ⟨_ | _ | _ | _, content⟩, span⟩, rest⟩⟩ := cursor
  any_goals cases holds
  obtain ⟨same, known⟩ := Bool.and_eq_true_iff.mp holds
  obtain rfl : d = delimiter := of_decide_eq_true same
  exact ⟨_, _, _, _, _, known, rfl⟩

/-- Where the rule reads the content of a group, it skips the group. -/
def skipsHeads : Production → Bool
  | .seq first second => first.skipsHeads && second.skipsHeads
  | .ite look yes no =>
    (!look.seesInside || asksHead look && yes.takesOne) && yes.skipsHeads && no.skipsHeads
  | _ => true

end Rule

theorem Nonterminal.skipsHeads (nonterminal : Nonterminal) :
    nonterminal.rule.skipsHeads = true := by
  cases nonterminal with
  | binaryTail minPrecedence position =>
    match minPrecedence with
    | 0 | 1 | 2 | 3 | 4 | 5 | 6 | 7 | 8 | 9 | 10 | 11 | n + 12 => rfl
  | path x | pathTail x | pathSegment x | type x | bounds x | unary x | primary x | pathExpr x
  | list x | member x | members x | binary n x => cases x <;> rfl
  | _ => rfl

-- ---------------------------------------------------------------------------
-- Runs
-- ---------------------------------------------------------------------------

namespace Rule

/-- An exchanged content starts with a word only if the content did. -/
def KeepsHeads (swap : Nat → List Token → List Token) : Prop :=
  ∀ place content name span rest, swap place content = .ident name span :: rest →
    ∃ rest', content = .ident name span :: rest'

/-- The rule, run from `cursor`, enters the group at `place`, and what its content has to follow
    accepts the new content if it accepts the old one. -/
def Admits (swap : Nat → List Token → List Token) (rule : Production) (cursor : Cursor)
    (place : Nat) (content : List Token) : Prop :=
  ∃ delimiter inner entry, Reaches rule cursor (.within delimiter inner) entry
    ∧ entry.rest.length = place ∧ (inner.Accepts content → inner.Accepts (swap place content))

/-- Every group between the cursors whose content changes is admitted by the rule. -/
def AdmitsAll (swap : Nat → List Token → List Token) (rule : Production) (cursor final : Cursor) :
    Prop :=
  ∀ before delimiter content span after,
    cursor.rest = before ++ .group delimiter content span :: after →
    final.rest.length ≤ after.length → swap (after.length + 1) content ≠ content →
    Admits swap rule cursor (after.length + 1) content

section

variable {budget : Nat} {swap : Nat → List Token → List Token} {start next branch other : Production}
  {look : Look} {cursor middle final : Cursor}

theorem AdmitsAll.first (h : AdmitsAll swap (.seq start next) cursor final)
    (run : Runs budget start cursor middle) (le : final.rest.length ≤ middle.rest.length) :
    AdmitsAll swap start cursor middle := by
  intro before delimiter content span after split behind changed
  obtain ⟨outer, inner, entry, reach, place, accepts⟩ :=
    h before delimiter content span after split (Nat.le_trans le behind) changed
  refine ⟨outer, inner, entry, ?_, place, accepts⟩
  cases reach with
  | first reach => exact reach
  | second run' reach =>
    obtain rfl := run'.unique run
    have := reach.length_le
    omega

theorem AdmitsAll.second (h : AdmitsAll swap (.seq start next) cursor final)
    (run : Runs budget start cursor middle) : AdmitsAll swap next middle final := by
  intro before delimiter content span after split behind changed
  obtain ⟨passed, hpassed⟩ := run.passes
  have ahead : middle.rest.length ≥ after.length + 1 := by
    rw [split, List.length_append, List.length_cons]
    omega
  obtain ⟨outer, inner, entry, reach, place, accepts⟩ :=
    h (passed ++ before) delimiter content span after
      (by rw [hpassed.rest, split, List.append_assoc]) behind changed
  refine ⟨outer, inner, entry, ?_, place, accepts⟩
  cases reach with
  | first reach =>
    have := reach.group_taken run
    omega
  | second run' reach =>
    obtain rfl := run'.unique run
    exact reach

theorem AdmitsAll.yes (h : AdmitsAll swap (.ite look branch other) cursor final)
    (holds : look.holds cursor = true) : AdmitsAll swap branch cursor final := by
  intro before delimiter content span after split behind changed
  obtain ⟨outer, inner, entry, reach, rest⟩ :=
    h before delimiter content span after split behind changed
  cases reach with
  | yes _ reach => exact ⟨outer, inner, entry, reach, rest⟩
  | no fails => cases holds.symm.trans fails

theorem AdmitsAll.no (h : AdmitsAll swap (.ite look other branch) cursor final)
    (fails : look.holds cursor = false) : AdmitsAll swap branch cursor final := by
  intro before delimiter content span after split behind changed
  obtain ⟨outer, inner, entry, reach, rest⟩ :=
    h before delimiter content span after split behind changed
  cases reach with
  | yes holds => cases holds.symm.trans fails
  | no _ reach => exact ⟨outer, inner, entry, reach, rest⟩

theorem AdmitsAll.call {nonterminal : Nonterminal}
    (h : AdmitsAll swap (.call nonterminal) cursor final) :
    AdmitsAll swap nonterminal.rule cursor final := by
  intro before delimiter content span after split behind changed
  obtain ⟨outer, inner, entry, reach, rest⟩ :=
    h before delimiter content span after split behind changed
  cases reach with
  | call reach => exact ⟨outer, inner, entry, reach, rest⟩

/-- A group that is skipped keeps its content. -/
theorem AdmitsAll.head_holds {delimiter : Delimiter} {words : List String} {other : Cursor}
    (h : AdmitsAll swap (.skip 1) cursor (cursor.advance 1))
    (holds : (Look.token 0 (.groupHead delimiter words)).holds cursor = true)
    (exchanged : cursor.Exchanged swap other) :
    (Look.token 0 (.groupHead delimiter words)).holds other = true := by
  obtain ⟨name, span, rest, span', tail, -, eq⟩ := group_of_holds holds
  have unchanged : swap (tail.length + 1) (.ident name span :: rest) = .ident name span :: rest := by
    refine Classical.byContradiction fun changed => ?_
    have behind : (cursor.advance 1).rest.length ≤ tail.length := by
      rw [Cursor.advance_rest, eq]
      exact Nat.le_refl _
    obtain ⟨_, _, _, reach, -⟩ := h [] delimiter _ span' tail eq behind changed
    cases reach
  rw [Look.holds, eq] at holds
  rw [Look.holds, exchanged.rest, eq, Token.exchange, Token.mapContent, unchanged]
  exact holds

/-- A group does not come to start with another word. -/
theorem KeepsHeads.head_fails {delimiter : Delimiter} {words : List String} {other : Cursor}
    (heads : KeepsHeads swap)
    (fails : (Look.token 0 (.groupHead delimiter words)).holds cursor = false)
    (exchanged : cursor.Exchanged swap other) :
    (Look.token 0 (.groupHead delimiter words)).holds other = false := by
  rw [Bool.eq_false_iff]
  intro holds
  obtain ⟨name, span, rest, span', tail, known, eq⟩ := group_of_holds holds
  rw [exchanged.rest] at eq
  obtain ⟨content, after, old, swapped⟩ := Token.group_of_exchange eq
  obtain ⟨rest', rfl⟩ := heads _ _ _ _ _ swapped.symm
  rw [Look.holds, old, List.getElem?_cons_zero, Option.any_some, TokenTest.holds, known,
    Bool.and_true, decide_eq_false_iff_not] at fails
  exact fails rfl

end

-- ---------------------------------------------------------------------------
-- The exchange
-- ---------------------------------------------------------------------------

/-- The rule runs from `other` as it does from `cursor` to `final`, and comes to the same. -/
structure Mirrors (swap : Nat → List Token → List Token) (rule : Production)
    (cursor final other : Cursor) : Prop where
  run : ∃ budget final', Runs budget rule other final' ∧ final.Exchanged swap final'
  reach : ∀ target place, Reaches rule cursor target place →
    ∃ place', Reaches rule other target place' ∧ place.Exchanged swap place'

variable {budget : Nat} {swap : Nat → List Token → List Token} {rule : Production}
  {start next branch alternative : Production} {look : Look} {cursor middle final other : Cursor}

/-- A rule that comes to no other rule need only be run. -/
theorem Mirrors.of_here {final' : Cursor} (run : Runs budget rule other final')
    (exchanged : final.Exchanged swap final') (h : cursor.Exchanged swap other)
    (here : ∀ target place, Reaches rule cursor target place → target = rule ∧ place = cursor) :
    Mirrors swap rule cursor final other := by
  refine ⟨⟨budget, final', run, exchanged⟩, fun target place reach => ?_⟩
  obtain ⟨rfl, rfl⟩ := here target place reach
  exact ⟨other, .here, h⟩

theorem Mirrors.seq (run : Runs budget start cursor middle) (h : cursor.Exchanged swap other)
    (first : Mirrors swap start cursor middle other)
    (second : ∀ middle', middle.Exchanged swap middle' → Mirrors swap next middle final middle') :
    Mirrors swap (.seq start next) cursor final other := by
  obtain ⟨budget₁, middle', run₁, h₁⟩ := first.run
  obtain ⟨budget₂, final', run₂, h₂⟩ := (second middle' h₁).run
  refine ⟨⟨max budget₁ budget₂, final', ?_, h₂⟩, fun target place reach => ?_⟩
  · exact .seq (run₁.mono (Nat.le_max_left _ _)) (run₂.mono (Nat.le_max_right _ _))
  · cases reach with
    | here => exact ⟨other, .here, h⟩
    | first reach =>
      obtain ⟨place', reach', hplace⟩ := first.reach target place reach
      exact ⟨place', .first reach', hplace⟩
    | second run' reach =>
      obtain rfl := run'.unique run
      obtain ⟨place', reach', hplace⟩ := (second middle' h₁).reach target place reach
      exact ⟨place', .second run₁ reach', hplace⟩

theorem Mirrors.yes (holds : look.holds cursor = true) (holds' : look.holds other = true)
    (h : cursor.Exchanged swap other) (mirrors : Mirrors swap branch cursor final other) :
    Mirrors swap (.ite look branch alternative) cursor final other := by
  obtain ⟨budget, final', run, exchanged⟩ := mirrors.run
  refine ⟨⟨budget, final', .yes holds' run, exchanged⟩, fun target place reach => ?_⟩
  cases reach with
  | here => exact ⟨other, .here, h⟩
  | yes _ reach =>
    obtain ⟨place', reach', hplace⟩ := mirrors.reach target place reach
    exact ⟨place', .yes holds' reach', hplace⟩
  | no fails => cases holds.symm.trans fails

theorem Mirrors.no (fails : look.holds cursor = false) (fails' : look.holds other = false)
    (h : cursor.Exchanged swap other) (mirrors : Mirrors swap branch cursor final other) :
    Mirrors swap (.ite look alternative branch) cursor final other := by
  obtain ⟨budget, final', run, exchanged⟩ := mirrors.run
  refine ⟨⟨budget, final', .no fails' run, exchanged⟩, fun target place reach => ?_⟩
  cases reach with
  | here => exact ⟨other, .here, h⟩
  | yes holds => cases holds.symm.trans fails
  | no _ reach =>
    obtain ⟨place', reach', hplace⟩ := mirrors.reach target place reach
    exact ⟨place', .no fails' reach', hplace⟩

theorem Mirrors.call {nonterminal : Nonterminal} (h : cursor.Exchanged swap other)
    (mirrors : Mirrors swap nonterminal.rule cursor final other) :
    Mirrors swap (.call nonterminal) cursor final other := by
  obtain ⟨budget, final', run, exchanged⟩ := mirrors.run
  refine ⟨⟨_, final', .call run, exchanged⟩, fun target place reach => ?_⟩
  cases reach with
  | here => exact ⟨other, .here, h⟩
  | call reach =>
    obtain ⟨place', reach', hplace⟩ := mirrors.reach target place reach
    exact ⟨place', .call reach', hplace⟩

/-- A lookahead that holds still does, as a group whose content it reads is skipped. -/
theorem holds_of_skipsHeads (skips : (ite look branch alternative).skipsHeads = true)
    (run : Runs budget branch cursor final) (admits : AdmitsAll swap branch cursor final)
    (holds : look.holds cursor = true) (h : cursor.Exchanged swap other) :
    look.holds other = true := by
  obtain ⟨both, -⟩ := Bool.and_eq_true_iff.mp skips
  obtain ⟨cond, -⟩ := Bool.and_eq_true_iff.mp both
  cases outside : look.seesInside with
  | false => exact (Look.holds_exchanged outside h).trans holds
  | true =>
    rw [outside, Bool.not_true, Bool.false_or] at cond
    obtain ⟨asks, takes⟩ := Bool.and_eq_true_iff.mp cond
    obtain ⟨delimiter, words, rfl⟩ := eq_of_asksHead asks
    obtain rfl := eq_of_takesOne takes
    cases run
    exact admits.head_holds holds h

/-- A lookahead that fails still does, as no content comes to start with another word. -/
theorem fails_of_skipsHeads (skips : (ite look alternative branch).skipsHeads = true)
    (heads : KeepsHeads swap) (fails : look.holds cursor = false)
    (h : cursor.Exchanged swap other) : look.holds other = false := by
  obtain ⟨both, -⟩ := Bool.and_eq_true_iff.mp skips
  obtain ⟨cond, -⟩ := Bool.and_eq_true_iff.mp both
  cases outside : look.seesInside with
  | false => exact (Look.holds_exchanged outside h).trans fails
  | true =>
    rw [outside, Bool.not_true, Bool.false_or] at cond
    obtain ⟨delimiter, words, rfl⟩ := eq_of_asksHead (Bool.and_eq_true_iff.mp cond).1
    exact heads.head_fails fails h

/-- A content that is accepted is so after the exchange, if the group is admitted. -/
theorem AdmitsAll.accepts {delimiter : Delimiter} {inner : Production} {content tail : List Token}
    {span : Span} (admits : AdmitsAll swap (.within delimiter inner) cursor (cursor.advance 1))
    (rest : cursor.rest = .group delimiter content span :: tail) (old : inner.Accepts content) :
    inner.Accepts (swap (tail.length + 1) content) := by
  by_cases changed : swap (tail.length + 1) content = content
  · rw [changed]
    exact old
  · have behind : (cursor.advance 1).rest.length ≤ tail.length := by
      rw [Cursor.advance_rest, rest]
      exact Nat.le_refl _
    obtain ⟨_, _, entry, reach, -, accepts⟩ :=
      admits [] delimiter content span tail rest behind changed
    cases reach
    exact accepts old

theorem Runs.exchange (run : Runs budget rule cursor final) (heads : KeepsHeads swap)
    (skips : rule.skipsHeads = true) (admits : AdmitsAll swap rule cursor final)
    (h : cursor.Exchanged swap other) : Mirrors swap rule cursor final other := by
  induction run generalizing other with
  | done =>
    have run' : Runs 0 .done other other := .done
    exact .of_here run' h h fun _ _ reach => by cases reach; exact ⟨rfl, rfl⟩
  | @skip _ count =>
    have run' : Runs 0 (.skip count) other (other.advance count) := .skip
    exact .of_here run' (h.advance count) h fun _ _ reach => by cases reach; exact ⟨rfl, rfl⟩
  | seq run₁ run₂ ih₁ ih₂ =>
    obtain ⟨firstSkips, secondSkips⟩ := Bool.and_eq_true_iff.mp skips
    exact .seq run₁ h (ih₁ firstSkips (admits.first run₁ run₂.length_le) h)
      fun _ => ih₂ secondSkips (admits.second run₁)
  | yes holds run ih =>
    have holds' := holds_of_skipsHeads skips run (admits.yes holds) holds h
    obtain ⟨both, -⟩ := Bool.and_eq_true_iff.mp skips
    obtain ⟨-, yesSkips⟩ := Bool.and_eq_true_iff.mp both
    exact .yes holds holds' h (ih yesSkips (admits.yes holds) h)
  | no fails run ih =>
    have fails' := fails_of_skipsHeads skips heads fails h
    obtain ⟨-, noSkips⟩ := Bool.and_eq_true_iff.mp skips
    exact .no fails fails' h (ih noSkips (admits.no fails) h)
  | @call _ nonterminal _ _ _ ih => exact .call h (ih nonterminal.skipsHeads admits.call h)
  | @within budget delimiter inner cursor content span tail final rest run ending =>
    have rest' : other.rest
        = .group delimiter (swap (tail.length + 1) content) span :: Token.exchange swap tail := by
      rw [h.rest, rest]
      rfl
    obtain ⟨budget', final', run', ending'⟩ := admits.accepts rest ⟨budget, final, run, ending⟩
    exact .of_here (.within rest' run' ending') (h.advance 1) h
      fun _ _ reach => by cases reach; exact ⟨rfl, rfl⟩

end Rule

end AliasExpansion
