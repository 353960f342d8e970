-- SUMMARY: The recognizer as a count of tokens: positions never leave the token list.
import AliasExpansion.Proofs.Grammar.Extension
import AliasExpansion.Proofs.Grammar.Outcomes
import AliasExpansion.Proofs.Grammar.Spelling

/-!
# Positions

A cursor cannot move over the end of the tokens: `Cursor.advance` stops there. Whether a rule ever
tries to shows when positions are counted without that stop. `Rule.runFrom` adds up what is skipped,
and looks at the tokens only to decide. It comes to the same places as `Rule.run`, so every position
that a rule comes to is one of the token list (`Rule.callsCount`).

The reason is in the text of the rules: they skip tokens only behind a lookahead that has seen them
(`Rule.heeds`). One rule does not show this by itself. The parameter `self` is skipped behind an
optional reference and `mut`, where only the lookahead before both has seen it.
-/

namespace AliasExpansion

-- ---------------------------------------------------------------------------
-- Counting
-- ---------------------------------------------------------------------------

/-- The cursor at a position of a token list. -/
def Cursor.atPosition (tokens : List Token) (position : Nat) : Cursor :=
  (start tokens).advance position

/-- Run a rule from a position, given what each nonterminal does from a position. -/
def Rule.runFrom (meaning : Nonterminal → List Token → Nat → Except SyntaxError Nat) :
    Production → List Token → Nat → Except SyntaxError Nat
  | .done, _, position => .ok position
  | .fail want, tokens, position => .error ((Cursor.atPosition tokens position).unexpected want)
  | .skip count, _, position => .ok (position + count)
  | .seq first second, tokens, position =>
    match first.runFrom meaning tokens position with
    | .ok position => second.runFrom meaning tokens position
    | .error e => .error e
  | .ite look yes no, tokens, position =>
    if look.holds (.atPosition tokens position) then yes.runFrom meaning tokens position
    else no.runFrom meaning tokens position
  | .call nonterminal, tokens, position => meaning nonterminal tokens position
  | .within delimiter inner, tokens, position =>
    match tokens[position]? with
    | some (.group d content _) =>
      if d = delimiter then
        match inner.runFrom meaning content 0 with
        | .ok final =>
          if content.length ≤ final then .ok (position + 1)
          else .error ((Cursor.atPosition content final).unexpected .ending)
        | .error e => .error e
      else .error ((Cursor.atPosition tokens position).unexpected (.delimiter delimiter))
    | _ => .error ((Cursor.atPosition tokens position).unexpected (.delimiter delimiter))

/-- Recognize a nonterminal from a position, with at most `budget` calls inside one another. -/
def Nonterminal.recognizeFrom :
    (budget : Nat) → Nonterminal → List Token → Nat → Except SyntaxError Nat
  | 0 => fun _ tokens position =>
    .error { fault := .exhausted, span := tokens[position]?.map Token.span }
  | budget + 1 => fun nonterminal => nonterminal.rule.runFrom (recognizeFrom budget)

-- ---------------------------------------------------------------------------
-- Cursors at positions
-- ---------------------------------------------------------------------------

namespace Cursor

variable {tokens : List Token} {position count : Nat}

theorem atPosition_rest (tokens : List Token) (position : Nat) :
    (atPosition tokens position).rest = tokens.drop position := by
  rw [atPosition, advance_rest, start_rest]

theorem atPosition_atEnd : (atPosition tokens position).atEnd = true ↔ tokens.length ≤ position := by
  rw [atEnd_iff, atPosition_rest, List.drop_eq_nil_iff]

theorem advance_add (first second : Nat) (cursor : Cursor) :
    cursor.advance (first + second) = (cursor.advance first).advance second := by
  induction first generalizing cursor with
  | zero => rw [Nat.zero_add, advance_zero]
  | succ first ih =>
    obtain ⟨previous, _ | ⟨token, rest⟩⟩ := cursor
    · rw [advance_nil, advance_nil, advance_nil]
    · rw [Nat.succ_add_eq_add_succ, Nat.add_succ, advance_cons, advance_cons, ih]

theorem atPosition_advance :
    (atPosition tokens position).advance count = atPosition tokens (position + count) :=
  (advance_add position count (start tokens)).symm

end Cursor

namespace Rule

/-- From the position, the rule comes to the same place when positions are counted, and that place
    is in the token list. -/
structure Counts (budget : Nat) (rule : Production) (tokens : List Token) (position : Nat) :
    Prop where
  same : rule.run (Nonterminal.recognize budget) (.atPosition tokens position)
    = (rule.runFrom (Nonterminal.recognizeFrom budget) tokens position).map (.atPosition tokens)
  inside : ∀ final, rule.runFrom (Nonterminal.recognizeFrom budget) tokens position = .ok final →
    position ≤ final ∧ final ≤ tokens.length

variable {budget : Nat} {rule first second yes no : Production} {tokens : List Token}
  {position count : Nat}

-- ---------------------------------------------------------------------------
-- One form of rule after the other
-- ---------------------------------------------------------------------------

namespace Counts

theorem done (le : position ≤ tokens.length) : Counts budget .done tokens position := by
  refine ⟨rfl, fun final eq => ?_⟩
  cases eq
  exact ⟨Nat.le_refl _, le⟩

theorem fail {want : Want} : Counts budget (.fail want) tokens position :=
  ⟨rfl, nofun⟩

theorem skip (enough : position + count ≤ tokens.length) :
    Counts budget (.skip count) tokens position := by
  refine ⟨congrArg Except.ok Cursor.atPosition_advance, fun final eq => ?_⟩
  cases eq
  exact ⟨Nat.le_add_right _ _, enough⟩

theorem seq (h₁ : Counts budget first tokens position)
    (h₂ : ∀ middle, middle ≤ tokens.length →
      Runs budget first (.atPosition tokens position) (.atPosition tokens middle) →
      Counts budget second tokens middle) :
    Counts budget (.seq first second) tokens position := by
  have same₁ := h₁.same
  cases counted : first.runFrom (Nonterminal.recognizeFrom budget) tokens position with
  | error e =>
    rw [counted] at same₁
    constructor
    · simp only [run, runFrom, counted, same₁, Except.map]
    · simp only [runFrom, counted]
      rintro _ ⟨⟩
  | ok middle =>
    rw [counted] at same₁
    obtain ⟨le, inside⟩ := h₁.inside middle counted
    have h₂ := h₂ middle inside (runs_iff.mpr same₁)
    constructor
    · simp only [run, runFrom, counted, same₁, Except.map]
      exact h₂.same
    · simp only [runFrom, counted]
      exact fun final eq => (h₂.inside final eq).imp_left (Nat.le_trans le)

theorem ite {look : Look}
    (h₁ : look.holds (.atPosition tokens position) = true → Counts budget yes tokens position)
    (h₂ : look.holds (.atPosition tokens position) = false → Counts budget no tokens position) :
    Counts budget (.ite look yes no) tokens position := by
  cases holds : look.holds (.atPosition tokens position) with
  | true =>
    constructor
    · simp only [run, runFrom, holds, if_true]
      exact (h₁ holds).same
    · simp only [runFrom, holds, if_true]
      exact (h₁ holds).inside
  | false =>
    constructor
    · simp only [run, runFrom, holds, Bool.false_eq_true, if_false]
      exact (h₂ holds).same
    · simp only [runFrom, holds, Bool.false_eq_true, if_false]
      exact (h₂ holds).inside

theorem call {nonterminal : Nonterminal} (h : Counts budget nonterminal.rule tokens position) :
    Counts (budget + 1) (.call nonterminal) tokens position :=
  ⟨h.same, h.inside⟩

theorem run_from_none {delimiter : Delimiter} (inner : Production)
    (meaning : Nonterminal → List Token → Nat → Except SyntaxError Nat)
    (other : ∀ content span, tokens[position]? ≠ some (.group delimiter content span)) :
    (within delimiter inner).runFrom meaning tokens position
      = .error ((Cursor.atPosition tokens position).unexpected (.delimiter delimiter)) := by
  unfold runFrom
  split
  · next d content span found =>
    refine if_neg fun same => other content span ?_
    rw [found, same]
  · rfl

/-- A group is one token, and its content is counted from its own start. -/
theorem within {delimiter : Delimiter} {inner : Production}
    (h : ∀ content, Counts budget inner content 0) :
    Counts budget (.within delimiter inner) tokens position := by
  have rest := Cursor.atPosition_rest tokens position
  by_cases group : ∃ content span, tokens[position]? = some (.group delimiter content span)
  · obtain ⟨content, span, found⟩ := group
    obtain ⟨lt, token⟩ := List.getElem?_eq_some_iff.mp found
    rw [List.drop_eq_getElem_cons lt, token] at rest
    have same : inner.run (Nonterminal.recognize budget) (.start content) = _ := (h content).same
    cases counted : inner.runFrom (Nonterminal.recognizeFrom budget) content 0 with
    | error e =>
      rw [counted] at same
      constructor
      · simp only [run, runFrom, rest, found, if_true, counted, same, Except.map]
      · simp only [runFrom, found, if_true, counted]
        rintro _ ⟨⟩
    | ok final =>
      rw [counted] at same
      by_cases ending : content.length ≤ final
      · constructor
        · simp only [run, runFrom, rest, found, if_true, counted, same, Except.map,
            Cursor.atPosition_atEnd.mpr ending, if_pos ending, Cursor.atPosition_advance]
        · simp only [runFrom, found, if_true, counted, if_pos ending]
          rintro final ⟨⟩
          exact ⟨Nat.le_succ position, lt⟩
      · constructor
        · simp only [run, runFrom, rest, found, if_true, counted, same, Except.map,
            Cursor.atPosition_atEnd, if_neg ending]
        · simp only [runFrom, found, if_true, counted, if_neg ending]
          rintro _ ⟨⟩
  · have counted := run_from_none inner (Nonterminal.recognizeFrom budget)
      fun content span found => group ⟨content, span, found⟩
    have ran : (Rule.within delimiter inner).run (Nonterminal.recognize budget)
        (.atPosition tokens position) = _ := run_within_none fun content span tail eq => group
          ⟨content, span, by rw [← List.head?_drop, ← rest, eq]; rfl⟩
    constructor
    · rw [counted, ran]
      rfl
    · rw [counted]
      rintro _ ⟨⟩

end Counts

-- ---------------------------------------------------------------------------
-- Rules that look before they skip
-- ---------------------------------------------------------------------------

/-- The rule skips no tokens but those that a lookahead has seen. It is known that the lookahead
    `ahead` holds, if there is one. What the rule calls is left open. -/
def heeds (ahead : Option Look) : Production → Bool
  | .skip (place + 1) => ahead.any (·.shows place)
  | .seq first second => first.heeds ahead && second.heeds none
  | .ite look yes no => yes.heeds (some look) && no.heeds none
  | .within _ inner => inner.heeds none
  | .skip 0 | .done | .fail _ | .call _ => true

/-- The calls of nonterminals count, wherever they are made. -/
def CallsCount (budget : Nat) : Prop :=
  ∀ (nonterminal : Nonterminal) tokens position, position ≤ tokens.length →
    Counts budget (.call nonterminal) tokens position

theorem counts_of_heeds (calls : CallsCount budget) (ahead : Option Look)
    (heeds : rule.heeds ahead = true)
    (known : ahead.all (·.holds (.atPosition tokens position)) = true)
    (le : position ≤ tokens.length) : Counts budget rule tokens position := by
  induction rule generalizing ahead tokens position with
  | done => exact .done le
  | fail want => exact .fail
  | skip count =>
    cases count with
    | zero => exact .skip le
    | succ place =>
      obtain ⟨look, rfl, shows⟩ := (Option.any_eq_true _ _).mp heeds
      have seen := Look.lt_of_shows shows known
      rw [Cursor.atPosition_rest, List.length_drop] at seen
      exact .skip (by omega)
  | seq first second ih₁ ih₂ =>
    obtain ⟨heeds₁, heeds₂⟩ := Bool.and_eq_true_iff.mp heeds
    exact .seq (ih₁ ahead heeds₁ known le) fun _ le _ => ih₂ none heeds₂ rfl le
  | ite look yes no ih₁ ih₂ =>
    obtain ⟨heeds₁, heeds₂⟩ := Bool.and_eq_true_iff.mp heeds
    exact .ite (fun holds => ih₁ (some look) heeds₁ holds le) fun _ => ih₂ none heeds₂ rfl le
  | call nonterminal => exact calls nonterminal tokens position le
  | within delimiter inner ih => exact .within fun content => ih none heeds rfl (Nat.zero_le _)

end Rule

theorem Nonterminal.heeds {nonterminal : Nonterminal} (other : nonterminal ≠ .fnParams) :
    nonterminal.rule.heeds none = true := by
  cases nonterminal with
  | fnParams => exact absurd rfl other
  | binaryTail minPrecedence position =>
    match minPrecedence with
    | 0 | 1 | 2 | 3 | 4 | 5 | 6 | 7 | 8 | 9 | 10 | 11 | n + 12 => rfl
  | path x | pathTail x | pathSegment x | type x | bounds x | unary x | primary x | pathExpr x
  | list x | member x | members x | binary n x => cases x <;> rfl
  | _ => rfl

-- ---------------------------------------------------------------------------
-- The parameter `self`
-- ---------------------------------------------------------------------------

namespace Look

open Grammar

variable {cursor : Cursor}

theorem receiverAt_advance (count : Nat) :
    (receiverAt 0).holds (cursor.advance count) = (receiverAt count).holds cursor := by
  simp only [receiverAt, wordAt, holds, Cursor.advance_rest, List.getElem?_drop, Nat.add_zero,
    Nat.zero_add]

theorem lifetime_advance (count : Nat) :
    lifetime.holds (cursor.advance count) = (lifetimeAt count).holds cursor := by
  simp only [lifetime, lifetimeAt, holds, Cursor.advance_rest, List.getElem?_drop, List.drop_drop,
    Nat.add_zero, Nat.zero_add]

/-- A receiver does not start with punctuation, reference and lifetime apart. -/
theorem receiverAt_punct {c : Char} (mark : (Look.mark 0 [c]).holds cursor = true) :
    (receiverAt 0).holds cursor = false := by
  obtain ⟨joint, span, tail, rest⟩ := rest_of_mark mark
  simp [receiverAt, wordAt, holds, TokenTest.holds, rest]

end Look

namespace Rule

open Grammar

variable {budget : Nat} {cursor middle final : Cursor} {tokens : List Token} {position : Nat}

/-- Behind the reference of a receiver stands `self` or `mut self`. -/
theorem Runs.receiver_reference (holds : receiver.holds cursor = true)
    (run : Runs budget (optional (.mark 0 ['&']) (steps [.skip 1, optional lifetime (.skip 2)]))
      cursor middle) : (receiverAt 0).holds middle = true := by
  rcases Bool.or_eq_true_iff.mp holds with plain | referred
  · cases run with
    | yes mark => cases plain.symm.trans (Look.receiverAt_punct mark)
    | no _ run =>
      cases run
      exact plain
  · obtain ⟨mark, either⟩ := Bool.and_eq_true_iff.mp referred
    cases run with
    | no fails => cases mark.symm.trans fails
    | yes _ run =>
      cases run with
      | seq skip run =>
        cases skip
        rcases Bool.or_eq_true_iff.mp either with plain | both
        · rw [← Look.receiverAt_advance] at plain
          cases run with
          | yes marked =>
            obtain ⟨quote, -⟩ := Bool.and_eq_true_iff.mp marked
            cases plain.symm.trans (Look.receiverAt_punct quote)
          | no _ run =>
            cases run
            exact plain
        · obtain ⟨marked, behind⟩ := Bool.and_eq_true_iff.mp both
          rw [← Look.lifetime_advance] at marked
          cases run with
          | no fails => cases marked.symm.trans fails
          | yes _ run =>
            cases run
            rw [← Cursor.advance_add, Look.receiverAt_advance]
            exact behind

/-- Behind an optional `mut` the word `self` stands, so something does. -/
theorem Runs.receiver_mut (holds : (receiverAt 0).holds middle = true)
    (run : Runs budget (eatWord "mut") middle final) : final.rest ≠ [] := by
  cases run with
  | no _ run =>
    cases run
    exact Look.rest_ne (show (receiverAt 0).needsToken = true from rfl) holds
  | yes isMut run =>
    cases run
    rcases Bool.or_eq_true_iff.mp holds with isSelf | behind
    · obtain ⟨name, mem, span, tail, rest⟩ := Look.rest_of_word isSelf
      obtain ⟨name', mem', span', tail', rest'⟩ := Look.rest_of_word isMut
      cases rest.symm.trans rest'
      have different : "mut" ≠ "self" := by decide
      exact absurd ((List.mem_singleton.mp mem').symm.trans (List.mem_singleton.mp mem)) different
    · have word : (wordAt 1 ["self"]).holds middle = true := (Bool.and_eq_true_iff.mp behind).2
      have seen : 1 < middle.rest.length := Look.lt_of_shows (by decide) word
      rw [Cursor.advance_rest]
      exact fun ending => Nat.not_le.mpr seen (List.drop_eq_nil_iff.mp ending)

theorem counts_selfParam (calls : CallsCount budget)
    (holds : receiver.holds (.atPosition tokens position) = true) (le : position ≤ tokens.length) :
    Counts budget selfParam tokens position := by
  refine .seq (counts_of_heeds calls none rfl rfl le) fun _ le run₁ => ?_
  refine .seq (counts_of_heeds calls none rfl rfl le) fun _ _ run₂ => ?_
  have left := run₂.receiver_mut (run₁.receiver_reference holds)
  rw [Cursor.atPosition_rest, ne_eq, List.drop_eq_nil_iff, Nat.not_le] at left
  exact .seq (.skip left) fun _ le _ => counts_of_heeds calls none rfl rfl le

theorem counts_fnParams (calls : CallsCount budget) (le : position ≤ tokens.length) :
    Counts budget fnParamsRule tokens position := by
  refine .ite (fun _ => .done le) fun _ => .seq (calls .outerAttrs _ _ le) fun _ le _ => ?_
  refine .ite (fun holds => counts_of_heeds calls (some (.mark 0 ellipsis)) rfl holds le) fun _ => ?_
  refine .seq (.ite (fun holds => counts_selfParam calls holds le) fun _ => ?_) fun _ le _ => ?_
  · exact counts_of_heeds calls none rfl rfl le
  · exact counts_of_heeds calls none rfl rfl le

end Rule

-- ---------------------------------------------------------------------------
-- Every nonterminal
-- ---------------------------------------------------------------------------

theorem Rule.callsCount (budget : Nat) : CallsCount budget := by
  induction budget with
  | zero =>
    intro nonterminal tokens position le
    refine ⟨?_, nofun⟩
    simp only [run, runFrom, Nonterminal.recognize, Nonterminal.recognizeFrom, Except.map,
      Cursor.atPosition_rest, List.head?_drop]
  | succ budget calls =>
    intro nonterminal tokens position le
    by_cases params : nonterminal = .fnParams
    · subst params
      exact .call (counts_fnParams calls le)
    · exact .call (counts_of_heeds calls none (Nonterminal.heeds params) rfl le)

end AliasExpansion
