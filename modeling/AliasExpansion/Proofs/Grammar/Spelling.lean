-- SUMMARY: The tokens that a run moves over, read off the rule.
import AliasExpansion.Proofs.Grammar.Insertion

/-!
# What a run takes

`Rule.Takes budget rule cursor final tokens` says that a run of the rule moves over exactly the
tokens. A sequence takes one list behind the other, and the small rules that the grammar is made of
take tokens of a known form, so the start of an item can be read off its rule. The last rule of a
sequence is run last, and ends where the sequence does (`Takes.last`).
-/

namespace AliasExpansion

namespace Cursor

variable {cursor final : Cursor} {passed other : List Token}

theorem Passes.unique (h : cursor.Passes passed final) (h' : cursor.Passes other final) :
    passed = other :=
  (List.append_left_inj final.rest).mp (h.rest.symm.trans h'.rest)

theorem Passes.of_advance {count : Nat} (h : cursor.Passes passed (cursor.advance count))
    (first : List Token) (split : cursor.rest = first ++ other) (length : first.length = count) :
    passed = first := by
  refine h.unique (length ▸ ?_)
  have step := passes_advance first.length cursor
  rwa [split, List.take_left] at step

end Cursor

-- ---------------------------------------------------------------------------
-- What a lookahead has seen
-- ---------------------------------------------------------------------------

namespace Look

variable {cursor : Cursor}

theorem rest_of_token {test : TokenTest} (holds : (Look.token 0 test).holds cursor = true) :
    ∃ token tail, cursor.rest = token :: tail ∧ test.holds token = true := by
  rw [Look.holds] at holds
  cases h : cursor.rest with
  | nil => rw [h] at holds; cases holds
  | cons first tail => rw [h] at holds; exact ⟨first, tail, rfl, holds⟩

theorem rest_of_word {words : List String} (holds : (Grammar.word words).holds cursor = true) :
    ∃ name ∈ words, ∃ span tail, cursor.rest = .ident name span :: tail := by
  obtain ⟨token, tail, rest, holds⟩ := rest_of_token holds
  cases token with
  | ident name span => exact ⟨name, List.contains_iff_mem.mp holds, span, tail, rest⟩
  | punct | literal | group => cases holds

theorem anyGroup_of_group {delimiter : Delimiter}
    (holds : (Grammar.group delimiter).holds cursor = true) :
    (Look.token 0 .anyGroup).holds cursor = true := by
  obtain ⟨first, tail, rest, holds⟩ := rest_of_token holds
  rw [Look.holds, rest]
  cases first with
  | group => rfl
  | punct | ident | literal => cases holds

theorem rest_of_mark {c : Char} (holds : (Look.mark 0 [c]).holds cursor = true) :
    ∃ joint span tail, cursor.rest = .punct c joint span :: tail :=
  Token.eq_of_spell holds

theorem rest_of_colons (holds : (Look.mark 0 Grammar.colons).holds cursor = true) :
    ∃ span joint' span' tail,
      cursor.rest = .punct ':' true span :: .punct ':' joint' span' :: tail := by
  rw [Look.holds, List.drop_zero, Grammar.colons, Token.spell_cons, Bool.and_eq_true_iff,
    Bool.and_eq_true_iff] at holds
  obtain ⟨⟨first, isJoint⟩, second⟩ := holds
  obtain ⟨joint, span, rest, split⟩ := Token.eq_of_spell first
  rw [split] at isJoint second
  obtain rfl : joint = true := isJoint
  obtain ⟨joint', span', tail, rfl⟩ : ∃ joint' span' tail, rest = .punct ':' joint' span' :: tail :=
    Token.eq_of_spell second
  exact ⟨span, joint', span', tail, split⟩

end Look

theorem TokenTest.delimiter_of_head {delimiter d : Delimiter} {words : List String}
    {content : List Token} {span : Span}
    (holds : (groupHead delimiter words).holds (.group d content span) = true) : d = delimiter := by
  match content with
  | .ident _ _ :: _ => exact of_decide_eq_true (Bool.and_eq_true_iff.mp holds).1
  | [] | .punct _ _ _ :: _ | .literal _ :: _ | .group _ _ _ :: _ => cases holds

/-- The tokens of outer attributes. -/
inductive Token.Attributes : List Token → Prop where
  | nil : Attributes []
  | cons {joint span content span' rest} (more : Attributes rest) :
      Attributes (.punct '#' joint span :: .group .bracket content span' :: rest)

/-- The tokens of inner attributes. -/
inductive Token.InnerAttributes : List Token → Prop where
  | nil : InnerAttributes []
  | cons {joint span joint' span' content span'' rest} (more : InnerAttributes rest) :
      InnerAttributes (.punct '#' joint span :: .punct '!' joint' span' ::
        .group .bracket content span'' :: rest)

namespace Rule

/-- A run of the rule moves over exactly the tokens. -/
structure Takes (budget : Nat) (rule : Production) (cursor final : Cursor) (passed : List Token) :
    Prop where
  run : Runs budget rule cursor final
  passes : cursor.Passes passed final

variable {budget : Nat} {rule first second yes no target : Production} {look : Look}
  {cursor final place : Cursor} {passed : List Token}

theorem Runs.takes (run : Runs budget rule cursor final) :
    ∃ passed, Takes budget rule cursor final passed := by
  obtain ⟨passed, passes⟩ := run.passes
  exact ⟨passed, run, passes⟩

/-- The last rule of a sequence. -/
def last : Production → Production
  | .seq _ second => second.last
  | rule => rule

namespace Takes

-- ---------------------------------------------------------------------------
-- Rules made of rules
-- ---------------------------------------------------------------------------

theorem done (h : Takes budget .done cursor final passed) : passed = [] ∧ final = cursor := by
  obtain ⟨run, passes⟩ := h
  cases run
  exact ⟨passes.unique (.refl _), rfl⟩

theorem fail {want : Want} (h : Takes budget (.fail want) cursor final passed) : False := by
  cases h.run

theorem seq (h : Takes budget (.seq first second) cursor final passed) :
    ∃ middle before after, passed = before ++ after ∧ Takes budget first cursor middle before
      ∧ Takes budget second middle final after := by
  obtain ⟨run, passes⟩ := h
  cases run with
  | seq run₁ run₂ =>
    obtain ⟨before, h₁⟩ := run₁.takes
    obtain ⟨after, h₂⟩ := run₂.takes
    exact ⟨_, before, after, passes.unique (h₁.passes.trans h₂.passes), h₁, h₂⟩

theorem ite (h : Takes budget (.ite look yes no) cursor final passed) :
    look.holds cursor = true ∧ Takes budget yes cursor final passed
      ∨ look.holds cursor = false ∧ Takes budget no cursor final passed := by
  obtain ⟨run, passes⟩ := h
  cases run with
  | yes holds run => exact .inl ⟨holds, run, passes⟩
  | no fails run => exact .inr ⟨fails, run, passes⟩

theorem call {nonterminal : Nonterminal}
    (h : Takes budget (.call nonterminal) cursor final passed) :
    ∃ less, budget = less + 1 ∧ Takes less nonterminal.rule cursor final passed := by
  obtain ⟨run, passes⟩ := h
  cases run with
  | call run => exact ⟨_, rfl, run, passes⟩

theorem within {delimiter : Delimiter} {inner : Production}
    (h : Takes budget (.within delimiter inner) cursor final passed) :
    ∃ content span, passed = [.group delimiter content span]
      ∧ cursor.rest = .group delimiter content span :: final.rest := by
  obtain ⟨run, passes⟩ := h
  cases run with
  | @within _ _ _ _ content span tail _ rest =>
    obtain rfl := passes.of_advance [_] rest rfl
    exact ⟨content, span, rfl, passes.rest⟩

theorem optional (h : Takes budget (.optional look rule) cursor final passed) :
    look.holds cursor = true ∧ Takes budget rule cursor final passed
      ∨ look.holds cursor = false ∧ passed = [] ∧ final = cursor := by
  rcases h.ite with h | ⟨fails, h⟩
  · exact .inl h
  · exact .inr ⟨fails, h.done⟩

/-- The first case whose lookahead holds is run. -/
theorem choose {cases : List (Look × Production)} {otherwise : Production}
    (h : Takes budget (.choose cases otherwise) cursor final passed) :
    (∃ look rule, (look, rule) ∈ cases ∧ look.holds cursor = true
      ∧ Takes budget rule cursor final passed
      ∧ ∀ {target place}, Reaches rule cursor target place →
          Reaches (.choose cases otherwise) cursor target place)
      ∨ Takes budget otherwise cursor final passed
        ∧ ∀ {target place}, Reaches otherwise cursor target place →
          Reaches (.choose cases otherwise) cursor target place := by
  induction cases with
  | nil => exact .inr ⟨h, id⟩
  | cons entry cases ih =>
    rcases h.ite with ⟨holds, h⟩ | ⟨fails, h⟩
    · exact .inl ⟨entry.1, entry.2, List.mem_cons_self, holds, h, .yes holds⟩
    · rcases ih h with ⟨look, rule, mem, holds, h, reach⟩ | ⟨h, reach⟩
      · exact .inl ⟨look, rule, List.mem_cons_of_mem _ mem, holds, h, fun r => .no fails (reach r)⟩
      · exact .inr ⟨h, fun r => .no fails (reach r)⟩

/-- The last rule of a sequence ends where the sequence does. -/
theorem last (h : Takes budget rule cursor final passed) :
    ∃ middle before after, passed = before ++ after ∧ cursor.Passes before middle
      ∧ Takes budget rule.last middle final after
      ∧ ∀ {target place}, Reaches rule.last middle target place →
          Reaches rule cursor target place := by
  induction rule generalizing cursor passed with
  | seq first second _ ih =>
    obtain ⟨middle, before, after, rfl, h₁, h₂⟩ := h.seq
    obtain ⟨entry, between, rest, rfl, passes, h, reach⟩ := ih h₂
    exact ⟨entry, before ++ between, rest, (List.append_assoc ..).symm, h₁.passes.trans passes, h,
      fun r => .second h₁.run (reach r)⟩
  | _ => exact ⟨cursor, [], passed, rfl, .refl _, h, id⟩

-- ---------------------------------------------------------------------------
-- Small rules
-- ---------------------------------------------------------------------------

/-- One token that the lookahead has seen. -/
theorem skip {token : Token} {tail : List Token} (h : Takes budget (.skip 1) cursor final passed)
    (rest : cursor.rest = token :: tail) : passed = [token] ∧ final.previous = some token := by
  obtain ⟨run, passes⟩ := h
  cases run
  obtain rfl := passes.of_advance [token] rest rfl
  exact ⟨rfl, passes.previous⟩

/-- One token that a test has accepted. -/
theorem token {test : TokenTest} (holds : (Look.token 0 test).holds cursor = true)
    (h : Takes budget (.skip 1) cursor final passed) :
    ∃ token, passed = [token] ∧ test.holds token = true := by
  obtain ⟨token, tail, rest, holds⟩ := Look.rest_of_token holds
  exact ⟨token, (h.skip rest).1, holds⟩

theorem mark {c : Char} (holds : (Look.mark 0 [c]).holds cursor = true)
    (h : Takes budget (.skip 1) cursor final passed) :
    ∃ joint span, passed = [.punct c joint span]
      ∧ final.previous = some (.punct c joint span) := by
  obtain ⟨joint, span, tail, rest⟩ := Look.rest_of_mark holds
  exact ⟨joint, span, h.skip rest⟩

/-- What a step and its repetition take, by induction on the number of steps. -/
theorem repeated {nonterminal : Nonterminal} {step : Production} {P : List Token → Prop}
    (rule_eq : nonterminal.rule = .optional look (.seq step (.call nonterminal))) (nil : P [])
    (append : ∀ {budget cursor final before after}, look.holds cursor = true →
      Takes budget step cursor final before → P after → P (before ++ after))
    (h : Takes budget (.call nonterminal) cursor final passed) : P passed := by
  induction budget generalizing cursor passed with
  | zero =>
    obtain ⟨_, eq, -⟩ := h.call
    cases eq
  | succ budget ih =>
    obtain ⟨_, eq, h⟩ := h.call
    obtain rfl := Nat.succ.inj eq
    rw [rule_eq] at h
    rcases h.optional with ⟨holds, h⟩ | ⟨-, rfl, -⟩
    · obtain ⟨middle, before, after, rfl, first, more⟩ := h.seq
      exact append holds first (ih more)
    · exact nil

theorem word {words : List String} (holds : (Grammar.word words).holds cursor = true)
    (h : Takes budget (.skip 1) cursor final passed) :
    ∃ name ∈ words, ∃ span, passed = [.ident name span] := by
  obtain ⟨name, mem, span, tail, rest⟩ := Look.rest_of_word holds
  exact ⟨name, mem, span, (h.skip rest).1⟩

theorem expectWord {word : String} (h : Takes budget (.expectWord word) cursor final passed) :
    ∃ span, passed = [.ident word span] := by
  rcases h.ite with ⟨holds, h⟩ | ⟨-, h⟩
  · obtain ⟨name, mem, span, rfl⟩ := h.word holds
    obtain rfl := List.mem_singleton.mp mem
    exact ⟨span, rfl⟩
  · exact h.fail.elim

theorem eatWord {word : String} (h : Takes budget (.eatWord word) cursor final passed) :
    passed = [] ∨ ∃ span, passed = [.ident word span] := by
  rcases h.optional with ⟨holds, h⟩ | ⟨-, rfl, -⟩
  · obtain ⟨name, mem, span, rfl⟩ := h.word holds
    obtain rfl := List.mem_singleton.mp mem
    exact .inr ⟨span, rfl⟩
  · exact .inl rfl

theorem name (h : Takes budget Grammar.name cursor final passed) :
    ∃ name span, passed = [.ident name span] ∧ Name.isIdentifier name = true := by
  rcases h.ite with ⟨holds, h⟩ | ⟨-, h⟩
  · obtain ⟨token, rfl, holds⟩ := h.token holds
    cases token with
    | ident name span => exact ⟨name, span, rfl, holds⟩
    | punct | literal | group => cases holds
  · exact h.fail.elim

theorem nameOrUnderscore (h : Takes budget Grammar.nameOrUnderscore cursor final passed) :
    ∃ name span, passed = [.ident name span]
      ∧ (Name.isPathSegment name = true ∨ name = "_") := by
  rcases h.ite with ⟨holds, h⟩ | ⟨-, h⟩
  · obtain ⟨name, mem, span, rfl⟩ := h.word holds
    exact ⟨name, span, rfl, .inr (List.mem_singleton.mp mem)⟩
  · obtain ⟨name, span, rfl, isName⟩ := h.name
    exact ⟨name, span, rfl, .inl (Bool.or_eq_true_iff.mpr (.inl isName))⟩

theorem expectMark {c : Char} (h : Takes budget (.expectMark [c]) cursor final passed) :
    ∃ joint span, passed = [.punct c joint span] ∧ final.previous = some (.punct c joint span) := by
  rcases h.ite with ⟨holds, h⟩ | ⟨-, h⟩
  · exact h.mark holds
  · exact h.fail.elim

theorem eatMark {c : Char} (h : Takes budget (.eatMark [c]) cursor final passed) :
    passed = [] ∨ ∃ joint span, passed = [.punct c joint span] := by
  rcases h.optional with ⟨holds, h⟩ | ⟨-, rfl, -⟩
  · obtain ⟨joint, span, rfl, -⟩ := h.mark holds
    exact .inr ⟨joint, span, rfl⟩
  · exact .inl rfl

theorem anyGroup (holds : (Look.token 0 .anyGroup).holds cursor = true)
    (h : Takes budget (.skip 1) cursor final passed) :
    ∃ delimiter content span, passed = [.group delimiter content span] := by
  obtain ⟨token, rfl, holds⟩ := h.token holds
  cases token with
  | group delimiter content span => exact ⟨delimiter, content, span, rfl⟩
  | punct | ident | literal => cases holds

theorem literal (h : Takes budget Grammar.optionalLiteral cursor final passed) :
    passed = [] ∨ ∃ lit, passed = [.literal lit] := by
  rcases h.optional with ⟨holds, h⟩ | ⟨-, rfl, -⟩
  · obtain ⟨token, rfl, holds⟩ := h.token holds
    cases token with
    | literal lit => exact .inr ⟨lit, rfl⟩
    | punct | ident | group => cases holds
  · exact .inl rfl

/-- Two colons that the lookahead has seen. -/
theorem colons_of_mark (holds : (Look.mark 0 Grammar.colons).holds cursor = true)
    (h : Takes budget (.skip 2) cursor final passed) :
    ∃ span joint' span', passed = [.punct ':' true span, .punct ':' joint' span'] := by
  obtain ⟨span, joint', span', tail, rest⟩ := Look.rest_of_colons holds
  obtain ⟨run, passes⟩ := h
  cases run
  exact ⟨span, joint', span', passes.of_advance [_, _] rest rfl⟩

theorem colons (h : Takes budget (.eatMark Grammar.colons) cursor final passed) :
    passed = [] ∨ ∃ span joint' span',
      passed = [.punct ':' true span, .punct ':' joint' span'] := by
  rcases h.optional with ⟨holds, h⟩ | ⟨-, rfl, -⟩
  · exact .inr (h.colons_of_mark holds)
  · exact .inl rfl

theorem pathSegment (h : Takes budget (.call (.pathSegment .expression)) cursor final passed) :
    ∃ name span, passed = [.ident name span] ∧ Name.isPathSegment name = true := by
  obtain ⟨_, -, h⟩ := h.call
  rcases h.ite with ⟨holds, h⟩ | ⟨-, h⟩
  · obtain ⟨token, rfl, holds⟩ := h.token holds
    cases token with
    | ident name span => exact ⟨name, span, rfl, holds⟩
    | punct | literal | group => cases holds
  · exact h.fail.elim

theorem pathTail {style : PathStyle}
    (h : Takes budget (.call (.pathTail style)) cursor final passed) :
    passed = [] ∨ ∃ span joint' span' rest,
      passed = .punct ':' true span :: .punct ':' joint' span' :: rest := by
  obtain ⟨_, -, h⟩ := h.call
  rcases h.optional with ⟨holds, h⟩ | ⟨-, rfl, -⟩
  · obtain ⟨_, _, rest, rfl, hcolons, -⟩ := h.seq
    obtain ⟨span, joint', span', rfl⟩ := hcolons.colons_of_mark holds
    exact .inr ⟨span, joint', span', rest, rfl⟩
  · exact .inl rfl

-- ---------------------------------------------------------------------------
-- Attributes and visibility
-- ---------------------------------------------------------------------------

theorem attributes (h : Takes budget (.call .outerAttrs) cursor final passed) :
    Token.Attributes passed := by
  refine h.repeated rfl .nil fun holds first more => ?_
  obtain ⟨joint, span, content, span', rest, eq⟩ := outerAttr_tokens holds
  obtain ⟨run, passes⟩ := first
  cases run
  obtain rfl := passes.of_advance [_, _] eq rfl
  exact .cons more

theorem innerAttributes (h : Takes budget (.call .innerAttrs) cursor final passed) :
    Token.InnerAttributes passed := by
  refine h.repeated rfl .nil fun holds first more => ?_
  obtain ⟨joint, span, joint', span', content, span'', rest, eq⟩ := innerAttr_tokens holds
  obtain ⟨run, passes⟩ := first
  cases run
  obtain rfl := passes.of_advance [_, _, _] eq rfl
  exact .cons more

theorem visibility (h : Takes budget (.call .visibility) cursor final passed) :
    passed = [] ∨ ∃ span, passed = [.ident "pub" span]
      ∨ ∃ content span', passed = [.ident "pub" span, .group .parenthesis content span'] := by
  obtain ⟨_, -, h⟩ := h.call
  rcases h.optional with ⟨holds, h⟩ | ⟨-, rfl, -⟩
  · obtain ⟨middle, before, after, rfl, skip, restricted⟩ := h.seq
    obtain ⟨name, mem, span, rfl⟩ := skip.word holds
    obtain rfl := List.mem_singleton.mp mem
    refine .inr ⟨span, ?_⟩
    rcases restricted.optional with ⟨holds, h⟩ | ⟨-, rfl, -⟩
    · obtain ⟨token, rfl, holds⟩ := h.token holds
      cases token with
      | group delimiter content span' =>
        obtain rfl := TokenTest.delimiter_of_head holds
        exact .inr ⟨content, span', rfl⟩
      | punct | ident | literal => cases holds
    · exact .inl rfl
  · exact .inl rfl

end Takes

end Rule

end AliasExpansion
