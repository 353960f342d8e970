-- SUMMARY: The members of a body are read one by one, whatever comes after each of them.
import AliasExpansion.Proofs.Grammar.Frame

/-!
# Boundaries between members

A member of a body, with its attributes, is read alike when an attribute is put in front of a
later member. Fields and variants end before a comma. An associated item ends with a semicolon or
with a body. A statement may end in the middle of what could go on, so there the next item itself
must keep the statement from going on (`Proofs/Grammar/Frame`).
-/

namespace AliasExpansion

open Grammar

namespace Rule

/-- A member with the attributes before it. -/
def member (kind : Member) : Production :=
  .seq (.call .outerAttrs) (.call (.member kind))

theorem member_closed (kind : Member) : (member kind).closed = true := by
  cases kind <;> rfl

-- ---------------------------------------------------------------------------
-- Statements
-- ---------------------------------------------------------------------------

/-- A statement is read alike when a later item gets an attribute. -/
theorem Runs.frame_statement {budget : Nat} {previous previous' : Option Token}
    {before after old : List Token} (opens : Opens old)
    (run : Runs budget (member .statement) ⟨previous, before ++ old⟩ ⟨previous', after ++ old⟩)
    (joint : Bool) (span : Span) (tail : List Token) :
    Runs budget (member .statement) ⟨previous, before ++ .punct '#' joint span :: tail⟩
      ⟨previous', after ++ .punct '#' joint span :: tail⟩ := by
  have fits := Seam.opening_fits opens joint span tail
  have table : ∀ slack nonterminal, Clear slack nonterminal → ∃ less ≤ slack,
      Framed (fun _ => True) old (.punct '#' joint span :: tail) Clear less nonterminal.rule := by
    rintro slack nonterminal ⟨guarded | rfl, le⟩
    · exact ⟨nonterminal.slack, le, framed_of_steady fits (Nonterminal.steady guarded)⟩
    · exact ⟨0, Nat.zero_le _, statement_framed fits⟩
  have left : ∀ after, True → after ++ old ≠ [] := fun after _ => by simp [fits.old_ne]
  exact run.frame (fun _ _ _ => trivial) table left (Nat.zero_le _) trivial
    ⟨⟨.inl rfl, Nat.le_refl 1⟩, .inr rfl, Nat.le_refl 0⟩

end Rule

-- ---------------------------------------------------------------------------
-- Rules that end with a barrier
-- ---------------------------------------------------------------------------

/-- The lookahead asks for a semicolon or a body. -/
def Look.asksBarrier : Look → Bool
  | .token 0 (.group .brace) => true
  | .mark 0 [';'] => true
  | _ => false

theorem Look.barrier_of_holds {look : Look} (asks : look.asksBarrier = true) {cursor : Cursor}
    (holds : look.holds cursor = true) :
    ∃ token rest, cursor.rest = token :: rest ∧ token.isBarrier = true := by
  obtain ⟨previous, _ | ⟨token, rest⟩⟩ := cursor
  · unfold asksBarrier at asks
    split at asks
    · cases holds
    · cases holds
    · cases asks
  · refine ⟨token, rest, rfl, ?_⟩
    unfold asksBarrier at asks
    split at asks
    · rcases token with _ | _ | _ | ⟨_ | _ | _ | _, _, _⟩ <;> first | rfl | cases holds
    · cases token with
      | punct c joint span =>
        have : c = ';' := by simpa [Look.holds, Token.spell] using holds
        simp only [Token.isBarrier, this, beq_self_eq_true, Bool.or_true]
      | _ => cases holds
    · cases asks

/-- Every run of the nonterminal takes a barrier last. If `eats`, it may look for a semicolon behind
    it. -/
def Nonterminal.closes (eats : Bool) : Nonterminal → Bool
  | .fn | .typeAlias | .item => true
  | .member .assocItem => eats
  | _ => false

namespace Rule

def isEatSemicolon : Production → Bool
  | .ite (.mark 0 [';']) (.skip 1) .done => true
  | _ => false

theorem eq_of_isEatSemicolon {rule : Production} (h : rule.isEatSemicolon = true) :
    rule = eatMark [';'] := by
  unfold isEatSemicolon at h
  split at h
  · rfl
  · cases h

/-- Every run of the rule takes a barrier last, after which, if `eats`, it may look for a semicolon.
    `ahead` says that a barrier comes next. -/
def closes (eats ahead : Bool) : Production → Bool
  | .fail _ => true
  | .skip count => ahead && count == 1
  | .seq first second =>
    second.closes eats false || eats && first.closes eats ahead && second.isEatSemicolon
  | .ite look yes no => yes.closes eats look.asksBarrier && no.closes eats false
  | .within delimiter _ => delimiter == .brace
  | .call nonterminal => nonterminal.closes eats
  | .done => false

end Rule

theorem Nonterminal.closes_rule {eats : Bool} {nonterminal : Nonterminal}
    (h : nonterminal.closes eats = true) : nonterminal.rule.closes eats false = true := by
  unfold Nonterminal.closes at h
  split at h
  · cases eats <;> rfl
  · cases eats <;> rfl
  · cases eats <;> rfl
  · subst h
    rfl
  · cases h

namespace Rule

variable {budget : Nat} {rule : Production} {previous previous' : Option Token}
  {before old new : List Token}

/-- A barrier before the seam keeps what is behind the seam from the first of two runs. -/
theorem Runs.frame_seq {first second : Production} {previous'' : Option Token} {passed : List Token}
    (run₁ : Runs budget first ⟨previous, before ++ old⟩ ⟨previous'', passed ++ old⟩)
    (closed : first.closed = true) (barrier : passed.any Token.isBarrier = true)
    (run₂ : Runs budget second ⟨previous'', passed ++ new⟩ ⟨previous', new⟩) :
    before.any Token.isBarrier = true
      ∧ Runs budget (.seq first second) ⟨previous, before ++ new⟩ ⟨previous', new⟩ := by
  obtain ⟨taken, rfl, -⟩ := run₁.passed_before
  exact ⟨by rw [List.any_append, barrier, Bool.or_true],
    .seq (run₁.frame_barrier closed barrier) run₂⟩

/-- A semicolon that is looked for is not there, or it is the last token before the seam. -/
theorem Runs.eatSemicolon_cases {rest : List Token}
    (run : Runs budget (eatMark [';']) ⟨previous, rest⟩ ⟨previous', old⟩) :
    (rest = old ∧ previous = previous') ∨ ∃ semicolon, semicolon.isBarrier = true
      ∧ rest = [semicolon] ++ old
      ∧ ∀ new, Runs budget (eatMark [';']) ⟨previous, [semicolon] ++ new⟩ ⟨previous', new⟩ := by
  generalize hfinal : Cursor.mk previous' old = final at run
  cases run with
  | yes holds run =>
    cases run
    obtain ⟨semicolon, tail, rfl, isBarrier⟩ :
        ∃ semicolon tail, rest = semicolon :: tail ∧ semicolon.isBarrier = true :=
      Look.barrier_of_holds rfl holds
    obtain ⟨rfl, rfl⟩ := Cursor.mk.injEq .. ▸ hfinal
    have barrier : [semicolon].any Token.isBarrier = true := by
      rw [List.any_cons, isBarrier, Bool.true_or]
    refine .inr ⟨semicolon, isBarrier, rfl, fun new => .yes ?_ .skip⟩
    exact (Look.holds_of_barrier rfl barrier previous old new).symm.trans holds
  | no _ run =>
    cases run
    obtain ⟨rfl, rfl⟩ := Cursor.mk.injEq .. ▸ hfinal
    exact .inl ⟨rfl, rfl⟩

/-- Moving over one token comes to the seam from the token right before it. -/
theorem eq_singleton_of_advance {token : Token} {tail : List Token}
    (rest : before ++ old = token :: tail)
    (h : Cursor.mk previous' old = Cursor.advance 1 ⟨previous, before ++ old⟩) :
    before = [token] ∧ previous' = some token := by
  rw [rest, Cursor.advance_cons, Cursor.advance_zero, Cursor.mk.injEq] at h
  obtain ⟨rfl, rfl⟩ := h
  exact ⟨(List.append_left_inj old).mp rest, rfl⟩

/-- A run that takes a barrier last and stops at the seam is the same whatever comes behind it,
    as long as that is no semicolon that it looks for. -/
theorem Runs.frame_closing {eats ahead : Bool}
    (run : Runs budget rule ⟨previous, before ++ old⟩ ⟨previous', old⟩)
    (closes : rule.closes eats ahead = true) (closed : rule.closed = true)
    (next : ahead = true → ∃ token rest, before ++ old = token :: rest ∧ token.isBarrier = true)
    (plain : eats = true → ∀ previous, (Look.mark 0 [';']).holds ⟨previous, new⟩ = false) :
    before.any Token.isBarrier = true
      ∧ Runs budget rule ⟨previous, before ++ new⟩ ⟨previous', new⟩ := by
  generalize hcursor : Cursor.mk previous (before ++ old) = cursor at run
  generalize hfinal : Cursor.mk previous' old = final at run
  induction run generalizing previous previous' before ahead with
  | done => cases closes
  | skip =>
    subst hcursor
    obtain ⟨isAhead, one⟩ := Bool.and_eq_true_iff.mp closes
    obtain rfl := eq_of_beq one
    obtain ⟨token, rest, eq, isBarrier⟩ := next isAhead
    obtain ⟨rfl, rfl⟩ := eq_singleton_of_advance eq hfinal
    exact ⟨by rw [List.any_cons, isBarrier, Bool.true_or], .skip⟩
  | @seq _ first second cursor middle final run₁ run₂ ih₁ ih₂ =>
    subst hcursor hfinal
    obtain ⟨previous'', rest⟩ := middle
    obtain ⟨firstClosed, secondClosed⟩ := Bool.and_eq_true_iff.mp closed
    rcases Bool.or_eq_true_iff.mp closes with secondCloses | h
    · obtain ⟨passed, hpassed⟩ := run₂.passes
      obtain rfl : rest = passed ++ old := hpassed.rest
      obtain ⟨barrier, run₂⟩ := ih₂ secondCloses secondClosed nofun rfl rfl
      exact run₁.frame_seq firstClosed barrier run₂
    · obtain ⟨both, isEat⟩ := Bool.and_eq_true_iff.mp h
      obtain ⟨mayEat, firstCloses⟩ := Bool.and_eq_true_iff.mp both
      obtain rfl := eq_of_isEatSemicolon isEat
      rcases run₂.eatSemicolon_cases with ⟨rfl, rfl⟩ | ⟨semicolon, isBarrier, rfl, eaten⟩
      · obtain ⟨barrier, run₁⟩ := ih₁ firstCloses firstClosed next rfl rfl
        exact ⟨barrier, .seq run₁ (.no (plain mayEat _) .done)⟩
      · have barrier : [semicolon].any Token.isBarrier = true := by
          rw [List.any_cons, isBarrier, Bool.true_or]
        exact run₁.frame_seq firstClosed barrier (eaten new)
  | yes holds run ih =>
    subst hcursor hfinal
    obtain ⟨yesCloses, -⟩ := Bool.and_eq_true_iff.mp closes
    obtain ⟨both, -⟩ := Bool.and_eq_true_iff.mp closed
    obtain ⟨lookClosed, yesClosed⟩ := Bool.and_eq_true_iff.mp both
    obtain ⟨barrier, run⟩ := ih yesCloses yesClosed (Look.barrier_of_holds · holds) rfl rfl
    refine ⟨barrier, .yes ?_ run⟩
    rw [← Look.holds_of_barrier lookClosed barrier previous old new]
    exact holds
  | no fails run ih =>
    subst hcursor hfinal
    obtain ⟨-, noCloses⟩ := Bool.and_eq_true_iff.mp closes
    obtain ⟨both, noClosed⟩ := Bool.and_eq_true_iff.mp closed
    obtain ⟨lookClosed, -⟩ := Bool.and_eq_true_iff.mp both
    obtain ⟨barrier, run⟩ := ih noCloses noClosed nofun rfl rfl
    refine ⟨barrier, .no ?_ run⟩
    rw [← Look.holds_of_barrier lookClosed barrier previous old new]
    exact fails
  | @call _ nonterminal _ _ run ih =>
    obtain ⟨barrier, run⟩ := ih (Nonterminal.closes_rule closes) nonterminal.closed nofun
      hcursor hfinal
    exact ⟨barrier, .call run⟩
  | within rest run ending =>
    subst hcursor
    obtain rfl := eq_of_beq closes
    obtain ⟨rfl, rfl⟩ := eq_singleton_of_advance rest hfinal
    exact ⟨rfl, .within rfl run ending⟩

/-- An associated item ends with a barrier, and is read alike whatever comes after it. -/
theorem Runs.frame_assocItem
    (run : Runs budget (member .assocItem) ⟨previous, before ++ old⟩ ⟨previous', old⟩)
    (plain : ∀ previous, (Look.mark 0 [';']).holds ⟨previous, new⟩ = false) :
    before.any Token.isBarrier = true
      ∧ Runs budget (member .assocItem) ⟨previous, before ++ new⟩ ⟨previous', new⟩ :=
  have closes : (member .assocItem).closes true false = true := rfl
  run.frame_closing closes (member_closed .assocItem) nofun fun _ => plain

-- ---------------------------------------------------------------------------
-- Attributes
-- ---------------------------------------------------------------------------

/-- Attributes are read as far as they go. -/
theorem Runs.attributes_stop {many : Nonterminal} {one : Look} {count : Nat} {cursor final : Cursor}
    (rule : many.rule = optional one (steps [.skip count, .call many]))
    (run : Runs budget (.call many) cursor final) : one.holds final = false := by
  induction budget generalizing cursor with
  | zero => cases run
  | succ budget ih =>
    cases run with
    | call run =>
      rw [rule] at run
      cases run with
      | yes _ run =>
        cases run with
        | seq _ more => exact ih more
      | no fails run =>
        cases run
        exact fails

theorem Runs.innerAttrs_stop {cursor final : Cursor}
    (run : Runs budget (.call .innerAttrs) cursor final) : innerAttr.holds final = false :=
  run.attributes_stop rfl

theorem Runs.outerAttrs_stop {cursor final : Cursor}
    (run : Runs budget (.call .outerAttrs) cursor final) : outerAttr.holds final = false :=
  run.attributes_stop rfl

/-- Attributes are read alike whatever comes after the last of them. The lookahead for an attribute
    sees the `count` tokens that it takes. -/
theorem Runs.frame_attributes {many : Nonterminal} {one : Look} {count : Nat}
    (rule : many.rule = optional one (steps [.skip count, .call many]))
    (seen : ∀ previous tokens, one.holds ⟨previous, tokens⟩ = true →
      count ≤ tokens.length ∧ ∀ tail, one.holds ⟨previous, tokens.take count ++ tail⟩ = true)
    (run : Runs budget (.call many) ⟨previous, before ++ old⟩ ⟨previous', old⟩)
    (plain : ∀ previous, one.holds ⟨previous, new⟩ = false) :
    Runs budget (.call many) ⟨previous, before ++ new⟩ ⟨previous', new⟩ := by
  induction budget generalizing previous before with
  | zero => cases run
  | succ budget ih =>
    generalize hfinal : Cursor.mk previous' old = final at run
    cases run with
    | call run =>
      rw [rule] at run
      refine .call ?_
      rw [rule]
      cases run with
      | yes holds run =>
        obtain ⟨enough, held⟩ := seen _ _ holds
        cases run with
        | seq skip more =>
          cases skip
          have le : count ≤ before.length := by
            have left := more.length_le
            rw [Cursor.advance_rest, List.length_drop, ← hfinal] at left
            simp only [List.length_append] at left enough
            omega
          rw [advance_append le, ← hfinal] at more
          rw [List.take_append_of_le_length le] at held
          have again := held (before.drop count ++ new)
          rw [← List.append_assoc, List.take_append_drop] at again
          have skip : Runs budget (.skip count) ⟨previous, before ++ new⟩ _ := .skip
          rw [advance_append le] at skip
          exact .yes again (.seq skip (ih more))
      | no _ run =>
        cases run
        obtain ⟨rfl, eq⟩ := Cursor.mk.injEq .. ▸ hfinal
        obtain rfl : before = [] := by simpa using eq
        exact .no (plain _) .done

/-- Inner attributes are read alike whatever comes after the last of them. -/
theorem Runs.frame_innerAttrs
    (run : Runs budget (.call .innerAttrs) ⟨previous, before ++ old⟩ ⟨previous', old⟩)
    (plain : ∀ previous, innerAttr.holds ⟨previous, new⟩ = false) :
    Runs budget (.call .innerAttrs) ⟨previous, before ++ new⟩ ⟨previous', new⟩ := by
  refine run.frame_attributes rfl (fun previous tokens holds => ?_) plain
  obtain ⟨-, others⟩ := Bool.and_eq_true_iff.mp holds
  obtain ⟨-, bracket⟩ := Bool.and_eq_true_iff.mp others
  match tokens with
  | [] | [_] | [_, _] => cases bracket
  | a :: b :: c :: rest =>
    refine ⟨by simp, fun tail => ?_⟩
    cases a <;> cases b <;> exact holds

/-- Outer attributes are read alike whatever comes after the last of them. -/
theorem Runs.frame_outerAttrs
    (run : Runs budget (.call .outerAttrs) ⟨previous, before ++ old⟩ ⟨previous', old⟩)
    (plain : ∀ previous, outerAttr.holds ⟨previous, new⟩ = false) :
    Runs budget (.call .outerAttrs) ⟨previous, before ++ new⟩ ⟨previous', new⟩ := by
  refine run.frame_attributes rfl (fun previous tokens holds => ?_) plain
  obtain ⟨-, bracket⟩ := Bool.and_eq_true_iff.mp holds
  match tokens with
  | [] | [_] => cases bracket
  | a :: b :: rest =>
    refine ⟨by simp, fun tail => ?_⟩
    cases a <;> exact holds

end Rule

end AliasExpansion
