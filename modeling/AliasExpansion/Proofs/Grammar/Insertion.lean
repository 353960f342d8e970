-- SUMMARY: A body stays well formed when its members get attributes.
import AliasExpansion.Proofs.Grammar.Boundary
import AliasExpansion.Proofs.Grammar.Previous
import AliasExpansion.Proofs.Grammar.Reach
import AliasExpansion.Syntax.Split

/-!
# Attributes in front of members

The members of a body are read one after another (`Member.Next`). Attributes that are put in front
of some of them are read as theirs, and nothing else changes: each member is read alike whatever
attributes come later, and an attribute more in front of a member is one more of its outer
attributes. Places are named by the number of tokens from them to the end.
-/

namespace AliasExpansion

open Grammar Rule

-- ---------------------------------------------------------------------------
-- Inserted tokens
-- ---------------------------------------------------------------------------

/-- The two tokens of an outer attribute. -/
inductive IsAttribute : List Token → Prop where
  | mk {joint span content span'} :
      IsAttribute [.punct '#' joint span, .group .bracket content span']

/-- The tokens with `marks` in front of them. -/
def Token.inject (marks : Nat → List Token) : List Token → List Token
  | [] => []
  | token :: rest => marks (rest.length + 1) ++ token :: inject marks rest

section

variable {marks : Nat → List Token}

/-- No mark stands between the first tokens. -/
theorem Token.inject_append {before after : List Token} (ne : before ≠ [])
    (inside : ∀ place, after.length < place → place < (before ++ after).length → marks place = []) :
    inject marks (before ++ after)
      = marks (before ++ after).length ++ (before ++ inject marks after) := by
  induction before with
  | nil => exact absurd rfl ne
  | cons token before ih =>
    rw [List.cons_append, inject, List.length_cons]
    congr 2
    by_cases last : before = []
    · rw [last]
      rfl
    · have unmarked : marks (before ++ after).length = [] := by
        refine inside _ ?_ ?_
        · have := List.length_pos_iff.mpr last
          rw [List.length_append]
          omega
        · rw [List.cons_append, List.length_cons]
          omega
      rw [ih last fun place lt lt' => inside place lt (by rw [List.cons_append, List.length_cons]; omega),
        unmarked, List.nil_append]
      rfl

theorem Token.inject_marked {tokens : List Token} (ne : tokens ≠ [])
    (isAttribute : IsAttribute (marks tokens.length)) :
    ∃ joint span tail, inject marks tokens = .punct '#' joint span :: tail := by
  match tokens with
  | token :: rest =>
    rw [inject]
    rw [List.length_cons] at isAttribute
    generalize marks (rest.length + 1) = mark at isAttribute
    cases isAttribute
    exact ⟨_, _, _, rfl⟩

theorem Token.inject_ne {tokens : List Token} (ne : tokens ≠ []) : inject marks tokens ≠ [] := by
  match tokens with
  | token :: rest => simp [inject]

/-- Either nothing is inserted, or there is a first place where something is. -/
theorem Token.inject_cases (tokens : List Token) :
    inject marks tokens = tokens ∨ ∃ before after, tokens = before ++ after ∧ after ≠ []
      ∧ marks after.length ≠ [] ∧ inject marks tokens = before ++ inject marks after := by
  induction tokens with
  | nil => exact .inl rfl
  | cons token rest ih =>
    by_cases unmarked : marks (rest.length + 1) = []
    · rcases ih with same | ⟨before, after, rfl, ne, marked, eq⟩
      · exact .inl (by rw [inject, unmarked, same, List.nil_append])
      · exact .inr ⟨token :: before, after, rfl, ne, marked,
          by rw [inject, unmarked, eq, List.nil_append, List.cons_append]⟩
    · exact .inr ⟨[], token :: rest, rfl, List.cons_ne_nil _ _, unmarked, rfl⟩

end

-- ---------------------------------------------------------------------------
-- From one member to the next
-- ---------------------------------------------------------------------------

/-- The repetition of members goes from one place to another. -/
inductive Member.Next (kind : Member) : Nat → Cursor → Cursor → Prop where
  | semicolon {budget cursor} (joined : kind = .statement)
      (holds : (Look.mark 0 [';']).holds cursor = true) : Next kind budget cursor (cursor.advance 1)
  | joined {budget cursor final} (joined : kind.isSeparated = false)
      (plain : kind = .statement → (Look.mark 0 [';']).holds cursor = false)
      (run : Runs budget (member kind) cursor final) : Next kind budget cursor final
  | separated {budget cursor final} (separated : kind.isSeparated = true)
      (run : Runs budget (member kind) cursor final)
      (holds : (Look.mark 0 [',']).holds final = true) :
      Next kind budget cursor (final.advance 1)

theorem Member.Next.unique {kind : Member} {budget budget' : Nat} {cursor next next' : Cursor}
    (h : kind.Next budget cursor next) (h' : kind.Next budget' cursor next') : next = next' := by
  cases h with
  | semicolon joined holds =>
    cases h' with
    | semicolon => rfl
    | joined _ plain => cases holds.symm.trans (plain joined)
    | separated separated => subst joined; cases separated
  | joined joined plain run =>
    cases h' with
    | semicolon statement holds => cases holds.symm.trans (plain statement)
    | joined _ _ run' => exact run.unique run'
    | separated separated => cases joined.symm.trans separated
  | separated separated run =>
    cases h' with
    | semicolon joined => subst joined; cases separated
    | joined joined => cases joined.symm.trans separated
    | separated _ run' => rw [run.unique run']

theorem member_least (kind : Member) : 0 < (member kind).least := by
  cases kind <;> exact Nat.one_pos

theorem Member.Next.length_lt {kind : Member} {budget : Nat} {cursor next : Cursor}
    (h : kind.Next budget cursor next) (left : cursor.rest ≠ []) :
    next.rest.length < cursor.rest.length := by
  have least := member_least kind
  have pos := List.length_pos_iff.mpr left
  cases h with
  | semicolon => rw [Cursor.advance_rest, List.length_drop]; omega
  | joined _ _ run => exact run.length_lt left least
  | separated _ run =>
    have := run.length_lt left least
    rw [Cursor.advance_rest, List.length_drop]
    omega

/-- The members from one place on are that member and the rest. -/
theorem Member.Next.runs {kind : Member} {budget : Nat} {cursor next final : Cursor}
    (h : kind.Next budget cursor next) (left : cursor.rest ≠ [])
    (run : Runs budget (.call (.members kind)) next final) :
    Runs (budget + 1) (.call (.members kind)) cursor final := by
  have more : Look.atEnd.holds cursor = false :=
    Bool.eq_false_iff.mpr fun h => left (Cursor.atEnd_iff.mp h)
  refine .call (.no more ?_)
  cases h with
  | semicolon statement holds =>
    subst statement
    exact .yes holds (.seq .skip run)
  | joined joined plain one =>
    cases kind with
    | statement => exact .no (plain rfl) (.seq one run)
    | assocItem => exact .seq one run
    | namedField | tupleField | variant => cases joined
  | separated separated one holds =>
    cases kind with
    | statement | assocItem => cases separated
    | namedField | tupleField | variant => exact .seq one (.yes holds (.seq .skip run))

/-- The repetition comes from one place to the next. -/
theorem Member.Next.reaches {kind : Member} {budget : Nat} {cursor next : Cursor}
    (h : kind.Next budget cursor next) (left : cursor.rest ≠ []) :
    Reaches (.call (.members kind)) cursor (.call (.members kind)) next := by
  have more : Look.atEnd.holds cursor = false :=
    Bool.eq_false_iff.mpr fun h => left (Cursor.atEnd_iff.mp h)
  have skip : ∀ place, Runs budget (.skip 1) place (place.advance 1) := fun _ => .skip
  refine .call (.no more ?_)
  cases h with
  | semicolon statement holds =>
    subst statement
    exact .yes holds (.second (skip _) .here)
  | joined joined plain one =>
    cases kind with
    | statement => exact .no (plain rfl) (.second one .here)
    | assocItem => exact .second one .here
    | namedField | tupleField | variant => cases joined
  | separated separated one holds =>
    cases kind with
    | statement | assocItem => cases separated
    | namedField | tupleField | variant =>
      exact .second one (.yes holds (.second (skip _) .here))

/-- The last of separated members may end without a separator. -/
theorem Rule.Runs.members_last {kind : Member} {budget : Nat} {cursor final : Cursor}
    (separated : kind.isSeparated = true) (left : cursor.rest ≠ [])
    (run : Runs budget (member kind) cursor final) (ending : final.rest = []) :
    Runs (budget + 1) (.call (.members kind)) cursor final := by
  have more : Look.atEnd.holds cursor = false :=
    Bool.eq_false_iff.mpr fun h => left (Cursor.atEnd_iff.mp h)
  have comma : (Look.mark 0 [',']).holds final = false := by
    rw [Look.holds, ending]
    rfl
  refine .call (.no more ?_)
  cases kind with
  | statement | assocItem => cases separated
  | namedField | tupleField | variant => exact .seq run (.no comma .done)

/-- A run through members is at the end, or goes on to the next member, or ends after one. -/
theorem Rule.Runs.members_cases {kind : Member} {budget : Nat} {cursor final : Cursor}
    (run : Runs budget (.call (.members kind)) cursor final) :
    cursor.rest = [] ∨ ∃ less, budget = less + 1 ∧ cursor.rest ≠ []
      ∧ ((∃ next, kind.Next less cursor next ∧ Runs less (.call (.members kind)) next final)
        ∨ kind.isSeparated = true ∧ Runs less (member kind) cursor final) := by
  cases run with
  | @call less _ _ _ run =>
    cases run with
    | yes holds => exact .inl (Cursor.atEnd_iff.mp holds)
    | no fails run =>
      refine .inr ⟨less, rfl, (fun h => by cases (Cursor.atEnd_iff.mpr h).symm.trans fails), ?_⟩
      cases kind with
      | statement =>
        refine .inl ?_
        cases run with
        | yes holds run =>
          cases run with
          | seq skip run =>
            cases skip
            exact ⟨_, .semicolon rfl holds, run⟩
        | no fails run =>
          cases run with
          | seq one run => exact ⟨_, .joined rfl (fun _ => fails) one, run⟩
      | assocItem =>
        refine .inl ?_
        cases run with
        | seq one run => exact ⟨_, .joined rfl (fun h => by cases h) one, run⟩
      | namedField | tupleField | variant =>
        cases run with
        | seq one run =>
          cases run with
          | yes holds run =>
            cases run with
            | seq skip run =>
              cases skip
              exact .inl ⟨_, .separated rfl one holds, run⟩
          | no _ run =>
            cases run
            exact .inr ⟨rfl, one⟩

theorem Rule.Reaches.not_member {kind kind' : Member} {cursor place : Cursor}
    (h : Reaches (member kind) cursor (.call (.members kind')) place) : False := by
  have avoids : (member kind).avoidsMembers = true := by cases kind <;> rfl
  cases avoids.symm.trans h.not_members

/-- What the repetition of members comes to. -/
theorem Rule.Reaches.members_cases {kind kind' : Member} {cursor place : Cursor}
    (h : Reaches (.call (.members kind)) cursor (.call (.members kind')) place) :
    kind' = kind ∧ place = cursor ∨ ∃ budget next, kind.Next budget cursor next
      ∧ Reaches (.call (.members kind)) next (.call (.members kind')) place := by
  cases h with
  | here => exact .inl ⟨rfl, rfl⟩
  | call reach =>
    refine .inr ?_
    cases reach with
    | yes _ reach => cases reach
    | no _ reach =>
      cases kind with
      | statement =>
        cases reach with
        | yes holds reach =>
          cases reach with
          | first reach => cases reach
          | second skip reach =>
            cases skip
            exact ⟨0, _, .semicolon rfl holds, reach⟩
        | no fails reach =>
          cases reach with
          | first reach => exact reach.not_member.elim
          | second one reach => exact ⟨_, _, .joined rfl (fun _ => fails) one, reach⟩
      | assocItem =>
        cases reach with
        | first reach => exact reach.not_member.elim
        | second one reach => exact ⟨_, _, .joined rfl (fun h => by cases h) one, reach⟩
      | namedField | tupleField | variant =>
        cases reach with
        | first reach => exact reach.not_member.elim
        | second one reach =>
          cases reach with
          | yes holds reach =>
            cases reach with
            | first reach => cases reach
            | second skip reach =>
              cases skip
              exact ⟨_, _, .separated rfl one holds, reach⟩
          | no _ reach => cases reach

-- ---------------------------------------------------------------------------
-- Starts of members
-- ---------------------------------------------------------------------------

/-- A member that counts as an item starts at the place. -/
def Member.StartsItem (kind : Member) (place : Cursor) : Prop :=
  ∃ budget head, Runs budget (.call .outerAttrs) place head ∧ kind.isItem head = true

theorem opens_of_itemStart {previous : Option Token} {tokens : List Token}
    (holds : itemStart.holds ⟨previous, tokens⟩ = true) : Opens tokens := by
  rcases tokens with _ | ⟨⟨name, span⟩ | _ | _ | _, rest⟩
  any_goals cases holds
  refine .word fun reserved => ?_
  simp only [List.mem_cons, List.not_mem_nil, or_false] at reserved
  rcases reserved with rfl | rfl | rfl | rfl <;> cases holds

theorem outerAttr_tokens {cursor : Cursor} (holds : outerAttr.holds cursor = true) :
    ∃ joint span content span' rest,
      cursor.rest = .punct '#' joint span :: .group .bracket content span' :: rest := by
  obtain ⟨hash, bracket⟩ := Bool.and_eq_true_iff.mp holds
  obtain ⟨previous, _ | ⟨_ | ⟨c, joint, span⟩ | _ | _,
    _ | ⟨_ | _ | _ | ⟨d, content, span'⟩, rest⟩⟩⟩ := cursor
  any_goals cases hash
  any_goals cases bracket
  obtain rfl : c = '#' := eq_of_beq hash
  obtain rfl : d = .bracket := of_decide_eq_true bracket
  exact ⟨joint, span, content, span', rest, rfl⟩

theorem innerAttr_tokens {cursor : Cursor} (holds : innerAttr.holds cursor = true) :
    ∃ joint span joint' span' content span'' rest,
      cursor.rest = .punct '#' joint span :: .punct '!' joint' span' ::
        .group .bracket content span'' :: rest := by
  obtain ⟨hash, others⟩ := Bool.and_eq_true_iff.mp holds
  obtain ⟨bang, bracket⟩ := Bool.and_eq_true_iff.mp others
  obtain ⟨previous, _ | ⟨_ | ⟨c, joint, span⟩ | _ | _, _ | ⟨_ | ⟨c', joint', span'⟩ | _ | _,
    _ | ⟨_ | _ | _ | ⟨d, content, span''⟩, rest⟩⟩⟩⟩ := cursor
  any_goals cases hash
  any_goals cases bang
  any_goals cases bracket
  obtain rfl : c = '#' := eq_of_beq hash
  obtain rfl : c' = '!' := eq_of_beq bang
  obtain rfl : d = .bracket := of_decide_eq_true bracket
  exact ⟨joint, span, joint', span', content, span'', rest, rfl⟩

theorem Member.StartsItem.opens {place : Cursor} (h : Member.statement.StartsItem place) :
    Opens place.rest := by
  obtain ⟨budget, head, run, isItem⟩ := h
  cases run with
  | call run =>
    cases run with
    | yes holds =>
      obtain ⟨joint, span, content, span', rest, eq⟩ := outerAttr_tokens holds
      rw [eq]
      exact .mark
    | no _ run =>
      cases run
      exact opens_of_itemStart isItem

/-- Attributes stand in front of members that count as items only. -/
structure Placed (marks : Nat → List Token) (kind : Member) (cursor : Cursor) : Prop where
  isAttribute : ∀ place, marks place ≠ [] → IsAttribute (marks place)
  start : ∀ place, 0 < place → place ≤ cursor.rest.length → marks place ≠ [] →
    ∃ entry, Reaches (.call (.members kind)) cursor (.call (.members kind)) entry
      ∧ entry.rest.length = place ∧ kind.StartsItem entry

section

variable {marks : Nat → List Token} {kind : Member} {budget : Nat} {cursor next : Cursor}

theorem Placed.after (h : Placed marks kind cursor) (step : kind.Next budget cursor next)
    (left : cursor.rest ≠ []) : Placed marks kind next := by
  refine ⟨h.isAttribute, fun place pos le marked => ?_⟩
  have lt := step.length_lt left
  obtain ⟨entry, reach, eq, starts⟩ := h.start place pos (by omega) marked
  rcases reach.members_cases with ⟨-, rfl⟩ | ⟨_, other, step', reach⟩
  · omega
  · obtain rfl := step.unique step'
    exact ⟨entry, reach, eq, starts⟩

/-- No attribute stands inside a member. -/
theorem Placed.inside (h : Placed marks kind cursor) (step : kind.Next budget cursor next)
    (place : Nat) (lt : next.rest.length < place) (lt' : place < cursor.rest.length) :
    marks place = [] := by
  refine Classical.byContradiction fun marked => ?_
  obtain ⟨entry, reach, eq, -⟩ := h.start place (by omega) (by omega) marked
  rcases reach.members_cases with ⟨-, rfl⟩ | ⟨_, other, step', reach⟩
  · omega
  · obtain rfl := step.unique step'
    have := reach.length_le
    omega

/-- An attribute more in front of a member is one of its attributes. -/
theorem Rule.Runs.member_marked {final : Cursor} {mark : List Token}
    (run : Runs budget (member kind) cursor final) (left : cursor.rest ≠ [])
    (isAttribute : IsAttribute mark) (previous : Option Token) :
    Runs (budget + 1) (member kind) ⟨previous, mark ++ cursor.rest⟩ final := by
  cases isAttribute with
  | @mk joint span content span' =>
    have fresh : (member kind).fresh = true := by cases kind <;> rfl
    have moved : final.rest ≠ cursor.rest := fun same => by
      have := run.length_lt left (member_least kind)
      rw [same] at this
      exact Nat.lt_irrefl _ this
    have shifted : Runs budget (member kind)
        ⟨some (.group .bracket content span'), cursor.rest⟩ final :=
      run.previous_irrelevant fresh left rfl moved
    cases shifted with
    | seq attributes element =>
      exact .seq (.call (.yes rfl (.seq .skip attributes))) (element.mono (Nat.le_succ _))

/-- A member is one, too, with what is put in front of it. -/
theorem Rule.Runs.member_fronted {final : Cursor} {mark : List Token}
    (run : Runs budget (member kind) cursor final) (left : cursor.rest ≠ [])
    (isAttribute : mark ≠ [] → IsAttribute mark) :
    Runs (budget + 1) (member kind) ⟨cursor.previous, mark ++ cursor.rest⟩ final := by
  by_cases unmarked : mark = []
  · rw [unmarked, List.nil_append]
    exact run.mono (Nat.le_succ _)
  · exact run.member_marked left (isAttribute unmarked) _

/-- A barrier stands between an associated item and a later one. -/
theorem Rule.Reaches.barrier {entry : Cursor} {previous : Option Token} {before : List Token}
    (reach : Reaches (.call (.members .assocItem)) ⟨previous, before ++ entry.rest⟩
      (.call (.members .assocItem)) entry)
    (ne : before ≠ []) (left : entry.rest ≠ []) : before.any Token.isBarrier = true := by
  rcases reach.members_cases with ⟨-, same⟩ | ⟨_, next, step, reach⟩
  · have := congrArg (List.length ∘ Cursor.rest) same
    simp only [Function.comp_apply, List.length_append] at this
    have := List.length_pos_iff.mpr ne
    omega
  · cases step with
    | joined _ _ one =>
      obtain ⟨taken, htaken⟩ := one.passes
      obtain ⟨more, hmore⟩ := reach.passes
      have htaken := htaken.rest
      have whole : before = taken ++ more := by
        rw [hmore.rest, ← List.append_assoc] at htaken
        exact (List.append_left_inj _).mp htaken
      dsimp only at htaken
      rw [htaken] at one
      have left : next.rest ≠ [] := by
        rw [hmore.rest]
        simp [left]
      have ends : ∀ previous, (Look.mark 0 [';']).holds ⟨previous, []⟩ = false := fun _ => rfl
      rw [whole, List.any_append, (one.frame_assocItem ends).1, Bool.true_or]
    | semicolon statement => cases statement
    | separated separated => cases separated

/-- Reading a member does not change when members that come later get attributes. -/
theorem Rule.Runs.member_inject {final : Cursor} (joined : kind.isSeparated = false)
    (placed : Placed marks kind final) {passed : List Token} {previous : Option Token}
    (run : Runs budget (member kind) ⟨previous, passed ++ final.rest⟩ final) :
    Runs budget (member kind) ⟨previous, passed ++ Token.inject marks final.rest⟩
      ⟨final.previous, Token.inject marks final.rest⟩ := by
  rcases (Token.inject_cases final.rest : Token.inject marks final.rest = _ ∨ _) with
    same | ⟨before, after, split, ne, marked, eq⟩
  · rw [same]
    exact run
  · obtain ⟨entry, reach, len, starts⟩ := placed.start after.length (List.length_pos_iff.mpr ne)
      (by rw [split, List.length_append]; omega) marked
    obtain ⟨joint, span, tail, hash⟩ := Token.inject_marked ne (placed.isAttribute _ marked)
    obtain ⟨skipped, hskipped⟩ := reach.passes
    obtain ⟨rfl, rfl⟩ := List.append_inj' (split.symm.trans hskipped.rest) len.symm
    obtain ⟨previous', rest⟩ := final
    obtain rfl : rest = before ++ entry.rest := split
    rw [← List.append_assoc] at run
    rw [eq, ← List.append_assoc, hash]
    cases kind with
    | namedField | tupleField | variant => cases joined
    | statement => exact run.frame_statement starts.opens joint span tail
    | assocItem =>
      by_cases first : before = []
      · subst first
        rw [List.append_nil] at run ⊢
        exact (run.frame_assocItem fun _ => rfl).2
      · exact run.frame_barrier (member_closed _) (reach.barrier first ne)

theorem Look.mark_cons (c : Char) (previous : Option Token) (token : Token) (rest : List Token) :
    (Look.mark 0 [c]).holds ⟨previous, token :: rest⟩ = token.isPunct c := by
  cases token <;> rfl

/-- A further semicolon between statements has no attribute. -/
theorem Placed.unmarked_semicolon (placed : Placed marks .statement cursor)
    (holds : (Look.mark 0 [';']).holds cursor = true) : marks cursor.rest.length = [] := by
  obtain ⟨previous, _ | ⟨token, rest⟩⟩ := cursor
  · cases holds
  · rw [Look.mark_cons] at holds
    refine Classical.byContradiction fun marked => ?_
    obtain ⟨entry, reach, eq, starts⟩ := placed.start _ (Nat.succ_pos _) (Nat.le_refl _) marked
    obtain ⟨passed, hpassed⟩ := reach.passes
    have opens := starts.opens
    rw [← (List.append_inj' (show [] ++ token :: rest = passed ++ entry.rest from hpassed.rest)
      eq.symm).2] at opens
    cases opens <;> cases holds

/-- A further semicolon between statements stays one. -/
theorem Member.Next.inject_semicolon (holds : (Look.mark 0 [';']).holds cursor = true)
    (placed : Placed marks .statement cursor) :
    Member.statement.Next budget ⟨cursor.previous, Token.inject marks cursor.rest⟩
      ⟨(cursor.advance 1).previous, Token.inject marks (cursor.advance 1).rest⟩ := by
  have unmarked := placed.unmarked_semicolon holds
  obtain ⟨previous, _ | ⟨token, rest⟩⟩ := cursor
  · cases holds
  · rw [Look.mark_cons] at holds
    rw [List.length_cons] at unmarked
    rw [Token.inject, unmarked, List.nil_append]
    exact .semicolon rfl ((Look.mark_cons _ _ _ _).trans holds)

/-- A statement or associated item is read up to the next one. -/
theorem Member.Next.inject_joined (joined : kind.isSeparated = false)
    (plain : kind = .statement → (Look.mark 0 [';']).holds cursor = false)
    (run : Runs budget (member kind) cursor next) (left : cursor.rest ≠ [])
    (placed : Placed marks kind cursor) :
    kind.Next (budget + 1) ⟨cursor.previous, Token.inject marks cursor.rest⟩
      ⟨next.previous, Token.inject marks next.rest⟩ := by
  have step : kind.Next budget cursor next := .joined joined plain run
  have inside := placed.inside step
  have after := placed.after step left
  have shorter := step.length_lt left
  obtain ⟨passed, hpassed⟩ := run.passes
  obtain ⟨previous, rest⟩ := cursor
  obtain rfl : rest = passed ++ next.rest := hpassed.rest
  have ne : passed ≠ [] := by
    rintro rfl
    exact Nat.lt_irrefl _ shorter
  have framed := run.member_inject joined after
  dsimp only at inside ⊢
  rw [Token.inject_append ne inside]
  refine .joined joined (fun statement => ?_)
    (framed.member_fronted (by simp [ne]) (placed.isAttribute _))
  have isAttribute := placed.isAttribute (passed ++ next.rest).length
  generalize marks (passed ++ next.rest).length = mark at isAttribute
  by_cases unmarked : mark = []
  · subst unmarked
    have plain := plain statement
    match passed with
    | token :: passed => exact (Look.mark_cons ..).trans ((Look.mark_cons ..).symm.trans plain)
  · cases isAttribute unmarked
    rfl

/-- A separated member is read up to the comma behind it. -/
theorem Member.Next.inject_separated {final : Cursor} (separated : kind.isSeparated = true)
    (run : Runs budget (member kind) cursor final)
    (holds : (Look.mark 0 [',']).holds final = true) (placed : Placed marks kind cursor) :
    kind.Next (budget + 1) ⟨cursor.previous, Token.inject marks cursor.rest⟩
      ⟨(final.advance 1).previous, Token.inject marks (final.advance 1).rest⟩ := by
  have inside := placed.inside (.separated separated run holds)
  obtain ⟨passed, hpassed⟩ := run.passes
  obtain ⟨previous, rest⟩ := cursor
  obtain ⟨previous', _ | ⟨token, tail⟩⟩ := final
  · cases holds
  rw [Look.mark_cons] at holds
  obtain rfl : rest = (passed ++ [token]) ++ tail := by
    rw [List.append_assoc]
    exact hpassed.rest
  have barrier : [token].any Token.isBarrier = true := by
    cases token with
    | punct c =>
      have comma : (c == ',') = true := holds
      simp only [List.any_cons, Token.isBarrier, comma, Bool.true_or]
    | _ => cases holds
  have framed : Runs budget (member kind) ⟨previous, (passed ++ [token]) ++ Token.inject marks tail⟩
      ⟨previous', [token] ++ Token.inject marks tail⟩ := by
    by_cases ending : tail = []
    · subst ending
      exact run
    · exact (show Runs budget (member kind) ⟨previous, (passed ++ [token]) ++ tail⟩
        ⟨previous', [token] ++ tail⟩ from run).frame_barrier (member_closed _) barrier
  have last : (Look.mark 0 [',']).holds ⟨previous', [token] ++ Token.inject marks tail⟩ = true :=
    (Look.mark_cons ..).trans holds
  dsimp only [Cursor.advance_cons, Cursor.advance_zero] at inside ⊢
  rw [Token.inject_append (by simp) inside]
  exact .separated separated (framed.member_fronted (by simp) (placed.isAttribute _)) last

/-- Attributes in front of members do not change how one member follows another. -/
theorem Member.Next.inject (step : kind.Next budget cursor next) (left : cursor.rest ≠ [])
    (placed : Placed marks kind cursor) :
    kind.Next (budget + 1) ⟨cursor.previous, Token.inject marks cursor.rest⟩
      ⟨next.previous, Token.inject marks next.rest⟩ := by
  cases step with
  | semicolon statement holds =>
    subst statement
    exact inject_semicolon holds placed
  | joined joined plain run => exact inject_joined joined plain run left placed
  | separated separated run holds => exact inject_separated separated run holds placed

/-- A last member is read alike with an attribute in front of it. -/
theorem Rule.Runs.last_inject {final : Cursor} (separated : kind.isSeparated = true)
    (run : Runs budget (member kind) cursor final) (ending : final.rest = [])
    (left : cursor.rest ≠ []) (placed : Placed marks kind cursor) :
    Runs (budget + 1) (member kind) ⟨cursor.previous, Token.inject marks cursor.rest⟩ final := by
  have inside : ∀ place, ([] : List Token).length < place → place < (cursor.rest ++ []).length →
      marks place = [] := by
    intro place pos lt
    rw [List.append_nil] at lt
    refine Classical.byContradiction fun marked => ?_
    obtain ⟨entry, reach, eq, -⟩ := placed.start place pos (Nat.le_of_lt lt) marked
    rcases reach.members_cases with ⟨-, rfl⟩ | ⟨_, other, step, -⟩
    · omega
    · cases step with
      | semicolon statement => subst statement; cases separated
      | joined joined => cases joined.symm.trans separated
      | separated _ run' holds =>
        rw [← run.unique run', Look.holds, ending] at holds
        cases holds
  have eq := Token.inject_append left inside
  rw [List.append_nil] at eq
  rw [eq, Token.inject, List.append_nil]
  exact run.member_fronted left (placed.isAttribute _)

/-- Members stay well formed when some of them get attributes. -/
theorem Rule.Runs.members_inject {final : Cursor}
    (run : Runs budget (.call (.members kind)) cursor final) (ending : final.rest = [])
    (placed : Placed marks kind cursor) :
    ∃ final', Runs (budget + 1) (.call (.members kind))
      ⟨cursor.previous, Token.inject marks cursor.rest⟩ final' ∧ final'.rest = [] := by
  induction budget generalizing cursor with
  | zero => cases run
  | succ budget ih =>
    rcases run.members_cases with nil | ⟨less, eq, left, (⟨next, step, run⟩ | ⟨separated, one⟩)⟩
    · rw [nil]
      exact ⟨_, .call (.yes rfl .done), rfl⟩
    · obtain rfl := Nat.succ.inj eq
      obtain ⟨final', run', ending'⟩ := ih run (placed.after step left)
      exact ⟨final', (step.inject left placed).runs (Token.inject_ne left) run', ending'⟩
    · obtain rfl := Nat.succ.inj eq
      have one' := one.last_inject separated ending left placed
      exact ⟨final, one'.members_last separated (Token.inject_ne left) ending, ending⟩

end

end AliasExpansion
