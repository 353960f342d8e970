-- SUMMARY: Which parts of the grammar a run comes to, and at which place.
import AliasExpansion.Proofs.Grammar.Runs

/-!
# What a run comes to

`Rule.Reaches rule cursor target place` says that the rule, run from the cursor, comes to run the
rule `target` at the cursor `place`, outside of groups. A run enters a group at most once, so the
place of a group determines the rule that its content has to follow. The members of a body are
reached only by the repetition that goes through them.
-/

namespace AliasExpansion

namespace Rule

inductive Reaches : Production → Cursor → Production → Cursor → Prop where
  | here {rule cursor} : Reaches rule cursor rule cursor
  | first {first second cursor target place} (reach : Reaches first cursor target place) :
      Reaches (.seq first second) cursor target place
  | second {budget first second cursor middle target place}
      (run : Runs budget first cursor middle) (reach : Reaches second middle target place) :
      Reaches (.seq first second) cursor target place
  | yes {look yes no cursor target place} (holds : look.holds cursor = true)
      (reach : Reaches yes cursor target place) : Reaches (.ite look yes no) cursor target place
  | no {look yes no cursor target place} (fails : look.holds cursor = false)
      (reach : Reaches no cursor target place) : Reaches (.ite look yes no) cursor target place
  | call {nonterminal cursor target place} (reach : Reaches nonterminal.rule cursor target place) :
      Reaches (.call nonterminal) cursor target place

variable {rule target : Production} {cursor place : Cursor}

theorem Reaches.passes (h : Reaches rule cursor target place) :
    ∃ passed, cursor.Passes passed place := by
  induction h with
  | here => exact ⟨[], .refl _⟩
  | second run _ ih =>
    obtain ⟨before, h₁⟩ := run.passes
    obtain ⟨passed, h₂⟩ := ih
    exact ⟨before ++ passed, h₁.trans h₂⟩
  | first _ ih | yes _ _ ih | no _ _ ih | call _ ih => exact ih

theorem Reaches.length_le (h : Reaches rule cursor target place) :
    place.rest.length ≤ cursor.rest.length := by
  obtain ⟨passed, h⟩ := h.passes
  rw [h.rest, List.length_append]
  omega

theorem Reaches.trans {middle : Production} {entry : Cursor}
    (h : Reaches rule cursor middle entry) (h' : Reaches middle entry target place) :
    Reaches rule cursor target place := by
  induction h with
  | here => exact h'
  | first _ ih => exact .first (ih h')
  | second run _ ih => exact .second run (ih h')
  | yes holds _ ih => exact .yes holds (ih h')
  | no fails _ ih => exact .no fails (ih h')
  | call _ ih => exact .call (ih h')

-- ---------------------------------------------------------------------------
-- Groups
-- ---------------------------------------------------------------------------

section

variable {delimiter delimiter' : Delimiter} {inner inner' : Production} {place' : Cursor}

/-- A run that enters a group takes it. -/
theorem Reaches.group_taken {budget : Nat} {final : Cursor}
    (h : Reaches rule cursor (.within delimiter inner) place)
    (run : Runs budget rule cursor final) : final.rest.length < place.rest.length := by
  generalize htarget : Rule.within delimiter inner = target at h
  induction h generalizing budget final with
  | here =>
    subst htarget
    cases run with
    | within rest =>
      rw [Cursor.advance_rest, rest]
      exact Nat.lt_succ_self _
  | first _ ih =>
    cases run with
    | seq run₁ run₂ => exact Nat.lt_of_le_of_lt run₂.length_le (ih run₁ htarget)
  | second middle _ ih =>
    cases run with
    | seq run₁ run₂ =>
      obtain rfl := middle.unique run₁
      exact ih run₂ htarget
  | yes holds _ ih =>
    cases run with
    | yes _ run => exact ih run htarget
    | no fails => cases holds.symm.trans fails
  | no fails _ ih =>
    cases run with
    | yes holds => cases holds.symm.trans fails
    | no _ run => exact ih run htarget
  | call _ ih =>
    cases run with
    | call run => exact ih run htarget

/-- What is entered at a place is determined. -/
theorem Reaches.group_unique (h : Reaches rule cursor (.within delimiter inner) place)
    (h' : Reaches rule cursor (.within delimiter' inner') place')
    (same : place.rest.length = place'.rest.length) : inner = inner' ∧ place = place' := by
  generalize htarget : Rule.within delimiter inner = target at h
  induction h with
  | here =>
    subst htarget
    cases h'
    exact ⟨rfl, rfl⟩
  | first h ih =>
    subst htarget
    cases h' with
    | first h' => exact ih h' same rfl
    | second run h' =>
      have := h.group_taken run
      have := h'.length_le
      omega
  | second run h ih =>
    subst htarget
    cases h' with
    | first h' =>
      have := h'.group_taken run
      have := h.length_le
      omega
    | second run' h' =>
      obtain rfl := run.unique run'
      exact ih h' same rfl
  | yes holds _ ih =>
    subst htarget
    cases h' with
    | yes _ h' => exact ih h' same rfl
    | no fails => cases holds.symm.trans fails
  | no fails _ ih =>
    subst htarget
    cases h' with
    | yes holds => cases holds.symm.trans fails
    | no _ h' => exact ih h' same rfl
  | call _ ih =>
    subst htarget
    cases h' with
    | call h' => exact ih h' same rfl

end

-- ---------------------------------------------------------------------------
-- Members
-- ---------------------------------------------------------------------------

/-- The rule does not go through the members of a body, except inside groups. -/
def avoidsMembers : Production → Bool
  | .seq first second => first.avoidsMembers && second.avoidsMembers
  | .ite _ yes no => yes.avoidsMembers && no.avoidsMembers
  | .call (.members _) => false
  | _ => true

end Rule

theorem Nonterminal.avoidsMembers {nonterminal : Nonterminal}
    (other : ∀ kind, nonterminal ≠ .members kind) : nonterminal.rule.avoidsMembers = true := by
  cases nonterminal with
  | binaryTail minPrecedence position =>
    match minPrecedence with
    | 0 | 1 | 2 | 3 | 4 | 5 | 6 | 7 | 8 | 9 | 10 | 11 | n + 12 => rfl
  | path x | pathTail x | pathSegment x | type x | bounds x | unary x | primary x | pathExpr x
  | list x | member x | binary n x => cases x <;> rfl
  | members kind => exact absurd rfl (other kind)
  | _ => rfl

theorem Rule.Reaches.not_members {rule : Production} {cursor place : Cursor} {kind : Member}
    (h : Rule.Reaches rule cursor (.call (.members kind)) place) :
    rule.avoidsMembers = false := by
  generalize htarget : Rule.call (Nonterminal.members kind) = target at h
  induction h with
  | here => subst htarget; rfl
  | first _ ih => rw [Rule.avoidsMembers, ih htarget, Bool.false_and]
  | second _ _ ih => rw [Rule.avoidsMembers, ih htarget, Bool.and_false]
  | yes _ _ ih => rw [Rule.avoidsMembers, ih htarget, Bool.false_and]
  | no _ _ ih => rw [Rule.avoidsMembers, ih htarget, Bool.and_false]
  | @call nonterminal _ _ _ _ ih =>
    by_cases other : ∃ kind, nonterminal = .members kind
    · obtain ⟨_, rfl⟩ := other
      rfl
    · have avoids := Nonterminal.avoidsMembers (fun kind eq => other ⟨kind, eq⟩)
      cases avoids.symm.trans (ih htarget)

end AliasExpansion
