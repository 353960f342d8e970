-- SUMMARY: A body stays well formed when members and the contents of groups change.
import AliasExpansion.Proofs.Grammar.Exchange
import AliasExpansion.Proofs.Grammar.Insertion

/-!
# Bodies

`Grammar.content kind` is what the content of a body follows: inner attributes, where they are
allowed, and then members. A body stays well formed when attributes are put in front of some of
its members, and the places of members stay the same when contents of groups are exchanged.
-/

namespace AliasExpansion

open Grammar Rule

/-- What the content of a body with members of one kind follows. -/
def Grammar.content (kind : Member) : Production :=
  if kind.hasInnerAttrs then .seq (.call .innerAttrs) (.call (.members kind))
  else .call (.members kind)

theorem Grammar.content_injective {kind other : Member} (h : content kind = content other) :
    kind = other := by
  cases kind <;> cases other <;> first | rfl | cases h

theorem Grammar.content_skipsHeads (kind : Member) : (content kind).skipsHeads = true := by
  cases kind <;> rfl

-- ---------------------------------------------------------------------------
-- Exchanged contents
-- ---------------------------------------------------------------------------

section

variable {budget : Nat} {swap : Nat → List Token → List Token} {cursor final other : Cursor}

theorem Rule.Runs.outerAttrs_exchange (run : Runs budget (.call .outerAttrs) cursor final)
    (h : cursor.Exchanged swap other) :
    ∃ final', Runs budget (.call .outerAttrs) other final' ∧ final.Exchanged swap final' := by
  induction budget generalizing cursor other with
  | zero => cases run
  | succ budget ih =>
    have same : outerAttr.holds other = outerAttr.holds cursor := Look.holds_exchanged rfl h
    cases run with
    | call run =>
      cases run with
      | yes holds run =>
        cases run with
        | seq skip more =>
          cases skip
          obtain ⟨final', more', h'⟩ := ih more (h.advance 2)
          exact ⟨final', .call (.yes (same.trans holds) (.seq .skip more')), h'⟩
      | no fails run =>
        cases run
        exact ⟨other, .call (.no (same.trans fails) .done), h⟩

theorem Member.StartsItem.exchange {kind : Member} (starts : kind.StartsItem cursor)
    (h : cursor.Exchanged swap other) : kind.StartsItem other := by
  obtain ⟨budget, head, run, isItem⟩ := starts
  obtain ⟨head', run', h'⟩ := run.outerAttrs_exchange h
  refine ⟨budget, head', run', ?_⟩
  have same : itemStart.holds head' = itemStart.holds head := Look.holds_exchanged rfl h'
  rw [Member.isItem, same]
  exact isItem

end

-- ---------------------------------------------------------------------------
-- Inner attributes
-- ---------------------------------------------------------------------------

/-- A hash mark, as an outer attribute has it, completes no inner attribute. -/
theorem innerAttr_before_hash {previous previous' : Option Token} {before after tail : List Token}
    {joint : Bool} {span : Span}
    (holds : innerAttr.holds ⟨previous, before ++ .punct '#' joint span :: tail⟩ = true)
    (first : before ≠ []) : innerAttr.holds ⟨previous', before ++ after⟩ = true := by
  obtain ⟨hash, others⟩ := Bool.and_eq_true_iff.mp holds
  obtain ⟨bang, bracket⟩ := Bool.and_eq_true_iff.mp others
  match before with
  | [_] => cases bang
  | [_, _] => cases bracket
  | a :: b :: c :: rest => cases a <;> cases b <;> exact holds

/-- An attribute that is put in front of something makes no inner attribute. -/
theorem innerAttr_inject {marks : Nat → List Token} {tokens : List Token}
    (isAttribute : ∀ place, marks place ≠ [] → IsAttribute (marks place))
    {previous : Option Token} (fails : innerAttr.holds ⟨previous, tokens⟩ = false)
    (previous' : Option Token) : innerAttr.holds ⟨previous', Token.inject marks tokens⟩ = false := by
  rcases (Token.inject_cases tokens : Token.inject marks tokens = _ ∨ _) with
    same | ⟨before, after, split, ne, marked, eq⟩
  · rw [same]
    exact fails
  · by_cases first : before = []
    · rw [eq, first, List.nil_append]
      match after with
      | token :: rest =>
        rw [Token.inject]
        have isAttribute := isAttribute _ marked
        rw [List.length_cons] at isAttribute
        generalize marks (rest.length + 1) = mark at isAttribute
        cases isAttribute
        rfl
    · obtain ⟨joint, span, tail, hash⟩ := Token.inject_marked ne (isAttribute _ marked)
      rw [eq, hash, Bool.eq_false_iff]
      intro holds
      rw [split] at fails
      exact Bool.eq_false_iff.mp fails (innerAttr_before_hash holds first)

-- ---------------------------------------------------------------------------
-- Marked members
-- ---------------------------------------------------------------------------

/-- Attributes stand in front of members of the body that count as items only. -/
structure PlacedIn (marks : Nat → List Token) (kind : Member) (tokens : List Token) : Prop where
  isAttribute : ∀ place, marks place ≠ [] → IsAttribute (marks place)
  start : ∀ place, 0 < place → place ≤ tokens.length → marks place ≠ [] →
    ∃ entry, Reaches (content kind) (.start tokens) (.call (.members kind)) entry
      ∧ entry.rest.length = place ∧ kind.StartsItem entry

/-- A body stays well formed when some of its members get attributes. -/
theorem Rule.Accepts.inject {marks : Nat → List Token} {kind : Member} {tokens : List Token}
    (accepts : (content kind).Accepts tokens) (placed : PlacedIn marks kind tokens) :
    (content kind).Accepts (Token.inject marks tokens) := by
  obtain ⟨budget, final, run, ending⟩ := accepts
  obtain ⟨isAttribute, start⟩ := placed
  unfold content at run start ⊢
  split at run
  case isFalse without =>
    simp only [without] at start ⊢
    obtain ⟨final', run', ending'⟩ := run.members_inject ending ⟨isAttribute, start⟩
    exact ⟨_, final', run', ending'⟩
  case isTrue inner =>
    simp only [inner, if_true] at start ⊢
    cases run with
    | @seq _ _ _ _ middle _ attributes members =>
      have reach_members : ∀ place, 0 < place → place ≤ tokens.length → marks place ≠ [] →
          ∃ entry, Reaches (.call (.members kind)) middle (.call (.members kind)) entry
            ∧ entry.rest.length = place ∧ kind.StartsItem entry := by
        intro place pos le marked
        obtain ⟨entry, reach, eq, starts⟩ := start place pos le marked
        refine ⟨entry, ?_, eq, starts⟩
        cases reach with
        | first reach => cases reach.not_members
        | second run reach =>
          obtain rfl := run.unique attributes
          exact reach
      have shorter := attributes.length_le
      obtain ⟨final', members', ending'⟩ := members.members_inject ending
        ⟨isAttribute, fun place pos le => reach_members place pos (Nat.le_trans le shorter)⟩
      obtain ⟨passed, hpassed⟩ := attributes.passes
      obtain ⟨previous, rest⟩ := middle
      obtain rfl : tokens = passed ++ rest := hpassed.rest
      have stop := innerAttr_inject isAttribute attributes.innerAttrs_stop
      have attributes' := attributes.frame_innerAttrs stop
      have outside : Token.inject marks (passed ++ rest) = passed ++ Token.inject marks rest := by
        by_cases first : passed = []
        · rw [first, List.nil_append, List.nil_append]
        · have unmarked : ∀ place, rest.length < place → place ≤ (passed ++ rest).length →
              marks place = [] := by
            intro place lt le
            refine Classical.byContradiction fun marked => ?_
            obtain ⟨entry, reach, eq, -⟩ := reach_members place (by omega) le marked
            have : entry.rest.length ≤ rest.length := reach.length_le
            omega
          have longer : rest.length < (passed ++ rest).length := by
            have := List.length_pos_iff.mpr first
            rw [List.length_append]
            omega
          rw [Token.inject_append first fun place lt lt' => unmarked place lt (Nat.le_of_lt lt'),
            unmarked _ longer (Nat.le_refl _), List.nil_append]
      rw [outside]
      exact ⟨_, final', .seq (attributes'.mono (Nat.le_succ_of_le (Nat.le_max_left _ budget)))
        (members'.mono (Nat.succ_le_succ (Nat.le_max_right _ budget))), ending'⟩

end AliasExpansion
