-- SUMMARY: Attributes at places of a token tree, and bodies that stay well formed with them.
import AliasExpansion.Proofs.Grammar.Body
import AliasExpansion.Proofs.Grammar.Budget

/-!
# Marks

A place in a body is given by a path: the position of a token, or the position of a group and a
place in its content. `Token.markAll` puts tokens in front of the places of a body. If they are
attributes, and their places are members of the body (`MemberAt`), then the body stays well formed.
-/

namespace AliasExpansion

open Grammar Rule

namespace Token

-- ---------------------------------------------------------------------------
-- Marked tokens
-- ---------------------------------------------------------------------------

mutual

def mark (marks : List Nat → List Token) : Token → Token
  | .group delimiter content span => .group delimiter (markAll marks 0 content) span
  | token => token

/-- The tokens with `marks` in front of them, where `position` is the one of the first token. -/
def markAll (marks : List Nat → List Token) (position : Nat) : List Token → List Token
  | [] => []
  | token :: rest =>
    marks [position] ++ mark (fun path => marks (position :: path)) token ::
      markAll marks (position + 1) rest

end

theorem markAll_append (marks : List Nat → List Token) (position : Nat)
    (before after : List Token) :
    markAll marks position (before ++ after)
      = markAll marks position before ++ markAll marks (position + before.length) after := by
  induction before generalizing position with
  | nil => rfl
  | cons token before ih =>
    rw [List.cons_append, markAll, markAll, ih, List.append_assoc, List.cons_append,
      List.length_cons, Nat.add_assoc, Nat.add_comm 1]

mutual

theorem mark_congr {marks marks' : List Nat → List Token}
    (same : ∀ place path, marks (place :: path) = marks' (place :: path)) (token : Token) :
    mark marks token = mark marks' token := by
  match token with
  | .ident _ _ | .punct _ _ _ | .literal _ => rfl
  | .group delimiter content span =>
    rw [mark, mark, markAll_congr fun place path _ _ => same place path]

theorem markAll_congr {marks marks' : List Nat → List Token} {position : Nat}
    {tokens : List Token} (same : ∀ place path, position ≤ place →
      place < position + tokens.length → marks (place :: path) = marks' (place :: path)) :
    markAll marks position tokens = markAll marks' position tokens := by
  match tokens with
  | [] => rfl
  | token :: rest =>
    rw [List.length_cons] at same
    have inside : mark (fun path => marks (position :: path)) token
        = mark (fun path => marks' (position :: path)) token :=
      mark_congr (fun place path => same position (place :: path) (Nat.le_refl _) (by omega)) token
    have later : markAll marks (position + 1) rest = markAll marks' (position + 1) rest :=
      markAll_congr fun place path le lt => same place path (Nat.le_of_succ_le le) (by omega)
    rw [markAll, markAll, same position [] (Nat.le_refl _) (by omega), inside, later]

end

mutual

theorem mark_nil (token : Token) : mark (fun _ => []) token = token := by
  match token with
  | .ident _ _ | .punct _ _ _ | .literal _ => rfl
  | .group delimiter content span => rw [mark, markAll_nil]

@[simp] theorem markAll_nil (position : Nat) (tokens : List Token) :
    markAll (fun _ => []) position tokens = tokens := by
  match tokens with
  | [] => rfl
  | token :: rest => rw [markAll, mark_nil, markAll_nil, List.nil_append]

end

/-- Tokens without marks stay as they are. -/
theorem markAll_unmarked {marks : List Nat → List Token} {position : Nat} {tokens : List Token}
    (unmarked : ∀ place path, position ≤ place → place < position + tokens.length →
      marks (place :: path) = []) : markAll marks position tokens = tokens :=
  (markAll_congr unmarked).trans (markAll_nil position tokens)

/-- Marks of a body are marks of the contents of its groups, and marks between its tokens. -/
theorem markAll_eq_inject (marks : List Nat → List Token) (position : Nat) (tokens : List Token) :
    markAll marks position tokens
      = inject (fun left => marks [position + tokens.length - left])
          (exchange (fun left =>
            markAll (fun path => marks ((position + tokens.length - left) :: path)) 0) tokens) := by
  induction tokens generalizing position with
  | nil => rfl
  | cons token rest ih =>
    have first : position + (rest.length + 1) - (rest.length + 1) = position := by omega
    have later : position + (rest.length + 1) = position + 1 + rest.length := by omega
    rw [markAll, ih, exchange, inject, length_exchange, List.length_cons, first, later]
    cases token <;> rfl

theorem ident_of_markAll {marks : List Nat → List Token}
    (isAttribute : ∀ path, marks path ≠ [] → IsAttribute (marks path)) {tokens tail : List Token}
    {name : String} {span : Span} (h : markAll marks 0 tokens = .ident name span :: tail) :
    ∃ rest, tokens = .ident name span :: rest := by
  match tokens with
  | [] => cases h
  | token :: rest =>
    rw [markAll] at h
    by_cases unmarked : marks [0] = []
    · rw [unmarked, List.nil_append] at h
      cases token with
      | ident => cases h; exact ⟨rest, rfl⟩
      | _ => cases h
    · have isAttribute := isAttribute _ unmarked
      generalize marks [0] = mark at h isAttribute
      cases isAttribute
      cases h

end Token

-- ---------------------------------------------------------------------------
-- Members
-- ---------------------------------------------------------------------------

/-- At the path stands a member that counts as an item: one of the body itself, or of a body in
    it, where bodies are those of the grammar. -/
inductive MemberAt : Member → List Token → List Nat → Prop where
  | member {kind tokens place}
      (reach : Reaches (content kind) (.start tokens) (.call (.members kind)) place)
      (left : place.rest ≠ []) (starts : kind.StartsItem place) :
      MemberAt kind tokens [tokens.length - place.rest.length]
  | inside {kind inner tokens delimiter place body span tail path}
      (reach : Reaches (content kind) (.start tokens) (.within delimiter (content inner)) place)
      (rest : place.rest = .group delimiter body span :: tail) (member : MemberAt inner body path) :
      MemberAt kind tokens ((tokens.length - place.rest.length) :: path)

theorem MemberAt.ne_nil {kind : Member} {tokens : List Token} {path : List Nat}
    (h : MemberAt kind tokens path) : path ≠ [] := by
  cases h <;> exact List.cons_ne_nil _ _

theorem MemberAt.start {kind : Member} {tokens : List Token} {left : Nat}
    (h : MemberAt kind tokens [tokens.length - left]) (le : left ≤ tokens.length) :
    ∃ place, Reaches (content kind) (.start tokens) (.call (.members kind)) place
      ∧ place.rest.length = left ∧ kind.StartsItem place := by
  generalize hpath : [tokens.length - left] = path at h
  cases h with
  | @member _ _ place reach _ starts =>
    have := reach.length_le
    rw [Cursor.start_rest] at this
    have eq := (List.cons.inj hpath).1
    exact ⟨place, reach, by omega, starts⟩
  | inside _ _ member => exact absurd (List.cons.inj hpath).2.symm member.ne_nil

/-- A member inside a group is a member of the body that the grammar reads there. -/
theorem MemberAt.enter {kind : Member} {before content after : List Token} {delimiter : Delimiter}
    {span : Span} {path : List Nat}
    (h : MemberAt kind (before ++ .group delimiter content span :: after) (before.length :: path))
    (nested : path ≠ []) :
    ∃ inner delimiter' place,
      Reaches (Grammar.content kind) (.start (before ++ .group delimiter content span :: after))
        (.within delimiter' (Grammar.content inner)) place
      ∧ place.rest.length = after.length + 1 ∧ MemberAt inner content path := by
  generalize htokens : before ++ .group delimiter content span :: after = tokens at h ⊢
  generalize hpath : before.length :: path = whole at h
  cases h with
  | member => exact absurd (List.cons.inj hpath).2 nested
  | @inside _ inner _ delimiter' place body _ tail path' reach rest member =>
    obtain ⟨same, rfl⟩ := List.cons.inj hpath
    obtain ⟨passed, hpassed⟩ := reach.passes
    have split : before ++ .group delimiter content span :: after
        = passed ++ .group delimiter' body _ :: tail :=
      htokens.trans (hpassed.rest.trans (congrArg (passed ++ ·) rest))
    have length : before.length = passed.length := by
      have total := congrArg List.length hpassed.rest
      rw [Cursor.start_rest, List.length_append] at total
      omega
    have groups := (List.append_inj split length).2
    cases groups
    exact ⟨inner, delimiter, place, reach, congrArg List.length rest, member⟩

-- ---------------------------------------------------------------------------
-- Marked bodies
-- ---------------------------------------------------------------------------

theorem Token.weights_lt_of_group (before : List Token) (delimiter : Delimiter)
    (content : List Token) (span : Span) (after : List Token) :
    weights content < weights (before ++ .group delimiter content span :: after) := by
  rw [weights_append, weights, weight]
  omega

/-- A body stays well formed when some members of it, at any depth, get attributes. -/
theorem Rule.Accepts.markAll {marks : List Nat → List Token} {kind : Member} {tokens : List Token}
    (isAttribute : ∀ path, marks path ≠ [] → IsAttribute (marks path))
    (isMember : ∀ place path, marks (place :: path) ≠ [] → MemberAt kind tokens (place :: path))
    (accepts : (content kind).Accepts tokens) :
    (content kind).Accepts (Token.markAll marks 0 tokens) := by
  induction hsize : Token.weights tokens using Nat.strongRecOn generalizing marks kind tokens with
  | ind size ih =>
    subst hsize
    rw [Token.markAll_eq_inject, Nat.zero_add]
    obtain ⟨budget, final, run, ending⟩ := accepts
    generalize hswap : (fun left =>
      Token.markAll (fun path => marks ((tokens.length - left) :: path)) 0) = swap
    have heads : KeepsHeads swap := by
      intro left content name span rest h
      subst hswap
      exact Token.ident_of_markAll (fun path => isAttribute _) h
    have admits : AdmitsAll swap (content kind) (.start tokens) final := by
      intro before delimiter body span after split _ changed
      obtain rfl : tokens = _ := split
      have position : (before ++ Token.group delimiter body span :: after).length
          - (after.length + 1) = before.length := by
        rw [List.length_append, List.length_cons, Nat.add_sub_cancel]
      have swapped : swap (after.length + 1)
          = Token.markAll (fun path => marks (before.length :: path)) 0 := by
        rw [← hswap]
        dsimp only
        rw [position]
      rw [swapped] at changed
      obtain ⟨place, path, marked⟩ : ∃ place path, marks (before.length :: place :: path) ≠ [] := by
        refine Classical.byContradiction fun none => changed (Token.markAll_unmarked ?_)
        intro place path _ _
        exact Classical.byContradiction fun marked => none ⟨place, path, marked⟩
      obtain ⟨inner, delimiter', entry, reach, eq, -⟩ :=
        (isMember _ _ marked).enter (List.cons_ne_nil place path)
      refine ⟨delimiter', content inner, entry, reach, eq, fun old => ?_⟩
      rw [swapped]
      refine ih _ (Token.weights_lt_of_group ..) (fun path => isAttribute _) ?_ old rfl
      intro place' path' marked'
      obtain ⟨inner', _, entry', reach', eq', member⟩ :=
        (isMember _ _ marked').enter (List.cons_ne_nil place' path')
      have same := (reach.group_unique reach' (eq.trans eq'.symm)).1
      obtain rfl := content_injective same
      exact member
    have mirrors := run.exchange heads (content_skipsHeads kind) admits
      (show (Cursor.start tokens).Exchanged swap (.start (Token.exchange swap tokens))
        from ⟨rfl, rfl⟩)
    obtain ⟨budget', final', run', h⟩ := mirrors.run
    refine Accepts.inject ⟨budget', final', run', ?_⟩ ⟨fun left => isAttribute _, ?_⟩
    · rw [h.rest, ending]
      rfl
    · intro left pos le marked
      rw [Token.length_exchange] at le
      obtain ⟨place, reach, eq, starts⟩ := (isMember _ _ marked).start le
      obtain ⟨place', reach', hplace⟩ := mirrors.reach _ _ reach
      exact ⟨place', reach', by rw [hplace.rest, Token.length_exchange, eq], starts.exchange hplace⟩

end AliasExpansion
