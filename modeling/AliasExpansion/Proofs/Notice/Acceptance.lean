-- SUMMARY: A block that is accepted stays accepted when notices are attached to it.
import AliasExpansion.Proofs.Grammar.Budget
import AliasExpansion.Proofs.Notice.Entry
import AliasExpansion.Proofs.Notice.Marks

/-!
# Acceptance

Every target of the walk over a body is a member of a body of the grammar, unless a member that it
comes to misleads it. So attaching notices to a block keeps it accepted, and every attribute
stands in front of a member.
-/

namespace AliasExpansion

open Grammar Rule

-- ---------------------------------------------------------------------------
-- Where members are read
-- ---------------------------------------------------------------------------

namespace Member

variable {kind : Member} {budget total limit : Nat} {cursor head final : Cursor}
  {extents : List Extent} {extent : Extent} {tokens : List Token}

/-- The repetition of members comes to the member that stands before the cursor. -/
theorem Reads.reaches (h : kind.Reads budget cursor head final) :
    Reaches (.call (.members kind)) cursor (.call (.member kind)) head := by
  have more : Look.atEnd.holds cursor = false :=
    Bool.eq_false_iff.mpr fun ending => h.starts.left (Cursor.atEnd_iff.mp ending)
  have one : Reaches (Rule.member kind) cursor (.call (.member kind)) head :=
    .second h.attributes .here
  refine .call (.no more ?_)
  cases kind with
  | statement => exact .no (h.starts.plain rfl) (.first one)
  | assocItem | namedField | tupleField | variant => exact .first one

/-- Where a member is located, the repetition of members comes to, and reads it. -/
theorem Located.reads (h : Located kind budget total limit cursor extents)
    (mem : extent ∈ extents) :
    ∃ place head final, Reaches (.call (.members kind)) cursor (.call (.members kind)) place
      ∧ kind.Reads budget place head final ∧ extent = kind.extent total place head final := by
  induction h with
  | ending => cases mem
  | semicolon statement left holds _ ih =>
    obtain ⟨place, head, final, reach, rest⟩ := ih mem
    have step : kind.Next budget _ _ := .semicolon statement holds
    exact ⟨place, head, final, (step.reaches left).trans reach, rest⟩
  | joined joined reads _ ih =>
    rcases List.mem_cons.mp mem with rfl | mem
    · exact ⟨_, _, _, .here, reads, rfl⟩
    · obtain ⟨place, head, final, reach, rest⟩ := ih mem
      have step : kind.Next budget _ _ :=
        .joined joined reads.starts.plain (.seq reads.attributes reads.element)
      exact ⟨place, head, final, (step.reaches reads.starts.left).trans reach, rest⟩
  | separated separated reads holds _ ih =>
    rcases List.mem_cons.mp mem with rfl | mem
    · exact ⟨_, _, _, .here, reads, rfl⟩
    · obtain ⟨place, head, final, reach, rest⟩ := ih mem
      have step : kind.Next budget _ _ :=
        .separated separated (.seq reads.attributes reads.element) holds
      exact ⟨place, head, final, (step.reaches reads.starts.left).trans reach, rest⟩
  | last separated reads fails ending =>
    obtain rfl := List.mem_singleton.mp mem
    exact ⟨_, _, _, .here, reads, rfl⟩

/-- A member of a body is read at a place of it, and its tokens are those at its extent. -/
theorem reads_of_split (split : kind.split tokens = .ok extents) (mem : extent ∈ extents) :
    ∃ place head final, Reaches (content kind) (.start tokens) (.call (.members kind)) place
      ∧ kind.Reads (Grammar.budget tokens) place head final
      ∧ extent = kind.extent tokens.length place head final
      ∧ place.Passes (extent.slice tokens) final := by
  obtain ⟨first, inner, located⟩ := split_eq_ok.mp split
  obtain ⟨place, head, final, reach, reads, rfl⟩ := located.reads mem
  have whole : Reaches (content kind) (.start tokens) (.call (.members kind)) place := by
    unfold content
    split at inner
    · next has => rw [if_pos has]; exact .second inner reach
    · next without => rw [if_neg without]; exact inner ▸ reach
  obtain ⟨before, passes⟩ := whole.passes
  obtain ⟨passed, passes'⟩ := (Runs.seq reads.attributes reads.element).passes
  refine ⟨place, head, final, whole, reads, rfl, ?_⟩
  have split : tokens = before ++ place.rest := passes.rest
  rwa [slice_extent split passes']

end Member

-- ---------------------------------------------------------------------------
-- Targets
-- ---------------------------------------------------------------------------

namespace Placement

/-- The walk over a body comes to a member, of the body or of a body in it. -/
inductive Visits : Member → List Token → Member → List Token → Prop where
  | here {kind tokens extents extent} (split : kind.split tokens = .ok extents)
      (mem : extent ∈ extents) (isItem : extent.isItem = true) :
      Visits kind tokens kind (extent.slice tokens)
  | inside {kind tokens extents extent before delimiter content span after inner kind' member}
      (split : kind.split tokens = .ok extents) (mem : extent ∈ extents)
      (isItem : extent.isItem = true)
      (slice : extent.slice tokens = before ++ .group delimiter content span :: after)
      (entry : entry? kind (extent.slice tokens) = some (before.length, inner))
      (visits : Visits inner content kind' member) : Visits kind tokens kind' member

/-- A target of the walk is a member, if no member misleads the walk. -/
theorem Target.memberAt {kind : Member} {tokens : List Token} {path : List Nat}
    (h : Target kind tokens path)
    (plain : ∀ kind' member, Visits kind tokens kind' member → misleads kind' member = false) :
    MemberAt kind tokens path := by
  induction h with
  | member split mem isItem fresh =>
    obtain ⟨place, head, final, reach, reads, rfl, -⟩ := Member.reads_of_split split mem
    exact .member reach reads.starts.left ⟨_, head, reads.attributes, isItem⟩
  | @inside kind tokens extents extent before delimiter content span after inner path split mem
      isItem slice entry target ih =>
    obtain ⟨place, head, final, reach, reads, rfl, passes⟩ := Member.reads_of_split split mem
    have legible := plain _ _ (.here split mem isItem)
    obtain ⟨before', delimiter', content', span', after', group, slice', length, enters, rest⟩ :=
      member_enters reads passes isItem legible entry
    obtain ⟨rfl, same⟩ := List.append_inj (slice.symm.trans slice') length.symm
    cases same
    have reaches := (reach.trans reads.reaches).trans enters
    have position : (kind.extent tokens.length place head final).start + before.length
        = tokens.length - group.rest.length := by
      obtain ⟨passed, whole⟩ := reach.passes
      have total := congrArg List.length whole.rest
      have inside := congrArg List.length passes.rest
      rw [slice] at inside
      rw [rest]
      simp only [Cursor.start_rest, List.length_append, List.length_cons, Member.extent]
        at total inside ⊢
      omega
    rw [position]
    exact .inside reaches rest
      (ih fun _ _ visits => plain _ _ (.inside split mem isItem slice entry visits))

end Placement

namespace Notice

theorem attributesAt_cases {lead : String} {places : List Nat → Option Notice} {path : List Nat}
    (marked : attributesAt lead places path ≠ []) :
    places path ≠ none ∧ IsAttribute (attributesAt lead places path) := by
  unfold attributesAt at marked ⊢
  cases placed : places path with
  | none => rw [placed] at marked; exact absurd rfl marked
  | some notice => exact ⟨nofun, .mk⟩

/-- A block that is accepted stays accepted when notices are attached to it, and every attribute
    stands in front of an item, a field, a variant or an associated item, if no member that the
    walk comes to misleads it. -/
theorem emit_accepted {lead : String} {notices : List Notice} {tokens : List Token}
    (accepted : Category.block.check tokens = .ok ())
    (plain : ∀ kind member, Placement.Visits .statement tokens kind member →
      Placement.misleads kind member = false) :
    Category.block.check (emit lead notices tokens) = .ok ()
      ∧ ∃ places : List Nat → Option Notice,
          emit lead notices tokens = Token.markAll (attributesAt lead places) 0 tokens
          ∧ ∀ path, places path ≠ none → MemberAt .statement tokens path := by
  obtain ⟨_, places, target, out, -⟩ := emit_attaches lead notices tokens
  have members : ∀ path, places path ≠ none → MemberAt .statement tokens path :=
    fun path marked => (target path marked).memberAt plain
  refine ⟨?_, places, out, members⟩
  have accepts := Category.accepts_iff_accepts.mp (Category.accepts_iff.mpr accepted)
  have marked : (content .statement).Accepts
      (Token.markAll (attributesAt lead places) 0 tokens) := by
    refine Accepts.markAll ?_ ?_ accepts
    · exact fun path marked => (attributesAt_cases marked).2
    · exact fun place path marked => members _ (attributesAt_cases marked).1
  have emitted : emit lead notices tokens = Token.markAll (attributesAt lead places) 0 tokens := out
  rw [emitted]
  exact Category.accepts_iff.mp (Category.accepts_iff_accepts.mpr marked)

/-- The parameter of a struct may be a function, and its fields get a notice all the same. -/
theorem emit_accepted_fields :
    let tokens : List Token :=
      [.ident "struct" {}, .ident "S" {}, .punct '<' false {}, .ident "F" {}, .punct ':' false {},
        .ident "Fn" {}, .group .parenthesis [.ident "u8" {}] {}, .punct '>' false {},
        .group .parenthesis [.ident "F" {}] {}, .punct ';' false {}]
    Category.block.check tokens = .ok () ∧
      (∀ kind member, Placement.Visits .statement tokens kind member →
        Placement.misleads kind member = false) ∧
      Category.block.check (emit defaultLead [bracketSyntax, semicolonSeparator] tokens)
        = .ok () := by
  intro tokens
  have accepted : Category.block.check tokens = .ok () :=
    Category.accepts_iff.mp (by decide +kernel)
  have item : Member.statement.split tokens = .ok [⟨0, 10, true, []⟩] := rfl
  have plain : ∀ kind member, Placement.Visits .statement tokens kind member →
      Placement.misleads kind member = false := by
    intro kind member visits
    cases visits with
    | here split mem =>
      cases item.symm.trans split
      obtain rfl := List.mem_singleton.mp mem
      decide +kernel
    | inside split mem _ slice entry visits =>
      cases item.symm.trans split
      obtain rfl := List.mem_singleton.mp mem
      have fields : some (8, Member.tupleField) = some (_, _) := entry
      obtain ⟨-, rfl⟩ := Prod.mk.inj (Option.some.inj fields)
      cases visits with
      | here => rfl
      | inside _ _ _ _ entry => cases entry
  exact ⟨accepted, plain, (emit_accepted accepted plain).1⟩

/-- The arguments of a condition are taken for the fields of a struct. -/
theorem emit_condition_rejected :
    let tokens : List Token :=
      [.ident "struct" {}, .ident "S" {}, .punct '<' false {}, .ident "F" {}, .punct '>' false {},
        .ident "where" {}, .ident "F" {}, .punct ':' false {}, .ident "Fn" {},
        .group .parenthesis [.ident "u32" {}] {}, .punct ';' false {}]
    let notices : List Notice := [⟨"m1", none⟩, ⟨"m2", none⟩]
    Category.block.accepts tokens = true
      ∧ Category.block.accepts (emit defaultLead notices tokens) = false := by
  decide +kernel

end Notice

end AliasExpansion
