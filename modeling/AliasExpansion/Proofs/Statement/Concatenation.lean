-- SUMMARY: Blocks that end with a semicolon or an item can be put in front of other blocks.
import AliasExpansion.Proofs.Statement.Locality
import AliasExpansion.Proofs.Statement.Sequence

/-!
# Concatenation of blocks

The statements of a block that ends with a semicolon or an item are read alike when another block
comes behind it. So the two make one block, of the statements of both (`Member.split_append`).
-/

namespace AliasExpansion

open Grammar Rule

/-- The extent, counted from `offset` tokens before. -/
def Extent.shift (offset : Nat) (extent : Extent) : Extent :=
  { extent with start := offset + extent.start, stop := offset + extent.stop }

namespace Member

/-- The last token is a semicolon, or the last statement is an item. -/
def EndsStatement (tokens : List Token) (extents : List Extent) : Prop :=
  (∃ joint span, tokens.getLast? = some (.punct ';' joint span))
    ∨ ∃ last, extents.getLast? = some last ∧ last.isItem = true

variable {budget total total' : Nat} {cursor head final other : Cursor}
  {extents extents' : List Extent} {first second tokens : List Token}

-- ---------------------------------------------------------------------------
-- The second block
-- ---------------------------------------------------------------------------

/-- The statements of a block stand further behind when tokens come before it. -/
theorem Statements.shift (h : Statements total cursor extents) (le : cursor.rest.length ≤ total)
    (offset : Nat) : Statements (offset + total) cursor (extents.map (Extent.shift offset)) := by
  induction h with
  | ending ending => exact .ending ending
  | semicolon holds _ ih =>
    rw [Cursor.advance_rest, List.length_drop] at ih
    exact .semicolon holds (ih (by omega))
  | @statement budget cursor head final extents reads _ ih =>
    have shorter := reads.length_lt
    have same : (extent .statement total cursor head final).shift offset
        = extent .statement (offset + total) cursor head final := by
      simp only [Extent.shift, extent, Nat.add_sub_assoc le,
        Nat.add_sub_assoc (show final.rest.length ≤ total by omega)]
    rw [List.map_cons, same]
    exact .statement reads (ih (by omega))

/-- Statements are read alike whatever token stands before them. -/
theorem Statements.other_previous (h : Statements total cursor extents)
    (same : other.rest = cursor.rest) : Statements total other extents := by
  cases h with
  | ending ending => exact .ending (same.trans ending)
  | semicolon holds more =>
    obtain ⟨previous, rest⟩ := cursor
    obtain ⟨previous', rest'⟩ := other
    obtain rfl : rest' = rest := same
    match rest' with
    | [] => cases holds
    | token :: rest => exact .semicolon holds more
  | @statement budget cursor head final extents reads more =>
    obtain ⟨head', reads', same'⟩ := reads.other_previous same
    have sameExtent : extent .statement total cursor head final
        = extent .statement total other head' final := by
      unfold extent
      rw [same, isItem_of_rest same']
    rw [sameExtent]
    exact .statement reads' more

-- ---------------------------------------------------------------------------
-- The first block
-- ---------------------------------------------------------------------------

theorem Statements.eq_nil (h : Statements total cursor extents) (ending : cursor.rest = []) :
    extents = [] := by
  cases h with
  | ending => rfl
  | semicolon holds => exact absurd ending (rest_ne_of_semicolon holds)
  | statement reads => exact absurd ending reads.starts.left

/-- Where no statement follows, the last token is a semicolon. -/
theorem Statements.last_semicolon (h : Statements total cursor []) (left : cursor.rest ≠ []) :
    ∃ joint span, cursor.rest.getLast? = some (.punct ';' joint span) := by
  generalize none : [] = extents at h
  induction h with
  | ending ending => exact absurd ending left
  | @semicolon cursor extents holds _ ih =>
    obtain ⟨previous, _⟩ := cursor
    obtain ⟨joint, span, tail, rest⟩ := Look.rest_of_mark holds
    cases rest
    by_cases last : tail = []
    · subst last
      exact ⟨joint, span, rfl⟩
    · obtain ⟨joint', span', more⟩ := ih last none
      refine ⟨joint', span', ?_⟩
      have more : tail.getLast? = _ := more
      rw [List.getLast?_cons, more]
      rfl
  | statement => cases none

/-- What comes behind the first tokens, or the first statement, ends like the whole. -/
theorem EndsStatement.rest {front rest : List Token} (ends : EndsStatement (front ++ rest) extents)
    (left : rest ≠ []) : EndsStatement rest extents := by
  rcases ends with ⟨joint, span, last⟩ | isItem
  · refine .inl ⟨joint, span, ?_⟩
    rwa [List.getLast?_append_of_ne_nil _ left] at last
  · exact .inr isItem

theorem EndsStatement.tail {extent : Extent}
    (ends : EndsStatement cursor.rest (extent :: extents))
    (reads : Reads .statement budget cursor head final) (more : Statements total final extents)
    (left : final.rest ≠ []) : EndsStatement final.rest extents := by
  obtain ⟨passed, passes⟩ := reads.passes
  rw [passes.rest] at ends
  rcases ends.rest left with semicolon | ⟨last, isLast, isItem⟩
  · exact .inl semicolon
  · cases extents with
    | nil => exact .inl (more.last_semicolon left)
    | cons next extents => exact .inr ⟨last, by rwa [List.getLast?_cons_cons] at isLast, isItem⟩

/-- A last statement that is an item or ends with a semicolon is read alike whatever comes. -/
theorem Reads.last_append (reads : Reads .statement budget cursor head final)
    (ending : final.rest = [])
    (ends : EndsStatement cursor.rest [extent .statement total cursor head final]) :
    head.rest.any Token.isBarrier = true
      ∧ ∀ new, Runs budget (.call (.member .statement)) ⟨head.previous, head.rest ++ new⟩
        ⟨final.previous, new⟩ := by
  obtain ⟨previous, rest⟩ := head
  obtain ⟨previous', _⟩ := final
  obtain rfl := ending
  have element : Runs budget (.call (.member .statement)) ⟨previous, rest ++ []⟩
      ⟨previous', []⟩ := by
    rw [List.append_nil]
    exact reads.element
  refine element.frame_ended ?_
  rcases ends with ⟨joint, span, last⟩ | ⟨last, isLast, isItem⟩
  · obtain ⟨front, passes⟩ := reads.attributes.passes
    have whole : cursor.rest = front ++ rest := passes.rest
    have some : rest ≠ [] := reads.element.rest_ne rfl
    rw [whole, List.getLast?_append_of_ne_nil _ some] at last
    exact .inr ⟨joint, span, (element.last_eq rfl).symm.trans last⟩
  · cases isLast
    rw [List.append_nil]
    exact .inl isItem

/-- Statements that end like this contain a barrier. -/
theorem Statements.any_isBarrier (h : Statements total cursor extents)
    (ends : EndsStatement cursor.rest extents) : cursor.rest.any Token.isBarrier = true := by
  induction h with
  | ending ending =>
    rw [ending] at ends
    rcases ends with ⟨joint, span, last⟩ | ⟨last, isLast, -⟩
    · cases last
    · cases isLast
  | @semicolon cursor _ holds =>
    obtain ⟨joint, span, tail, rest⟩ := Look.rest_of_mark holds
    rw [rest]
    rfl
  | @statement budget cursor head final extents reads more ih =>
    by_cases last : final.rest = []
    · obtain rfl := more.eq_nil last
      obtain ⟨barrier, -⟩ := reads.last_append last ends
      obtain ⟨front, passes⟩ := reads.attributes.passes
      rw [passes.rest, List.any_append, barrier, Bool.or_true]
    · obtain ⟨passed, passes⟩ := reads.passes
      rw [passes.rest, List.any_append, ih (ends.tail reads more last), Bool.or_true]

/-- A statement of the first block, without its attributes, is read alike when another block comes
    behind the first. -/
theorem Reads.element_append (reads : Reads .statement budget cursor head final)
    (more : Statements total final extents)
    (ends : EndsStatement cursor.rest (extent .statement total cursor head final :: extents))
    (second : List Token) :
    head.rest.any Token.isBarrier = true
      ∧ Runs budget (.call (.member .statement)) ⟨head.previous, head.rest ++ second⟩
        ⟨final.previous, final.rest ++ second⟩ := by
  by_cases last : final.rest = []
  · obtain rfl := more.eq_nil last
    obtain ⟨barrier, framed⟩ := reads.last_append last ends
    rw [last]
    exact ⟨barrier, framed second⟩
  · have barrier := more.any_isBarrier (ends.tail reads more last)
    obtain ⟨core, passes'⟩ := reads.element.passes
    have element : Runs budget (.call (.member .statement)) ⟨head.previous, head.rest ++ []⟩
        ⟨final.previous, final.rest ++ []⟩ := by
      rw [List.append_nil, List.append_nil]
      exact reads.element
    refine ⟨?_, element.frame_barrier rfl barrier⟩
    rw [passes'.rest, List.any_append, barrier, Bool.or_true]

/-- A statement of the first block is read alike when another block comes behind the first. -/
theorem Reads.append (reads : Reads .statement budget cursor head final)
    (more : Statements total final extents)
    (ends : EndsStatement cursor.rest (extent .statement total cursor head final :: extents))
    (second : List Token) :
    (∃ less, Reads .statement less ⟨cursor.previous, cursor.rest ++ second⟩
        ⟨head.previous, head.rest ++ second⟩ ⟨final.previous, final.rest ++ second⟩)
      ∧ isItem .statement ⟨head.previous, head.rest ++ second⟩ = isItem .statement head
      ∧ attributeNames (cursor.rest ++ second) = attributeNames cursor.rest := by
  obtain ⟨barrier, element⟩ := reads.element_append more ends second
  obtain ⟨front, passes⟩ := reads.attributes.passes
  obtain ⟨core, passes'⟩ := reads.element.passes
  obtain ⟨previous, _⟩ := cursor
  obtain ⟨previous', rest⟩ := head
  obtain ⟨previous'', old⟩ := final
  obtain rfl : rest = core ++ old := passes'.rest
  obtain rfl : _ = front ++ (core ++ old) := passes.rest
  have plain : ∀ previous, outerAttr.holds ⟨previous, core ++ (old ++ second)⟩ = false := by
    intro previous
    rw [← List.append_assoc, Look.holds_append rfl barrier]
    exact (Look.holds_of_rest rfl rfl).trans reads.attributes.outerAttrs_stop
  have element : Runs budget (.call (.member .statement)) ⟨previous', core ++ (old ++ second)⟩
      ⟨previous'', old ++ second⟩ := by
    rw [← List.append_assoc]
    exact element
  have carried := reads.carry element plain
  refine ⟨⟨budget, ?_⟩, ?_, ?_⟩
  · rw [Nat.max_self] at carried
    simpa only [List.append_assoc] using carried
  · unfold isItem
    rw [Look.holds_append rfl barrier]
  · rw [List.append_assoc, List.append_assoc, attributeNames_append carried.attributes,
      attributeNames_append reads.attributes]

-- ---------------------------------------------------------------------------
-- Both blocks
-- ---------------------------------------------------------------------------

/-- The statements of two blocks, one behind the other. -/
theorem Statements.append (h : Statements total cursor extents) (le : cursor.rest.length ≤ total)
    (ends : cursor.rest = [] ∨ EndsStatement cursor.rest extents)
    (h' : Statements second.length (.start second) extents') :
    Statements (total + second.length) ⟨cursor.previous, cursor.rest ++ second⟩
      (extents ++ extents'.map (Extent.shift total)) := by
  induction h with
  | ending ending =>
    rw [ending]
    exact (h'.shift (Nat.le_refl _) total).other_previous rfl
  | @semicolon cursor extents holds more ih =>
    obtain ⟨previous, _⟩ := cursor
    obtain ⟨joint, span, tail, rest⟩ := Look.rest_of_mark holds
    cases rest
    refine .semicolon holds (ih (Nat.le_of_succ_le le) ?_)
    by_cases last : tail = []
    · exact .inl last
    · have ends : EndsStatement ([.punct ';' joint span] ++ tail) extents :=
        ends.resolve_left (List.cons_ne_nil _ _)
      exact .inr (ends.rest last)
  | @statement budget cursor head final extents reads more ih =>
    have shorter := reads.length_lt
    have ends := ends.resolve_left reads.starts.left
    obtain ⟨⟨less, reads'⟩, sameItem, sameNames⟩ := reads.append more ends second
    have same : extent .statement total cursor head final
        = extent .statement (total + second.length) ⟨cursor.previous, cursor.rest ++ second⟩
          ⟨head.previous, head.rest ++ second⟩ ⟨final.previous, final.rest ++ second⟩ := by
      simp only [extent, sameItem, sameNames, List.length_append, Nat.add_sub_add_right]
    rw [List.cons_append, same]
    refine .statement reads' (ih (by omega) ?_)
    by_cases last : final.rest = []
    · exact .inl last
    · exact .inr (ends.tail reads more last)

/-- A block that is empty, ends with a semicolon or ends with an item makes one block with a block
    behind it that has no inner attributes, and the statements are those of both. -/
theorem split_append (accepted : Category.block.check first = .ok ())
    (accepted' : Category.block.check second = .ok ())
    (ends : first = [] ∨ ∃ extents, Member.statement.split first = .ok extents
      ∧ EndsStatement first extents)
    (plain : innerAttr.holds (.start second) = false) :
    Category.block.check (first ++ second) = .ok () ∧ ∃ extents extents',
      Member.statement.split first = .ok extents ∧ Member.statement.split second = .ok extents'
        ∧ Member.statement.split (first ++ second)
          = .ok (extents ++ extents'.map (Extent.shift first.length)) := by
  obtain ⟨extents, split⟩ := check_iff_split.mp accepted
  obtain ⟨extents', split'⟩ := check_iff_split.mp accepted'
  obtain ⟨budget, ⟨previous, rest⟩, attributes, statements⟩ := split_iff_statements.mp split
  obtain ⟨budget', start, attributes', statements'⟩ := split_iff_statements.mp split'
  obtain rfl : start = .start second := by
    cases attributes' with
    | call run =>
      cases run with
      | yes holds => cases plain.symm.trans holds
      | no _ done => cases done; rfl
  obtain ⟨header, passes⟩ := attributes.passes
  have whole : first = header ++ rest := passes.rest
  have restEnds : rest = [] ∨ EndsStatement rest extents := by
    by_cases last : rest = []
    · exact .inl last
    · obtain ⟨same, split₀, ends⟩ := ends.resolve_left (by simp [whole, last])
      cases split.symm.trans split₀
      rw [whole] at ends
      exact .inr (ends.rest last)
  have le : rest.length ≤ first.length := by
    rw [whole, List.length_append]
    exact Nat.le_add_left _ _
  have both := statements.append le restEnds statements'
  rw [← List.length_append] at both
  have innerAttrs : Runs budget (.call .innerAttrs) (.start (first ++ second))
      ⟨previous, rest ++ second⟩ := by
    have stop : ∀ previous', innerAttr.holds ⟨previous', rest ++ second⟩ = false := by
      intro previous'
      rcases restEnds with last | ends
      · rw [last]
        exact plain
      · have barrier := statements.any_isBarrier ends
        rw [Look.holds_append rfl barrier]
        exact attributes.innerAttrs_stop
    rw [whole] at attributes ⊢
    rw [List.append_assoc]
    exact attributes.frame_innerAttrs stop
  have splitBoth := split_iff_statements.mpr ⟨budget, _, innerAttrs, both⟩
  exact ⟨check_iff_split.mpr ⟨_, splitBoth⟩, extents, extents', split, split', splitBoth⟩

/-- An item with a body in front of an expression. -/
theorem split_append_item :
    let first : List Token :=
      [.ident "x" {}, .punct ';' false {}, .ident "fn" {}, .ident "f" {},
        .group .parenthesis [] {}, .group .brace [] {}]
    let second : List Token := [.punct '&' false {}, .ident "y" {}]
    Category.block.check first = .ok () ∧ Category.block.check second = .ok ()
      ∧ Member.statement.split first = .ok [⟨0, 2, false, []⟩, ⟨2, 6, true, []⟩]
      ∧ innerAttr.holds (.start second) = false
      ∧ Member.statement.split (first ++ second)
        = .ok [⟨0, 2, false, []⟩, ⟨2, 6, true, []⟩, ⟨6, 8, false, []⟩] := by
  intro first second
  have accepted : Category.block.check first = .ok () :=
    Category.accepts_iff.mp (by decide +kernel)
  have accepted' : Category.block.check second = .ok () :=
    Category.accepts_iff.mp (by decide +kernel)
  have split : Member.statement.split first = .ok [⟨0, 2, false, []⟩, ⟨2, 6, true, []⟩] := rfl
  have split' : Member.statement.split second = .ok [⟨0, 2, false, []⟩] := rfl
  have ends : EndsStatement first [⟨0, 2, false, []⟩, ⟨2, 6, true, []⟩] := .inr ⟨_, rfl, rfl⟩
  obtain ⟨-, extents, extents', h, h', both⟩ :=
    split_append accepted accepted' (.inr ⟨_, split, ends⟩) rfl
  cases split.symm.trans h
  cases split'.symm.trans h'
  exact ⟨accepted, accepted', split, rfl, both⟩

end Member

end AliasExpansion
