-- SUMMARY: A block is divided into statements that are blocks of their own.
import AliasExpansion.Proofs.Grammar.Body
import AliasExpansion.Proofs.Statement.Locality
import AliasExpansion.Proofs.Statement.Sequence

/-!
# Division of a block

Splitting a block divides it (`Member.Divides`): the statements stand one behind the other, only
inner attributes and empty statements stand between them, and each statement, taken alone, is a
block of that statement.
-/

namespace AliasExpansion

open Grammar Rule

-- ---------------------------------------------------------------------------
-- Divisions
-- ---------------------------------------------------------------------------

namespace Member

/-- A semicolon stands at the place where a statement of the block could start. -/
def EmptyStatement (tokens : List Token) (place : Nat) : Prop :=
  ∃ cursor, Reaches (content .statement) (.start tokens) (.call (.members .statement)) cursor
    ∧ cursor.rest = tokens.drop place ∧ (Look.mark 0 [';']).holds cursor = true

/-- The extents of the statements divide the block. -/
structure Divides (tokens : List Token) (extents : List Extent) : Prop where
  inside : ∀ extent ∈ extents, extent.start < extent.stop ∧ extent.stop ≤ tokens.length
  ordered : extents.Pairwise fun extent later => extent.stop ≤ later.start
  /-- Inner attributes come first, as many as there are. Outside of the extents there are only these
      and empty statements. -/
  uncovered : ∃ header rest, tokens = header ++ rest ∧ Token.InnerAttributes header
    ∧ innerAttr.holds (.start rest) = false
    ∧ ∀ place < tokens.length,
      (∀ extent ∈ extents, ¬ (extent.start ≤ place ∧ place < extent.stop)) ↔
        place < header.length ∨ EmptyStatement tokens place
  /-- A statement, taken alone, is a block of that statement. -/
  alone : ∀ extent ∈ extents, Category.block.check (extent.slice tokens) = .ok ()
    ∧ Member.statement.split (extent.slice tokens)
      = .ok [{ extent with start := 0, stop := (extent.slice tokens).length }]

variable {budget total : Nat} {cursor head final place : Cursor} {extents : List Extent}
  {extent : Extent} {tokens : List Token}

-- ---------------------------------------------------------------------------
-- Statements alone
-- ---------------------------------------------------------------------------

/-- What comes behind a statement does not start in the middle of an operator. -/
theorem Statements.not_operator (h : Statements total cursor extents) (c : Char) (joint : Bool)
    (span : Span) (tail : List Token) (rest : cursor.rest = .punct c joint span :: tail) :
    c ≠ '=' ∧ c ≠ '>' := by
  obtain ⟨previous, _⟩ := cursor
  subst rest
  cases h with
  | ending ending => cases ending
  | semicolon holds =>
    obtain rfl : c = ';' := eq_of_beq holds
    decide
  | statement reads =>
    rcases reads with ⟨-, attributes, element⟩
    cases attributes with
    | call run =>
      cases run with
      | yes holds =>
        obtain ⟨joint', span', content, span'', rest, split⟩ := outerAttr_tokens holds
        cases split
        decide
      | no _ run =>
        cases run
        exact element.not_operator

/-- A statement, with its attributes, is read alike when what comes behind it is cut off. -/
theorem Reads.cut {previous previous' : Option Token} {slice old : List Token}
    (reads : Reads .statement budget ⟨previous, slice ++ old⟩ head ⟨previous', old⟩)
    (more : Statements total ⟨previous', old⟩ extents) :
    ∃ more head', Reads .statement more ⟨previous, slice⟩ head' ⟨previous', []⟩
      ∧ isItem .statement head' = isItem .statement head
      ∧ attributeNames slice = attributeNames (slice ++ old) := by
  obtain ⟨front, passes⟩ := reads.attributes.passes
  obtain ⟨core, passes'⟩ := reads.element.passes
  obtain ⟨previous'', rest⟩ := head
  obtain rfl : rest = core ++ old := passes'.rest
  obtain rfl : slice = front ++ core := by
    have split : slice ++ old = front ++ (core ++ old) := passes.rest
    simpa [← List.append_assoc] using split
  have element : (∃ more, Runs more (.call (.member .statement)) ⟨previous'', core⟩ ⟨previous', []⟩)
      ∧ itemStart.holds ⟨previous'', core⟩ = itemStart.holds ⟨previous'', core ++ old⟩ := by
    by_cases left : old = []
    · subst left
      rw [List.append_nil]
      have element := reads.element
      rw [List.append_nil] at element
      exact ⟨⟨_, element⟩, rfl⟩
    · exact reads.element.cut_statement left more.not_operator
  obtain ⟨⟨less, element⟩, same⟩ := element
  have plain : ∀ previous, outerAttr.holds ⟨previous, core ++ []⟩ = false := by
    intro previous
    rw [Bool.eq_false_iff, List.append_nil]
    intro holds
    exact Bool.eq_false_iff.mp reads.attributes.outerAttrs_stop (outerAttr_append holds old)
  have attributes := reads.attributes
  rw [List.append_assoc] at attributes reads
  have carried := reads.carry (by rwa [List.append_nil]) plain
  simp only [List.append_nil] at carried
  refine ⟨_, _, carried, ?_, ?_⟩
  · simp only [isItem, same]
  · rw [List.append_assoc, attributeNames_append attributes,
      attributeNames_append carried.attributes]

/-- The tokens of a statement are a block of that statement. -/
theorem Reads.split_alone (reads : Reads .statement budget cursor head final)
    (more : Statements total final extents) {slice : List Token}
    (passes : cursor.Passes slice final) :
    Member.statement.split slice
      = .ok [⟨0, slice.length, isItem .statement head, attributeNames cursor.rest⟩] := by
  obtain ⟨previous, rest⟩ := cursor
  obtain ⟨previous', old⟩ := final
  obtain rfl : rest = slice ++ old := passes.rest
  obtain ⟨less, head', reads', sameItem, sameNames⟩ := reads.cut more
  have start : (Cursor.start slice).rest = slice := rfl
  obtain ⟨head'', alone, sameRest⟩ := reads'.other_previous start
  have statements : Statements slice.length (.start slice) _ := .statement alone (.ending rfl)
  have noInner : Runs 1 (.call .innerAttrs) (.start slice) (.start slice) :=
    .call (.no alone.not_innerAttr .done)
  have split := split_iff_statements.mpr ⟨1, _, noInner, statements⟩
  rw [split, extent, isItem_of_rest sameRest, sameItem]
  simp only [Cursor.start_rest, Nat.sub_self, List.length_nil, Nat.sub_zero, sameNames]

/-- Where a statement stands, it is read, and a sequence of statements follows. -/
theorem Statements.reads (h : Statements total cursor extents) (mem : extent ∈ extents) :
    ∃ passed place budget head final later, cursor.Passes passed place
      ∧ Reads .statement budget place head final ∧ Statements total final later
      ∧ extent = Member.extent .statement total place head final := by
  induction h with
  | ending => cases mem
  | @semicolon cursor extents _ _ ih =>
    obtain ⟨passed, place, budget, head, final, later, passes, rest⟩ := ih mem
    exact ⟨_, place, budget, head, final, later,
      (Cursor.passes_advance 1 cursor).trans passes, rest⟩
  | @statement budget cursor head final extents reads more ih =>
    rcases List.mem_cons.mp mem with rfl | mem
    · exact ⟨[], cursor, budget, head, final, extents, .refl cursor, reads, more, rfl⟩
    · obtain ⟨before, passes⟩ := reads.passes
      obtain ⟨passed, place, budget, head, final, later, passes', rest⟩ := ih mem
      exact ⟨_, place, budget, head, final, later, passes.trans passes', rest⟩

-- ---------------------------------------------------------------------------
-- Between statements
-- ---------------------------------------------------------------------------

theorem Statements.chained (h : Statements total cursor extents)
    (le : cursor.rest.length ≤ total) :
    Extent.Chained total (total - cursor.rest.length) extents :=
  (h.located (Nat.le_refl _) (Nat.lt_succ_self _)).chained le

/-- The repetition comes to a place: that one, or one from the next on. -/
theorem reaches_iff {next : Cursor} (step : Next .statement budget cursor next)
    (left : cursor.rest ≠ []) :
    Reaches (.call (.members .statement)) cursor (.call (.members .statement)) place ↔
      place = cursor
        ∨ Reaches (.call (.members .statement)) next (.call (.members .statement)) place := by
  constructor
  · intro reach
    rcases reach.members_cases with ⟨-, same⟩ | ⟨budget', next', step', reach⟩
    · exact .inl same
    · obtain rfl := step.unique step'
      exact .inr reach
  · rintro (rfl | reach)
    · exact .here
    · exact (step.reaches left).trans reach

/-- From the cursor on, only the places of empty statements are outside of the extents. -/
theorem Statements.uncovered (h : Statements total cursor extents)
    (le : cursor.rest.length ≤ total) {index : Nat} (from_le : total - cursor.rest.length ≤ index)
    (lt : index < total) :
    (∀ extent ∈ extents, ¬ (extent.start ≤ index ∧ index < extent.stop)) ↔
      ∃ place, Reaches (.call (.members .statement)) cursor (.call (.members .statement)) place
        ∧ total - place.rest.length = index ∧ (Look.mark 0 [';']).holds place = true := by
  induction h with
  | ending ending =>
    rw [ending, List.length_nil] at from_le
    omega
  | @semicolon cursor extents holds more ih =>
    have step : Next .statement 0 cursor (cursor.advance 1) := .semicolon rfl holds
    have left := rest_ne_of_semicolon holds
    have pos := List.length_pos_iff.mpr left
    have length : (cursor.advance 1).rest.length = cursor.rest.length - 1 := by
      rw [Cursor.advance_rest, List.length_drop]
    simp only [reaches_iff step left]
    by_cases here : index = total - cursor.rest.length
    · constructor
      · intro _
        exact ⟨cursor, .inl rfl, here.symm, holds⟩
      · intro _ extent mem inside
        have := (more.chained (by omega)).start_le mem
        omega
    · rw [ih (by omega) (by omega)]
      constructor
      · rintro ⟨place, reach, same, mark⟩
        exact ⟨place, .inr reach, same, mark⟩
      · rintro ⟨place, rfl | reach, same, mark⟩
        · exact absurd same.symm here
        · exact ⟨place, reach, same, mark⟩
  | @statement budget cursor head final extents reads more ih =>
    have step : Next .statement budget cursor final :=
      .joined rfl reads.starts.plain (.seq reads.attributes reads.element)
    have shorter := reads.length_lt
    simp only [reaches_iff step reads.starts.left, List.forall_mem_cons, Member.extent]
    by_cases inside : index < total - final.rest.length
    · constructor
      · rintro ⟨outside, -⟩
        exact absurd ⟨from_le, inside⟩ outside
      · rintro ⟨place, rfl | reach, same, mark⟩
        · cases (reads.starts.plain rfl).symm.trans mark
        · have := reach.length_le
          omega
    · rw [ih (by omega) (by omega)]
      constructor
      · rintro ⟨-, place, reach, same, mark⟩
        exact ⟨place, .inr reach, same, mark⟩
      · rintro ⟨place, rfl | reach, same, mark⟩
        · cases (reads.starts.plain rfl).symm.trans mark
        · exact ⟨fun both => inside both.2, place, reach, same, mark⟩

-- ---------------------------------------------------------------------------
-- Blocks
-- ---------------------------------------------------------------------------

/-- The places of empty statements are those to which the repetition of statements comes, from the
    end of the inner attributes on. -/
theorem emptyStatement_iff {index : Nat} (lt : index < tokens.length)
    (attributes : Runs budget (.call .innerAttrs) (.start tokens) cursor) :
    EmptyStatement tokens index ↔
      ∃ place, Reaches (.call (.members .statement)) cursor (.call (.members .statement)) place
        ∧ tokens.length - place.rest.length = index
        ∧ (Look.mark 0 [';']).holds place = true := by
  constructor
  · rintro ⟨place, reach, rest, mark⟩
    refine ⟨place, ?_, ?_, mark⟩
    · cases reach with
      | first reach => cases reach.not_members
      | second run reach => exact run.unique attributes ▸ reach
    · rw [rest, List.length_drop]
      omega
  · rintro ⟨place, reach, same, mark⟩
    have reach : Reaches (content .statement) (.start tokens) (.call (.members .statement)) place :=
      .second attributes reach
    obtain ⟨passed, passes⟩ := reach.passes
    have whole : tokens = passed ++ place.rest := passes.rest
    refine ⟨place, reach, ?_, mark⟩
    have length : passed.length = index := by
      rw [← same, whole, List.length_append, Nat.add_sub_cancel]
    rw [← length, whole, List.drop_left]

/-- A block that is accepted is divided into the statements that it is split into. -/
theorem split_divides (accepted : Category.block.check tokens = .ok ()) :
    ∃ extents, Member.statement.split tokens = .ok extents ∧ Divides tokens extents := by
  obtain ⟨extents, split⟩ := check_iff_split.mp accepted
  obtain ⟨budget, first, attributes, statements⟩ := split_iff_statements.mp split
  obtain ⟨header, run⟩ := attributes.takes
  have isHeader := run.innerAttributes
  obtain ⟨-, passes⟩ := run
  have chained := split_chained split
  have whole : tokens = header ++ first.rest := passes.rest
  have length : tokens.length = header.length + first.rest.length := by
    rw [whole, List.length_append]
  refine ⟨extents, split, fun extent mem => chained.inside mem, chained.pairwise, ?_, ?_⟩
  · refine ⟨header, first.rest, whole, isHeader, attributes.innerAttrs_stop, fun index lt => ?_⟩
    rw [emptyStatement_iff lt attributes]
    by_cases inHeader : index < header.length
    · have outside : ∀ extent ∈ extents, ¬ (extent.start ≤ index ∧ index < extent.stop) := by
        intro extent mem covers
        have := (statements.chained (by omega)).start_le mem
        omega
      exact ⟨fun _ => .inl inHeader, fun _ => outside⟩
    · rw [statements.uncovered (by omega) (by omega) lt, or_iff_right inHeader]
  · intro extent mem
    obtain ⟨passed, place, budget', head, final, later, passes', reads, more, rfl⟩ :=
      statements.reads mem
    obtain ⟨taken, taking⟩ := reads.passes
    have split' : tokens = (header ++ passed) ++ place.rest := by
      rw [List.append_assoc, ← passes'.rest]
      exact whole
    rw [slice_extent split' taking]
    have alone := reads.split_alone more taking
    exact ⟨check_iff_split.mpr ⟨_, alone⟩, alone⟩

/-- An inner attribute, an empty statement, an expression that ends in a body, and an item. -/
theorem split_divides_mixed :
    let tokens : List Token :=
      [.punct '#' false {}, .punct '!' false {}, .group .bracket [.ident "allow" {}] {},
        .punct ';' false {}, .ident "if" {}, .ident "x" {}, .group .brace [] {},
        .punct '#' false {}, .group .bracket [.ident "test" {}] {}, .ident "fn" {}, .ident "f" {},
        .group .parenthesis [] {}, .group .brace [] {}]
    let extents : List Extent := [⟨4, 7, false, []⟩, ⟨7, 13, true, ["test"]⟩]
    Category.block.check tokens = .ok () ∧ Member.statement.split tokens = .ok extents
      ∧ Divides tokens extents := by
  intro tokens extents
  have accepted : Category.block.check tokens = .ok () :=
    Category.accepts_iff.mp (by decide +kernel)
  have located : Member.statement.split tokens = .ok extents := rfl
  obtain ⟨extents', split, divides⟩ := split_divides accepted
  cases located.symm.trans split
  exact ⟨accepted, located, divides⟩

end Member

end AliasExpansion
