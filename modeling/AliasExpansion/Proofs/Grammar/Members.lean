-- SUMMARY: Locating the members of a body, as an inductive relation.
import AliasExpansion.Proofs.Grammar.Runs
import AliasExpansion.Proofs.Outcome
import AliasExpansion.Syntax.Split

/-!
# Located members

`Member.Located kind budget total limit cursor extents` says that the members from the cursor on
stand at `extents`. It is the graph of `Member.locate` (`Member.located_iff`), with one constructor
for each way in which a member may be followed by the next.
-/

namespace AliasExpansion

open Rule

theorem Rule.runs_call_iff {budget : Nat} {nonterminal : Nonterminal} {cursor final : Cursor} :
    Runs budget (.call nonterminal) cursor final ↔
      nonterminal.recognize budget cursor = .ok final :=
  runs_iff

namespace Member

/-- The extent of a member that starts at `cursor`, has its attributes up to `head` and ends at
    `final`, in a body of `total` tokens. -/
def extent (kind : Member) (total : Nat) (cursor head final : Cursor) : Extent where
  start := total - cursor.rest.length
  stop := total - final.rest.length
  isItem := isItem kind head
  attributes := attributeNames cursor.rest

/-- The cursor stands before a member: neither at the end nor at an empty statement. -/
structure Starts (kind : Member) (cursor : Cursor) : Prop where
  left : cursor.rest ≠ []
  plain : kind = .statement → (Look.mark 0 [';']).holds cursor = false

/-- A member stands between two cursors, and its attributes end at `head`. -/
structure Reads (kind : Member) (budget : Nat) (cursor head final : Cursor) : Prop where
  starts : kind.Starts cursor
  attributes : Runs budget (.call .outerAttrs) cursor head
  element : Runs budget (.call (.member kind)) head final

inductive Located (kind : Member) (budget total : Nat) : Nat → Cursor → List Extent → Prop where
  | ending {limit cursor} (ending : cursor.rest = []) : Located kind budget total (limit + 1) cursor []
  | semicolon {limit cursor extents} (statement : kind = .statement) (left : cursor.rest ≠ [])
      (holds : (Look.mark 0 [';']).holds cursor = true)
      (more : Located kind budget total limit (cursor.advance 1) extents) :
      Located kind budget total (limit + 1) cursor extents
  | joined {limit cursor head final extents} (joined : kind.isSeparated = false)
      (reads : kind.Reads budget cursor head final)
      (more : Located kind budget total limit final extents) :
      Located kind budget total (limit + 1) cursor (kind.extent total cursor head final :: extents)
  | separated {limit cursor head final extents} (separated : kind.isSeparated = true)
      (reads : kind.Reads budget cursor head final)
      (holds : (Look.mark 0 [',']).holds final = true)
      (more : Located kind budget total limit (final.advance 1) extents) :
      Located kind budget total (limit + 1) cursor (kind.extent total cursor head final :: extents)
  | last {limit cursor head final} (separated : kind.isSeparated = true)
      (reads : kind.Reads budget cursor head final)
      (fails : (Look.mark 0 [',']).holds final = false) (ending : final.rest = []) :
      Located kind budget total (limit + 1) cursor [kind.extent total cursor head final]

variable {kind : Member} {budget total limit : Nat} {cursor : Cursor} {extents : List Extent}

/-- What the location of members asks of a cursor before it reads a member. -/
theorem starts_iff : kind.Starts cursor ↔
    cursor.atEnd = false ∧ (kind == .statement && (Look.mark 0 [';']).holds cursor) = false := by
  rw [Bool.eq_false_iff, Ne, Cursor.atEnd_iff]
  constructor
  · intro starts
    refine ⟨starts.left, ?_⟩
    by_cases statement : kind = .statement
    · rw [starts.plain statement, Bool.and_false]
    · rw [beq_eq_false_iff_ne.mpr statement, Bool.false_and]
  · rintro ⟨left, plain⟩
    refine ⟨left, fun statement => ?_⟩
    rwa [statement, beq_self_eq_true, Bool.true_and] at plain

theorem Located.locate_eq (h : Located kind budget total limit cursor extents) :
    locate (Nonterminal.recognize budget) kind total limit cursor = .ok extents := by
  induction h with
  | ending ending => simp only [locate, Cursor.atEnd_iff.mpr ending, if_true]
  | semicolon statement left holds _ ih =>
    have more := Bool.eq_false_iff.mpr fun ending => left (Cursor.atEnd_iff.mp ending)
    simp only [locate, more, statement, beq_self_eq_true, holds, Bool.and_self, if_true,
      Bool.false_eq_true, if_false]
    exact statement ▸ ih
  | joined joined reads _ ih =>
    obtain ⟨more, plain⟩ := starts_iff.mp reads.starts
    simp only [locate, more, plain, runs_call_iff.mp reads.attributes,
      runs_call_iff.mp reads.element, joined, ih, Outcome.ok_bind, Bool.not_false,
      Bool.false_eq_true, if_true, if_false]
    rfl
  | separated separated reads holds _ ih =>
    obtain ⟨more, plain⟩ := starts_iff.mp reads.starts
    simp only [locate, more, plain, runs_call_iff.mp reads.attributes,
      runs_call_iff.mp reads.element, separated, holds, ih, Outcome.ok_bind, Bool.not_true,
      Bool.false_eq_true, if_true, if_false]
    rfl
  | last separated reads fails ending =>
    obtain ⟨more, plain⟩ := starts_iff.mp reads.starts
    simp only [locate, more, plain, runs_call_iff.mp reads.attributes,
      runs_call_iff.mp reads.element, separated, fails, Cursor.atEnd_iff.mpr ending,
      Outcome.ok_bind, Bool.not_true, Bool.false_eq_true, if_true, if_false]
    rfl

theorem located_of_locate
    (h : locate (Nonterminal.recognize budget) kind total limit cursor = .ok extents) :
    Located kind budget total limit cursor extents := by
  induction limit generalizing cursor extents with
  | zero => cases h
  | succ limit ih =>
    simp only [locate] at h
    split at h
    · next ending =>
      cases h
      exact .ending (Cursor.atEnd_iff.mp ending)
    next more =>
    split at h
    · next both =>
      obtain ⟨statement, holds⟩ := Bool.and_eq_true_iff.mp both
      exact .semicolon (eq_of_beq statement) (more ∘ Cursor.atEnd_iff.mpr) holds (ih h)
    next plain =>
    obtain ⟨head, hhead, h⟩ := Outcome.bind_eq_ok.mp h
    obtain ⟨final, hfinal, h⟩ := Outcome.bind_eq_ok.mp h
    have reads : kind.Reads budget cursor head final :=
      ⟨starts_iff.mpr ⟨Bool.eq_false_iff.mpr more, Bool.eq_false_iff.mpr plain⟩,
        runs_call_iff.mpr hhead, runs_call_iff.mpr hfinal⟩
    cases separated : kind.isSeparated with
    | false =>
      simp only [separated, Bool.not_false, if_true] at h
      obtain ⟨rest, hrest, h⟩ := Outcome.bind_eq_ok.mp h
      cases h
      exact .joined separated reads (ih hrest)
    | true =>
      simp only [separated, Bool.not_true, Bool.false_eq_true, if_false] at h
      split at h
      · next holds =>
        obtain ⟨rest, hrest, h⟩ := Outcome.bind_eq_ok.mp h
        cases h
        exact .separated separated reads holds (ih hrest)
      next fails =>
      split at h
      · next ending =>
        cases h
        exact .last separated reads (Bool.eq_false_iff.mpr fails) (Cursor.atEnd_iff.mp ending)
      · cases h

theorem located_iff :
    Located kind budget total limit cursor extents ↔
      locate (Nonterminal.recognize budget) kind total limit cursor = .ok extents :=
  ⟨Located.locate_eq, located_of_locate⟩

/-- The members of a body, after its inner attributes, stand where they are located. -/
theorem split_eq_ok {tokens : List Token} :
    kind.split tokens = .ok extents ↔ ∃ first,
      (if kind.hasInnerAttrs then Runs (Grammar.budget tokens) (.call .innerAttrs) (.start tokens) first
        else first = .start tokens) ∧
      Located kind (Grammar.budget tokens) tokens.length (tokens.length + 1) first extents := by
  rw [split]
  cases kind.hasInnerAttrs with
  | true =>
    simp only [if_true]
    exact Outcome.bind_eq_ok.trans
      (exists_congr fun _ => and_congr runs_call_iff.symm located_iff.symm)
  | false =>
    constructor
    · exact fun h => ⟨_, rfl, located_iff.mpr h⟩
    · rintro ⟨first, start, h⟩
      obtain rfl : first = .start tokens := start
      exact located_iff.mp h

end Member

end AliasExpansion
