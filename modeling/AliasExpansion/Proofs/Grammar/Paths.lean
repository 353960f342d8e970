-- SUMMARY: Every path is a type, and every usable name is a path, a type and an expression.
import AliasExpansion.Proofs.Grammar.Likeness
import AliasExpansion.Proofs.Grammar.Spelling

/-!
# Paths as types

A path that stands alone and a path that is a type are read by the same productions in two styles.
They differ only at a parenthesis group behind a segment, which a type takes as the parameters of
a function trait. No such group stands behind a path that ends the tokens, so a run in the plain
style is a run in the style of types (`Rule.Runs.path_as_type`), and none of the alternatives that
a type tries before a path applies where a path starts (`Rule.Runs.type_of_path`).
-/

namespace AliasExpansion

-- ---------------------------------------------------------------------------
-- The two styles
-- ---------------------------------------------------------------------------

namespace Rule

variable {budget : Nat} {cursor final : Cursor}

theorem Runs.segment_as_type (run : Runs budget (.call (.pathSegment .plain)) cursor final)
    (noParameters : (Grammar.group .parenthesis).holds final = false) :
    Runs budget (.call (.pathSegment .type)) cursor final := by
  cases run with
  | call run =>
    cases run with
    | yes segment run =>
      cases run with
      | seq step arguments =>
        cases arguments with
        | yes opens arguments => exact .call (.yes segment (.seq step (.yes opens arguments)))
        | no closed done =>
          cases done
          exact .call (.yes segment (.seq step (.no closed (.no noParameters .done))))
    | no _ run => cases run

/-- What goes on with a path goes on with `::`, so no parameters stand in front of it. -/
theorem Runs.tail_as_type (run : Runs budget (.call (.pathTail .plain)) cursor final)
    (noParameters : (Grammar.group .parenthesis).holds final = false) :
    (Grammar.group .parenthesis).holds cursor = false ∧
      Runs budget (.call (.pathTail .type)) cursor final := by
  induction budget generalizing cursor with
  | zero => cases run
  | succ budget ih =>
    cases run with
    | call run =>
      cases run with
      | yes colons run =>
        obtain ⟨span, joint, span', tail, rest⟩ := Look.rest_of_colons colons
        refine ⟨by rw [Grammar.group, Grammar.groupAt, Look.holds, rest]; rfl, ?_⟩
        cases run with
        | seq step run =>
          cases run with
          | seq head tail =>
            obtain ⟨noParameters, tail⟩ := ih tail
            refine .call (.yes colons (.seq step (.seq ?_ tail)))
            cases head with
            | yes opens arguments => exact .yes opens arguments
            | no closed segment => exact .no closed (segment.segment_as_type noParameters)
      | no fails done =>
        cases done
        exact ⟨noParameters, .call (.no fails .done)⟩

/-- A path is read in the style of types as it is in the plain one, unless parameters stand
    behind it. -/
theorem Runs.path_as_type (run : Runs budget (.call (.path .plain)) cursor final)
    (noParameters : (Grammar.group .parenthesis).holds final = false) :
    Runs budget (.call (.path .type)) cursor final := by
  cases run with
  | call run =>
    cases run with
    | seq colons run =>
      cases run with
      | seq segment tail =>
        obtain ⟨noParameters, tail⟩ := tail.tail_as_type noParameters
        exact .call (.seq colons (.seq (segment.segment_as_type noParameters) tail))

end Rule

-- ---------------------------------------------------------------------------
-- Where a path starts
-- ---------------------------------------------------------------------------

/-- A word that is no path segment of its own tells every path segment from itself. -/
theorem Name.contains_eq_false_of_isPathSegment {words : List String}
    (reserved : words.all (!isPathSegment ·) = true) {name : String}
    (segment : isPathSegment name = true) : words.contains name = false := by
  rw [Bool.eq_false_iff]
  intro mem
  have := List.all_eq_true.mp reserved name (List.contains_iff_mem.mp mem)
  rw [segment] at this
  cases this

namespace Look

variable {cursor : Cursor}

theorem rest_of_pathStart (start : Grammar.pathStart.holds cursor = true) :
    (∃ name span tail, cursor.rest = .ident name span :: tail ∧ Name.isPathSegment name = true) ∨
      ∃ span joint span' tail,
        cursor.rest = .punct ':' true span :: .punct ':' joint span' :: tail := by
  rcases Bool.or_eq_true_iff.mp start with segment | colons
  · obtain ⟨token, tail, rest, segment⟩ := rest_of_token segment
    cases token with
    | ident name span => exact .inl ⟨name, span, tail, rest, segment⟩
    | punct | literal | group => cases segment
  · exact .inr (rest_of_colons colons)

/-- The lookahead asks for something else than the start of a path. -/
def missesPaths : Look → Bool
  | .token 0 (.words words) => words.all (!Name.isPathSegment ·)
  | .token 0 (.group _) => true
  | .mark 0 [c] => c != ':'
  | .fn qualifiers => ("fn" :: qualifiers).all (!Name.isPathSegment ·)
  | .or left right => left.missesPaths && right.missesPaths
  | _ => false

theorem fails_at_path {look : Look} (misses : look.missesPaths = true)
    (start : Grammar.pathStart.holds cursor = true) : look.holds cursor = false := by
  have starts := rest_of_pathStart start
  obtain ⟨previous, rest⟩ := cursor
  induction look with
  | token offset test =>
    match offset, test with
    | 0, .words words =>
      obtain ⟨name, span, tail, rfl, segment⟩ | ⟨span, joint, span', tail, rfl⟩ := starts
      · exact Name.contains_eq_false_of_isPathSegment misses segment
      · rfl
    | 0, .group delimiter =>
      obtain ⟨name, span, tail, rfl, segment⟩ | ⟨span, joint, span', tail, rfl⟩ := starts <;> rfl
  | mark offset chars =>
    match offset, chars with
    | 0, [c] =>
      obtain ⟨name, span, tail, rfl, segment⟩ | ⟨span, joint, span', tail, rfl⟩ := starts
      · rfl
      · have other : c ≠ ':' := by simpa [missesPaths] using misses
        exact beq_false_of_ne other.symm
  | fn qualifiers =>
    obtain ⟨name, span, tail, rfl, segment⟩ | ⟨span, joint, span', tail, rfl⟩ := starts
    · rw [missesPaths, List.all_cons] at misses
      obtain ⟨fn, qualifiers⟩ := Bool.and_eq_true_iff.mp misses
      have unknown := Name.contains_eq_false_of_isPathSegment qualifiers segment
      rw [holds, Token.fnFollows_unknown unknown, decide_eq_false_iff_not]
      rintro rfl
      rw [segment] at fn
      cases fn
    · rfl
  | or left right ih₁ ih₂ =>
    obtain ⟨left, right⟩ := Bool.and_eq_true_iff.mp misses
    rw [holds, ih₁ left, ih₂ right, Bool.or_false]
  | atEnd | afterBrace | not | and => cases misses

end Look

namespace Rule

variable {budget : Nat} {cursor final : Cursor}

/-- The alternative that is taken is the first that applies. -/
theorem Runs.choose {cases : List (Look × Production)} {otherwise : Production} (place : Nat)
    {case : Look × Production} (here : cases[place]? = some case)
    (fail : ∀ other ∈ cases.take place, other.1.holds cursor = false)
    (holds : case.1.holds cursor = true) (run : Runs budget case.2 cursor final) :
    Runs budget (.choose cases otherwise) cursor final := by
  induction place generalizing cases with
  | zero =>
    cases cases with
    | nil => cases here
    | cons first rest =>
      cases here
      exact .yes holds run
  | succ place ih =>
    cases cases with
    | nil => cases here
    | cons first rest =>
      exact .no (fail first List.mem_cons_self)
        (ih here fun other mem => fail other (List.mem_cons_of_mem first mem))

theorem Runs.path_starts (run : Runs budget (.call (.path .plain)) cursor final) :
    Grammar.pathStart.holds cursor = true := by
  cases run with
  | call run =>
    cases run with
    | seq colons run =>
      cases colons with
      | yes colons => exact Bool.or_eq_true_iff.mpr (.inr colons)
      | no _ done =>
        cases done
        cases run with
        | seq segment =>
          cases segment with
          | call run =>
            cases run with
            | yes segment => exact Bool.or_eq_true_iff.mpr (.inl segment)
            | no _ run => cases run

/-- A path that ends the tokens is a type. -/
theorem Runs.type_of_path (run : Runs (budget + 1) (.call (.path .plain)) cursor final)
    (ending : final.rest = []) : Runs (budget + 2) (.call (.type true)) cursor final := by
  have start := run.path_starts
  have noParameters : (Grammar.group .parenthesis).holds final = false := by
    rw [Grammar.group, Grammar.groupAt, Look.holds, ending]
    rfl
  have noMacro : (Look.and Grammar.macroArguments (.not (.mark 0 Grammar.notEquals))).holds final
      = false := by
    obtain ⟨previous, rest⟩ := final
    subst ending
    rfl
  have noBounds : (Look.mark 0 ['+']).holds final = false := by
    rw [Look.holds, ending]
    rfl
  refine .call (.choose 10 rfl (fun other mem => Look.fails_at_path ?_ start) start
    (.seq (run.path_as_type noParameters) (.no noMacro (.call (.no noBounds .done)))))
  -- The ten alternatives before the path ask for other tokens.
  revert other
  decide

end Rule

-- ---------------------------------------------------------------------------
-- Categories
-- ---------------------------------------------------------------------------

namespace Category

theorem type_accepts_of_path {tokens : List Token} (path : Category.path.accepts tokens = true) :
    Category.type.accepts tokens = true := by
  rw [accepts_iff_accepts] at path ⊢
  obtain ⟨budget, final, run, ending⟩ := path
  exact ⟨budget + 2, final, (run.mono (Nat.le_succ budget)).type_of_path ending, ending⟩

/-- A category accepts every usable name if it accepts the names with a meaning of their own and
    some other name. -/
theorem accepts_name {category : Category}
    (known : ("x" :: Name.contextual).all fun name => category.accepts [.ident name {}])
    {name : String} (usable : Name.isIdentifier name = true) (span : Span) :
    category.accepts [.ident name span] = true := by
  rw [List.all_cons, Bool.and_eq_true_iff] at known
  obtain ⟨some, contextual⟩ := known
  by_cases meant : name ∈ Name.contextual
  · rw [accepts_of_alike (.cons (.ident (.inl rfl)) .nil)]
    exact List.all_eq_true.mp contextual name meant
  · have plain : Name.isPlain name = true := by simp [Name.isPlain, usable, meant]
    have isPlain : Name.isPlain "x" = true := by decide
    rw [accepts_of_alike (.cons (.ident (.inr ⟨isPlain, plain⟩)) .nil)]
    exact some

theorem path_accepts_name {name : String} (usable : Name.isIdentifier name = true) (span : Span) :
    Category.path.accepts [.ident name span] = true :=
  accepts_name (by decide) usable span

theorem expr_accepts_name {name : String} (usable : Name.isIdentifier name = true) (span : Span) :
    Category.expr.accepts [.ident name span] = true :=
  accepts_name (by decide) usable span

end Category

end AliasExpansion
