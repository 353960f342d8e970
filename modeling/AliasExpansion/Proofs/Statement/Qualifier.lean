-- SUMMARY: The qualifier `unsafe` in front of an item.
import AliasExpansion.Proofs.Grammar.Lookahead
import AliasExpansion.Proofs.Grammar.Paths
import AliasExpansion.Proofs.Grammar.Previous
import AliasExpansion.Proofs.Statement.Sequence

/-!
# The qualifier `unsafe`

Two places of the grammar know which items `unsafe` may stand in front of: the lookahead for an item
(`Grammar.itemStart`), and the rules of the items. They agree on functions, traits and
implementations (`Qualifiable`): such an item stays a single item behind `unsafe`
(`Member.split_qualified`). They disagree on blocks of foreign items. The lookahead announces an
item, and every such block is refused (`Category.check_unsafe_extern`).
-/

namespace AliasExpansion

open Grammar Rule

variable {budget : Nat} {word : String} {rule : Production} {span span' : Span}
  {previous : Option Token} {rest : List Token} {cursor final : Cursor}

-- ---------------------------------------------------------------------------
-- In front of an item
-- ---------------------------------------------------------------------------

namespace Rule

/-- The alternative that is run is one that applies. -/
theorem Runs.of_choose {P : Production → Prop} {cases : List (Look × Production)} {want : Want}
    (only : ∀ case ∈ cases, case.1.holds cursor = true → P case.2)
    (run : Runs budget (.choose cases (.fail want)) cursor final) :
    ∃ rule, P rule ∧ Runs budget rule cursor final := by
  induction cases with
  | nil => cases run
  | cons first cases ih =>
    cases run with
    | yes holds run => exact ⟨first.2, only first List.mem_cons_self holds, run⟩
    | no _ run => exact ih (fun case mem => only case (List.mem_cons_of_mem first mem)) run

/-- A word other than `pub` has no visibility in front of it, and no word has attributes. -/
theorem Runs.visibility_none (other : word ≠ "pub") :
    Runs 1 (.call .visibility) ⟨previous, .ident word span :: rest⟩
      ⟨previous, .ident word span :: rest⟩ := by
  refine .call (.no ?_ .done)
  simpa [Grammar.word, wordAt, Look.holds, TokenTest.holds] using other

theorem Runs.outerAttrs_none : Runs 1 (.call .outerAttrs) ⟨previous, .ident word span :: rest⟩
    ⟨previous, .ident word span :: rest⟩ :=
  .call (.no rfl .done)

theorem Runs.innerAttrs_none : Runs 1 (.call .innerAttrs) ⟨previous, .ident word span :: rest⟩
    ⟨previous, .ident word span :: rest⟩ :=
  .call (.no rfl .done)

end Rule

-- ---------------------------------------------------------------------------
-- Items that can be qualified
-- ---------------------------------------------------------------------------

/-- The word of an item that may stand behind `unsafe`, with the rule of the item. -/
inductive Qualifiable : String → Production → Prop where
  | fn : Qualifiable "fn" (.call .fn)
  | trait : Qualifiable "trait" traitRule
  | impl : Qualifiable "impl" implRule

namespace Qualifiable

theorem ne_pub (q : Qualifiable word rule) : word ≠ "pub" := by
  cases q <;> decide

/-- The alternative of items that is run behind the word is the rule for the word. -/
theorem of_item (q : Qualifiable word rule)
    (run : Runs budget (.call .item) ⟨previous, .ident word span :: rest⟩ final) :
    Runs budget rule ⟨previous, .ident word span :: rest⟩ final := by
  cases run with
  | @call budget _ _ _ run =>
    cases run with
    | seq visibility run =>
      obtain rfl := visibility.unique (.visibility_none q.ne_pub)
      obtain ⟨_, rfl, run⟩ := run.of_choose (P := (· = rule)) (by
        cases q <;>
        · simp [Grammar.word, wordAt, fnAhead, Look.holds, TokenTest.holds,
            Token.fnFollows_unknown])
      exact run.mono (Nat.le_succ budget)

/-- Every item of the kind reads its word first, so it takes something. -/
theorem moves (q : Qualifiable word rule)
    (run : Runs budget rule ⟨previous, .ident word span :: rest⟩ final) :
    final.rest ≠ .ident word span :: rest := by
  have shorter : final.rest.length < (Token.ident word span :: rest).length :=
    run.length_lt (List.cons_ne_nil _ _) (by cases q <;> decide)
  exact fun same => Nat.lt_irrefl _ (same ▸ shorter)

/-- The rule of the item passes over `unsafe`, and then goes on as without it. -/
theorem behind_qualified (q : Qualifiable word rule)
    (run : Runs budget rule ⟨previous, .ident word span :: rest⟩ final) :
    Runs (budget + 1) rule ⟨previous, .ident "unsafe" span' :: .ident word span :: rest⟩ final := by
  have moves := q.moves run
  -- What follows the optional `unsafe` does not see whether it was there.
  have again {budget : Nat} {more : Production} (fresh : more.fresh = true)
      (run : Runs budget more ⟨previous, .ident word span :: rest⟩ final) :
      Runs (budget + 1) more ⟨some (.ident "unsafe" span'), .ident word span :: rest⟩ final := by
    refine Runs.mono ?_ (Nat.le_succ budget)
    exact run.previous_irrelevant fresh (List.cons_ne_nil _ _) rfl moves
  have eats : Runs (budget + 1) (eatWord "unsafe")
      ⟨previous, .ident "unsafe" span' :: .ident word span :: rest⟩
      ⟨some (.ident "unsafe" span'), .ident word span :: rest⟩ := .yes rfl .skip
  have spares (other : word ≠ "unsafe") : Runs 0 (eatWord "unsafe")
      ⟨previous, .ident word span :: rest⟩ ⟨previous, .ident word span :: rest⟩ := by
    refine .no ?_ .done
    simpa [Look.holds, TokenTest.holds] using other
  cases q with
  | trait =>
    cases run with
    | seq first run =>
      obtain rfl := first.unique (spares (by decide))
      exact .seq eats (again rfl run)
  | impl =>
    cases run with
    | seq first run =>
      obtain rfl := first.unique (spares (by decide))
      exact .seq eats (again rfl run)
  | fn =>
    cases run with
    | @call budget _ _ _ run =>
      cases run with
      | seq first run =>
        cases first with
        | @call budget _ _ _ first =>
          have none_ (previous : Option Token) : Runs budget (Nonterminal.rule .fnQualifiers)
              ⟨previous, .ident "fn" span :: rest⟩ ⟨previous, .ident "fn" span :: rest⟩ :=
            .no rfl .done
          obtain rfl := first.unique (none_ previous)
          refine .call (.seq (.call (.yes rfl (.seq .skip (.call (none_ _))))) (again rfl run))

/-- Whether a function follows `unsafe` is told by the next word. -/
theorem fnAhead_qualified (other : ["const", "async", "unsafe", "extern"].contains word = false) :
    fnAhead.holds ⟨previous, .ident "unsafe" span' :: .ident word span :: rest⟩
      = decide (word = "fn") := by
  have passes : Token.fnFollows ["const", "async", "unsafe", "extern"]
      (.ident "unsafe" span' :: .ident word span :: rest) = _ :=
    Token.fnFollows_known (by decide) nofun
  exact passes.trans (Token.fnFollows_unknown other rest)

/-- Behind `unsafe` the item is the first alternative that applies. -/
theorem item_qualified (q : Qualifiable word rule)
    (run : Runs budget rule ⟨previous, .ident "unsafe" span' :: .ident word span :: rest⟩ final) :
    Runs (budget + 2) (.call .item)
      ⟨previous, .ident "unsafe" span' :: .ident word span :: rest⟩ final := by
  have ahead : fnAhead.holds ⟨previous, .ident "unsafe" span' :: .ident word span :: rest⟩
      = decide (word = "fn") :=
    fnAhead_qualified (by cases q <;> decide)
  refine .call (.seq ((Runs.visibility_none (by decide)).mono (Nat.le_add_left 1 budget)) ?_)
  have run := run.mono (Nat.le_succ budget)
  cases q with
  | fn => exact .choose 0 rfl nofun ahead run
  | trait =>
    refine .choose 4 rfl ?_ rfl run
    simp [ahead, Grammar.word, wordAt, Look.holds, TokenTest.holds]
  | impl =>
    refine .choose 5 rfl ?_ rfl run
    simp [ahead, Grammar.word, wordAt, Look.holds, TokenTest.holds]

end Qualifiable

-- ---------------------------------------------------------------------------
-- Single items
-- ---------------------------------------------------------------------------

namespace Qualifiable

/-- The word announces an item. -/
theorem starts (q : Qualifiable word rule) :
    itemStart.holds ⟨previous, .ident word span :: rest⟩ = true := by
  cases q <;> rfl

/-- The word `unsafe` announces the item behind it. -/
theorem starts_qualified (q : Qualifiable word rule) :
    itemStart.holds ⟨previous, .ident "unsafe" span' :: .ident word span :: rest⟩ = true := by
  have ahead : fnAhead.holds ⟨previous, .ident "unsafe" span' :: .ident word span :: rest⟩
      = decide (word = "fn") :=
    fnAhead_qualified (by cases q <;> decide)
  cases q <;> simp [itemStart, ahead, Grammar.word, wordAt, Look.holds, TokenTest.holds]

/-- The item, as a statement, is read behind `unsafe` as without it. -/
theorem statement_qualified (q : Qualifiable word rule)
    (run : Runs budget (.call (.member .statement)) ⟨previous, .ident word span :: rest⟩ final) :
    Runs (budget + 3) (.call (.member .statement))
      ⟨previous, .ident "unsafe" span' :: .ident word span :: rest⟩ final := by
  have noLet : (Grammar.word ["let"]).holds ⟨previous, .ident word span :: rest⟩ = false := by
    cases q <;> rfl
  cases run with
  | call run =>
    cases run with
    | yes holds => cases holds.symm.trans noLet
    | no _ run =>
      cases run with
      | no fails => cases fails.symm.trans q.starts
      | yes _ item =>
        have item := q.of_item item
        exact .call (.no rfl (.yes q.starts_qualified (q.item_qualified (q.behind_qualified item))))

end Qualifiable

namespace Member

variable {total : Nat} {extent : Extent}

/-- Where no statement is left, the length of the block does not matter. -/
theorem Statements.none_left (h : Statements total cursor []) (total' : Nat) :
    Statements total' cursor [] := by
  generalize none_ : ([] : List Extent) = extents at h
  induction h with
  | ending ending => exact .ending ending
  | semicolon holds _ ih => exact .semicolon holds (ih none_)
  | statement => cases none_

/-- A block that is one function, trait or implementation stays one behind `unsafe`. -/
theorem split_qualified (q : Qualifiable word rule)
    (split : statement.split (.ident word span :: rest) = .ok [extent]) :
    statement.split (.ident "unsafe" span' :: .ident word span :: rest)
      = .ok [{ start := 0, stop := extent.stop + 1, isItem := true, attributes := [] }] := by
  obtain ⟨budget, first, attributes, statements⟩ := split_iff_statements.mp split
  obtain rfl := attributes.unique Runs.innerAttrs_none
  cases statements with
  | semicolon holds => cases holds
  | @statement _ _ head final _ reads more =>
    obtain ⟨-, attributes, element⟩ := reads
    obtain rfl := attributes.unique Runs.outerAttrs_none
    have le : final.rest.length ≤ (Token.ident word span :: rest).length := element.length_le
    have reads : Reads .statement _ ⟨none, .ident "unsafe" span' :: .ident word span :: rest⟩ _
        final :=
      ⟨⟨List.cons_ne_nil _ _, fun _ => rfl⟩, Runs.outerAttrs_none.mono (Nat.le_add_left 1 _),
        q.statement_qualified element⟩
    have isItem :
        itemStart.holds (.start (.ident "unsafe" span' :: .ident word span :: rest)) = true :=
      q.starts_qualified
    have stop : statement.extent (Token.ident "unsafe" span' :: .ident word span :: rest).length
        (.start (.ident "unsafe" span' :: .ident word span :: rest))
        (.start (.ident "unsafe" span' :: .ident word span :: rest)) final
        = ⟨0, (Token.ident word span :: rest).length - final.rest.length + 1, true, []⟩ := by
      rw [Member.extent, Member.isItem, isItem, Cursor.start_rest, Nat.sub_self, List.length_cons,
        Nat.sub_add_comm le]
      rfl
    rw [Member.extent, ← stop]
    exact split_iff_statements.mpr ⟨1, _, Runs.innerAttrs_none,
      .statement reads (more.none_left _)⟩

end Member

-- ---------------------------------------------------------------------------
-- Blocks of foreign items
-- ---------------------------------------------------------------------------

/-- A block of foreign items: `extern`, an optional literal, and a brace group. -/
def Token.foreign (span : Span) (abi : Option Literal) (content : List Token) (span' : Span) :
    List Token :=
  .ident "extern" span :: (abi.toList.map Token.literal ++ [.group .brace content span'])

namespace Category

variable {abi : Option Literal} {content : List Token} {start : Span}

/-- Only the rules of traits and implementations take `unsafe`, and neither has `extern` next. -/
theorem no_item_unsafe_extern : ¬ Runs budget (.call .item)
    ⟨previous, .ident "unsafe" start :: Token.foreign span abi content span'⟩ final := by
  have noFn : fnAhead.holds
      ⟨previous, .ident "unsafe" start :: Token.foreign span abi content span'⟩ = false := by
    cases abi <;> rfl
  have eats : Runs 0 (eatWord "unsafe")
      ⟨previous, .ident "unsafe" start :: Token.foreign span abi content span'⟩
      ⟨some (.ident "unsafe" start), Token.foreign span abi content span'⟩ := .yes rfl .skip
  intro run
  cases run with
  | call run =>
    cases run with
    | seq visibility run =>
      obtain rfl := visibility.unique (.visibility_none (by decide))
      obtain ⟨rule, either, run⟩ := run.of_choose (P := (· ∈ [traitRule, implRule])) (by
        unfold Token.foreign at noFn ⊢
        simp [noFn, Grammar.word, wordAt, Look.holds, TokenTest.holds])
      rcases List.mem_pair.mp either with rfl | rfl
      · cases run with
        | seq first run =>
          obtain rfl := first.unique eats
          cases run with
          | seq auto run =>
            obtain rfl := auto.unique (show Runs 0 (eatWord "auto") _ _ from .no rfl .done)
            cases run with
            | seq expected =>
              cases expected with
              | yes holds => cases holds
              | no _ run => cases run
      · cases run with
        | seq first run =>
          obtain rfl := first.unique eats
          cases run with
          | seq expected =>
            cases expected with
            | yes holds => cases holds
            | no _ run => cases run

/-- Behind `unsafe`, a block of foreign items is announced as an item, and is none. -/
theorem check_unsafe_extern :
    block.check (.ident "unsafe" start :: Token.foreign span abi content span') ≠ .ok () := by
  intro accepted
  obtain ⟨extents, split⟩ := Member.check_iff_split.mp accepted
  obtain ⟨_, _, attributes, statements⟩ := Member.split_iff_statements.mp split
  obtain rfl := attributes.unique Runs.innerAttrs_none
  cases statements with
  | ending ending => cases ending
  | semicolon holds => cases holds
  | statement reads =>
    obtain ⟨-, attributes, element⟩ := reads
    obtain rfl := attributes.unique Runs.outerAttrs_none
    have starts : itemStart.holds
        (.start (.ident "unsafe" start :: Token.foreign span abi content span')) = true := by
      cases abi <;> rfl
    cases element with
    | call run =>
      cases run with
      | yes holds => cases holds
      | no _ run =>
        cases run with
        | yes _ item => exact no_item_unsafe_extern item
        | no fails => cases fails.symm.trans starts

/-- The block `extern {}` is one item, and `unsafe extern {}` is refused. -/
theorem check_unsafe_extern_empty :
    block.check (Token.foreign {} none [] {}) = .ok ()
      ∧ Member.statement.split (Token.foreign {} none [] {}) = .ok [⟨0, 2, true, []⟩]
      ∧ block.check (.ident "unsafe" {} :: Token.foreign {} none [] {}) ≠ .ok () :=
  ⟨by decide +kernel, by decide +kernel, check_unsafe_extern⟩

-- ---------------------------------------------------------------------------
-- Functions, traits and implementations
-- ---------------------------------------------------------------------------

/-- A block that is a single function, trait or implementation is accepted behind `unsafe` too, and
    is a single item there. -/
theorem block_qualified {extent : Extent} (word_known : word ∈ ["fn", "trait", "impl"])
    (single : Member.statement.split (.ident word span :: rest) = .ok [extent]) :
    block.check (.ident "unsafe" start :: .ident word span :: rest) = .ok ()
      ∧ Member.statement.split (.ident "unsafe" start :: .ident word span :: rest)
        = .ok [{ start := 0, stop := extent.stop + 1, isItem := true, attributes := [] }] := by
  have qualifiable : ∃ rule, Qualifiable word rule := by
    simp only [List.mem_cons, List.not_mem_nil, or_false] at word_known
    rcases word_known with rfl | rfl | rfl
    · exact ⟨_, .fn⟩
    · exact ⟨_, .trait⟩
    · exact ⟨_, .impl⟩
  obtain ⟨rule, q⟩ := qualifiable
  have split : Member.statement.split (.ident "unsafe" start :: .ident word span :: rest) = _ :=
    Member.split_qualified q single
  exact ⟨Member.check_iff_split.mpr ⟨_, split⟩, split⟩

/-- The function `unsafe fn f() {}`. -/
theorem block_qualified_fn :
    Member.statement.split
        (.ident "fn" {} :: [.ident "f" {}, .group .parenthesis [] {}, .group .brace [] {}])
      = .ok [⟨0, 4, true, []⟩]
    ∧ block.check (.ident "unsafe" {} :: .ident "fn" {} ::
        [.ident "f" {}, .group .parenthesis [] {}, .group .brace [] {}]) = .ok () :=
  have single : Member.statement.split
      (.ident "fn" {} :: [.ident "f" {}, .group .parenthesis [] {}, .group .brace [] {}])
      = .ok [⟨0, 4, true, []⟩] := by decide +kernel
  ⟨single, (block_qualified (by decide) single).1⟩

end Category

end AliasExpansion
