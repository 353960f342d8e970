-- SUMMARY: Scanning consumes a source exactly, and every position is true.
import AliasExpansion.Proofs.Lexing.Comments
import AliasExpansion.Proofs.Lexing.Scan
import Mathlib.Data.List.DropRight

/-!
# Positions

The scan keeps its position by advancing over one character after the other. `Span.behind` says
what the position behind a text is, counted in that text, and the two agree
(`Span.foldl_advance_behind`). No shape takes more characters than there are
(`Lexeme.first?_within`), so the lexemes stand one behind the other in the source
(`Lexeme.Stands`), and the scan ends at the end of the source or at the first place where nothing
fits (`Lexeme.scan_exact`).
-/

namespace AliasExpansion

-- ---------------------------------------------------------------------------
-- Positions in a text
-- ---------------------------------------------------------------------------

namespace Span

/-- The position behind a text: the line ends in it, and the characters behind the last of them. -/
def behind (before : List Char) : Span where
  line := 1 + before.count '\n'
  column := 1 + (before.rtakeWhile (· != '\n')).length

theorem behind_concat (before : List Char) (c : Char) :
    behind (before ++ [c]) = (behind before).advance c := by
  unfold behind advance
  by_cases line : c = '\n'
  · subst line
    simp [Nat.add_assoc]
  · simp [line, Nat.add_assoc]

/-- Advancing over the characters of a text comes to the position behind it. -/
theorem foldl_advance_behind (before text : List Char) :
    text.foldl advance (behind before) = behind (before ++ text) := by
  induction text generalizing before with
  | nil => rw [List.foldl_nil, List.append_nil]
  | cons c text ih =>
    rw [List.foldl_cons, ← behind_concat, ih, List.append_assoc, List.singleton_append]

end Span

namespace Lexeme

variable {before cs rest : List Char} {lexeme : Lexeme} {lexemes : List Lexeme} {kind : LexemeKind}
  {n : Nat}

-- ---------------------------------------------------------------------------
-- No lexeme takes too much
-- ---------------------------------------------------------------------------

theorem blockCommentLength_le (h : blockCommentLength cs = some n) : n ≤ cs.length := by
  fun_induction blockCommentLength cs generalizing n with
  | case1 rest =>
    cases h
    simp
  | case2 c rest _ ih =>
    obtain ⟨k, hk, rfl⟩ := Option.map_eq_some_iff.mp h
    exact Nat.succ_le_succ (ih hk)
  | case3 => cases h

theorem shapes_within : ∀ entry ∈ shapes, Shape.Within entry.2 := by
  have outerDoc : outerDocShape.Within := by
    intro cs n h
    obtain ⟨rest, rfl, rfl⟩ := outerDocShape_eq_some h
    have := lineLength_le rest
    simp only [List.length_cons]
    omega
  have innerDoc : innerDocShape.Within := by
    intro cs n h
    obtain ⟨rest, rfl, rfl⟩ := innerDocShape_eq_some h
    have := lineLength_le rest
    simp only [List.length_cons]
    omega
  have lineComment : lineCommentShape.Within := by
    intro cs n h
    obtain ⟨rest, rfl, rfl⟩ := lineCommentShape_eq_some h
    have := lineLength_le rest
    simp only [List.length_cons]
    omega
  have blockComment : blockCommentShape.Within := by
    intro cs n h
    obtain ⟨rest, k, rfl, hk, rfl⟩ := blockCommentShape_eq_some h
    have := blockCommentLength_le hk
    simp only [List.length_cons]
    omega
  have blank : blankShape.Within := fun cs n h => (blankShape_eq_some h).1 ▸ run_le _ cs
  have charOnly : ∀ char, Shape.Within (charOnlyShape char) := by
    intro char cs n h
    obtain ⟨rest, rfl, rfl⟩ := charOnlyShape_eq_some h
    exact Nat.le_add_left 1 rest.length
  have punct : punctShape.Within := by
    intro cs n h
    obtain ⟨c, -, rest, rfl, rfl⟩ := punctShape_eq_some h
    exact Nat.le_add_left 1 rest.length
  simp only [shapes, List.forall_mem_cons, List.not_mem_nil, false_implies, implies_true, and_true]
  exact ⟨outerDoc, innerDoc, lineComment, blockComment, blank,
    afterByteMark_within rawStringShape_within, afterByteMark_within stringShape_within,
    afterByteMark_within charShape_within, lifetimeShape_local.within, floatShape_local.within,
    intShape_local.within, identShape_local.within, charOnly _, charOnly _, charOnly _, charOnly _,
    charOnly _, charOnly _, punct⟩

theorem first?_within (h : first? cs = some (kind, n)) : n ≤ cs.length := by
  obtain ⟨shape, mem, taken⟩ := first?_eq_some h
  exact shapes_within _ mem cs n taken

-- ---------------------------------------------------------------------------
-- Lexemes in their places
-- ---------------------------------------------------------------------------

/-- The lexeme is the first one that fits behind the text `before`, where it has `rest` behind it,
    and it records the position of that place. -/
structure StandsAt (lexeme : Lexeme) (before rest : List Char) : Prop where
  ne_nil : lexeme.text ≠ []
  first : first? (lexeme.text ++ rest) = some (lexeme.kind, lexeme.text.length)
  span : lexeme.span = Span.behind before

/-- The lexemes stand one behind the other behind the text `before`, and `rest` is behind them. -/
def Stands (before : List Char) (lexemes : List Lexeme) (rest : List Char) : Prop :=
  ∀ front lexeme back, lexemes = front ++ lexeme :: back →
    lexeme.StandsAt (before ++ front.flatMap text) (back.flatMap text ++ rest)

theorem stands_nil : Stands before [] rest := by
  intro front lexeme back split
  cases front <;> cases split

theorem Stands.cons (first : lexeme.StandsAt before (lexemes.flatMap text ++ rest))
    (others : Stands (before ++ lexeme.text) lexemes rest) :
    Stands before (lexeme :: lexemes) rest := by
  intro front other back split
  cases front with
  | nil =>
    cases split
    rw [List.flatMap_nil, List.append_nil]
    exact first
  | cons head front =>
    cases split
    rw [List.flatMap_cons, ← List.append_assoc]
    exact others front other back rfl

/-- What a scan does with the text behind `before`: it cuts off lexemes, up to the end or up to a
    place where nothing fits. The induction is on the text that is left, which every lexeme makes
    shorter. -/
theorem scanAfter_exact (before cs : List Char) :
    ∃ lexemes rest, lexemes.flatMap text ++ rest = cs ∧ Stands before lexemes rest
      ∧ ((rest = [] ∧ scanAfter 0 (Span.behind before) cs = .ok lexemes)
        ∨ ∃ c tail, rest = c :: tail ∧ first? rest = none
          ∧ scanAfter 0 (Span.behind before) cs
            = .error ⟨.unexpectedChar c, some (Span.behind (before ++ lexemes.flatMap text))⟩) := by
  induction length : cs.length using Nat.strongRecOn generalizing before cs with
  | ind total ih =>
    cases cs with
    | nil => exact ⟨[], [], rfl, stands_nil, .inl ⟨rfl, rfl⟩⟩
    | cons c tail =>
      cases first : first? (c :: tail) with
      | none =>
        refine ⟨[], c :: tail, rfl, stands_nil, .inr ⟨c, tail, rfl, first, ?_⟩⟩
        rw [scanAfter, first, List.flatMap_nil, List.append_nil]
      | some entry =>
        obtain ⟨kind, n⟩ := entry
        obtain ⟨taken, left, split, rfl⟩ : ∃ taken left, c :: tail = taken ++ left
            ∧ n = taken.length :=
          ⟨(c :: tail).take n, (c :: tail).drop n, (List.take_append_drop n _).symm,
            (List.length_take_of_le (first?_within first)).symm⟩
        have positive := first?_positive first
        rw [split] at first length ⊢
        rw [List.length_append] at length
        obtain ⟨lexemes, rest, rfl, stand, ending⟩ :=
          ih left.length (by omega) (before ++ taken) left rfl
        obtain ⟨joint, recorded⟩ : ∃ joint, take kind taken.length (Span.behind before)
            (taken ++ (lexemes.flatMap text ++ rest)) = ⟨kind, taken, Span.behind before, joint⟩ :=
          ⟨_, take_eq kind _ taken _⟩
        rw [scanAfter_lexeme first, recorded, Span.foldl_advance_behind]
        refine ⟨⟨kind, taken, Span.behind before, joint⟩ :: lexemes, rest,
          by rw [List.flatMap_cons, List.append_assoc],
          .cons ⟨List.length_pos_iff.mp positive, first, rfl⟩ stand, ?_⟩
        obtain ⟨rfl, ok⟩ | ⟨c, tail, rfl, nothing, error⟩ := ending
        · exact .inl ⟨rfl, by rw [ok]; rfl⟩
        · refine .inr ⟨c, tail, rfl, nothing, ?_⟩
          rw [error, List.flatMap_cons, ← List.append_assoc]
          rfl

/-- Scanning consumes a source exactly. The lexemes spell the source from its start on, each of
    them the first that fits at its place, and records how many lines and characters stand in front
    of that place. Either nothing is left behind them, and they are the result, or the scan fails at
    the first character where nothing fits, with its position. -/
theorem scan_exact (source : String) :
    ∃ lexemes rest, lexemes.flatMap text ++ rest = source.toList ∧ Stands [] lexemes rest
      ∧ ((rest = [] ∧ scan source = .ok lexemes)
        ∨ ∃ c tail, rest = c :: tail ∧ first? rest = none
          ∧ scan source
            = .error ⟨.unexpectedChar c, some (Span.behind (lexemes.flatMap text))⟩) :=
  scanAfter_exact [] source.toList

/-- A string over two lines, and a character that starts nothing. -/
example : scan "\"a\nb\" \\" = .error ⟨.unexpectedChar '\\', some ⟨2, 4⟩⟩ := by rfl

end Lexeme

end AliasExpansion
