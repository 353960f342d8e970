-- SUMMARY: Assembling lexemes into token trees is bracket matching, errors included.
import AliasExpansion.Proofs.Lexing.Scan
import Mathlib.Data.List.Induction

/-!
# Matching delimiters

The delimiters among the lexemes of a source form a word. Lexemes with a balanced word add whole
trees to what is being assembled and leave the open groups as they are (`Token.assemble_balanced`).
Any other lexemes leave delimiters open, or have a closing delimiter that the innermost open one
does not match (`leavesOpen_or_mismatch`). So a source is read exactly when its word is balanced,
the trees are the lexemes with their delimiters matched, and each failure has its place
(`Token.read_matches`).
-/

namespace AliasExpansion

-- ---------------------------------------------------------------------------
-- Words of delimiters
-- ---------------------------------------------------------------------------

/-- A delimiter with its side. -/
inductive DelimiterMark where
  | opening (delimiter : Delimiter)
  | closing (delimiter : Delimiter)
deriving DecidableEq, Repr

/-- How the delimiter is written in a source. -/
def DelimiterMark.text : DelimiterMark → String
  | .opening delimiter => delimiter.opening
  | .closing delimiter => delimiter.closing

/-- Words in which every delimiter has its counterpart. -/
inductive Balanced : List DelimiterMark → Prop
  | nil : Balanced []
  | enclose (delimiter : Delimiter) {inner rest : List DelimiterMark} :
      Balanced inner → Balanced rest →
        Balanced (.opening delimiter :: (inner ++ .closing delimiter :: rest))

theorem Balanced.append {left right : List DelimiterMark} (h : Balanced left)
    (h' : Balanced right) : Balanced (left ++ right) := by
  induction h with
  | nil => exact h'
  | enclose delimiter inner _ _ ih =>
    rw [List.cons_append, List.append_assoc, List.cons_append]
    exact .enclose delimiter inner ih

def LexemeKind.mark? : LexemeKind → Option DelimiterMark
  | .opening delimiter => some (.opening delimiter)
  | .closing delimiter => some (.closing delimiter)
  | _ => none

def Lexeme.mark? (lexeme : Lexeme) : Option DelimiterMark :=
  lexeme.kind.mark?

/-- The word that the delimiters of the lexemes form. -/
def marks (lexemes : List Lexeme) : List DelimiterMark :=
  lexemes.filterMap Lexeme.mark?

section

variable {lexeme opener closer : Lexeme} {lexemes before opens within behind : List Lexeme}
  {delimiter : Delimiter} {inner rest : List DelimiterMark}

theorem Lexeme.mark?_eq_opening :
    lexeme.mark? = some (.opening delimiter) ↔ lexeme.kind = .opening delimiter := by
  rw [mark?, LexemeKind.mark?.eq_def]
  split <;> simp_all

theorem Lexeme.mark?_eq_closing :
    lexeme.mark? = some (.closing delimiter) ↔ lexeme.kind = .closing delimiter := by
  rw [mark?, LexemeKind.mark?.eq_def]
  split <;> simp_all

theorem Lexeme.mark?_eq_none :
    lexeme.mark? = none
      ↔ ∀ delimiter, lexeme.kind ≠ .opening delimiter ∧ lexeme.kind ≠ .closing delimiter := by
  rw [mark?, LexemeKind.mark?.eq_def]
  split <;> simp_all

/-- A delimiter has the shape of a single character, the one that it is written with. -/
theorem Lexeme.shapes_mark : ∀ entry ∈ shapes, ∀ mark, entry.1.mark? = some mark →
    ∃ c, entry.2 = charOnlyShape c ∧ mark.text = String.ofList [c] := by
  simp only [shapes, List.forall_mem_cons, LexemeKind.mark?, reduceCtorEq, false_implies,
    implies_true, true_and, Option.some.injEq, forall_eq', List.not_mem_nil, and_true]
  exact ⟨⟨'(', rfl, rfl⟩, ⟨'[', rfl, rfl⟩, ⟨'\x7b', rfl, rfl⟩, ⟨')', rfl, rfl⟩, ⟨']', rfl, rfl⟩,
    ⟨'\x7d', rfl, rfl⟩⟩

theorem Lexeme.text_of_mark {source : String} {mark : DelimiterMark}
    (scanned : scan source = .ok lexemes) (mem : lexeme ∈ lexemes)
    (eq : lexeme.mark? = some mark) : String.ofList lexeme.text = mark.text := by
  obtain ⟨cs, n, first, text⟩ := first?_of_mem_scanAfter scanned lexeme mem
  obtain ⟨shape, listed, taken⟩ := first?_eq_some first
  obtain ⟨c, rfl, written⟩ := shapes_mark _ listed mark eq
  obtain ⟨rest, rfl, rfl⟩ := charOnlyShape_eq_some taken
  rw [text, written, List.take_succ_cons, List.take_zero]

theorem marks_append (before behind : List Lexeme) :
    marks (before ++ behind) = marks before ++ marks behind :=
  List.filterMap_append

theorem marks_singleton (eq : lexeme.mark? = none) : marks [lexeme] = [] := by
  rw [marks, List.filterMap_cons_none eq, List.filterMap_nil]

/-- Lexemes whose word starts with a pair, cut at its two delimiters. -/
theorem exists_of_marks_enclose
    (h : marks lexemes = .opening delimiter :: (inner ++ .closing delimiter :: rest)) :
    ∃ plain opener within closer behind,
      lexemes = plain ++ opener :: (within ++ closer :: behind) ∧ marks plain = []
      ∧ opener.mark? = some (.opening delimiter) ∧ marks within = inner
      ∧ closer.mark? = some (.closing delimiter) ∧ marks behind = rest := by
  obtain ⟨plain, opener, tail, rfl, free, opening, later⟩ := List.filterMap_eq_cons_iff.mp h
  obtain ⟨within, tail, rfl, eq, later⟩ := List.filterMap_eq_append_iff.mp later
  obtain ⟨gap, closer, behind, rfl, free', closing, eq'⟩ := List.filterMap_eq_cons_iff.mp later
  refine ⟨plain, opener, within ++ gap, closer, behind, by simp, ?_, opening, ?_, closing, eq'⟩
  · exact List.filterMap_eq_nil_iff.mpr free
  · rw [marks_append, marks, eq, marks, List.filterMap_eq_nil_iff.mpr free',
      List.append_nil]

-- ---------------------------------------------------------------------------
-- What is left open
-- ---------------------------------------------------------------------------

/-- What the lexemes leave open, innermost first. Each of their closing delimiters matches the
    delimiter that is innermost in front of it. -/
inductive LeavesOpen : (lexemes opens : List Lexeme) → Prop
  | balanced {lexemes : List Lexeme} : Balanced (marks lexemes) → LeavesOpen lexemes []
  | opening {before opens within : List Lexeme} {opener : Lexeme} (delimiter : Delimiter) :
      LeavesOpen before opens → opener.mark? = some (.opening delimiter) →
        Balanced (marks within) → LeavesOpen (before ++ opener :: within) (opener :: opens)

/-- `closer` is the first closing delimiter that does not match what is innermost in front of it. -/
def FirstMismatch (lexemes : List Lexeme) (closer : Lexeme) (delimiter : Delimiter) : Prop :=
  ∃ before behind opens, lexemes = before ++ closer :: behind ∧ LeavesOpen before opens
    ∧ closer.mark? = some (.closing delimiter)
    ∧ ∀ opener ∈ opens.head?, opener.mark? ≠ some (.opening delimiter)

/-- `opener` is the innermost of the delimiters that are left open. -/
def InnermostOpen (lexemes : List Lexeme) (opener : Lexeme) (delimiter : Delimiter) : Prop :=
  ∃ opens, LeavesOpen lexemes (opener :: opens) ∧ opener.mark? = some (.opening delimiter)

theorem LeavesOpen.append (h : LeavesOpen before opens) (balanced : Balanced (marks within)) :
    LeavesOpen (before ++ within) opens := by
  cases h with
  | balanced first => exact .balanced (by rw [marks_append]; exact first.append balanced)
  | opening delimiter outer opening inner =>
    rw [List.append_assoc, List.cons_append]
    exact .opening delimiter outer opening (by rw [marks_append]; exact inner.append balanced)

/-- A closing delimiter takes the opening one that it matches away. -/
theorem LeavesOpen.close (h : LeavesOpen before (opener :: opens))
    (opening : opener.mark? = some (.opening delimiter))
    (closing : closer.mark? = some (.closing delimiter)) :
    LeavesOpen (before ++ [closer]) opens := by
  cases h with
  | @opening before _ within _ _ outer _ inner =>
    have pair : marks (opener :: (within ++ [closer]))
        = .opening delimiter :: (marks within ++ .closing delimiter :: []) := by
      rw [marks, List.filterMap_cons_some opening, List.filterMap_append,
        List.filterMap_cons_some closing]
      rfl
    rw [List.append_assoc, List.cons_append]
    exact outer.append (by rw [pair]; exact .enclose delimiter inner .nil)

theorem leavesOpen_or_mismatch (lexemes : List Lexeme) :
    (∃ opens, LeavesOpen lexemes opens)
      ∨ ∃ closer delimiter, FirstMismatch lexemes closer delimiter := by
  induction lexemes using List.reverseRecOn with
  | nil => exact .inl ⟨[], .balanced .nil⟩
  | append_singleton lexemes lexeme ih =>
    obtain ⟨opens, left⟩ | ⟨closer, delimiter, before, behind, opens, rfl, mismatch⟩ := ih
    · cases mark : lexeme.mark? with
      | none => exact .inl ⟨opens, left.append (by rw [marks_singleton mark]; exact .nil)⟩
      | some mark' =>
        cases mark' with
        | opening delimiter => exact .inl ⟨_, .opening delimiter left mark .nil⟩
        | closing delimiter =>
          by_cases same : ∃ opener ∈ opens.head?, opener.mark? = some (.opening delimiter)
          · obtain ⟨opener, mem, opening⟩ := same
            obtain ⟨outer, rfl⟩ := List.head?_eq_some_iff.mp mem
            exact .inl ⟨outer, left.close opening mark⟩
          · refine .inr ⟨lexeme, delimiter, lexemes, [], opens, rfl, left, mark, ?_⟩
            exact fun opener mem opening => same ⟨opener, mem, opening⟩
    · refine .inr ⟨closer, delimiter, before, behind ++ [lexeme], opens, ?_, mismatch⟩
      rw [List.append_assoc, List.cons_append]

theorem balanced_or_fault (lexemes : List Lexeme) :
    Balanced (marks lexemes)
      ∨ (∃ closer delimiter, FirstMismatch lexemes closer delimiter)
      ∨ ∃ opener delimiter, InnermostOpen lexemes opener delimiter := by
  obtain ⟨opens, left⟩ | mismatch := leavesOpen_or_mismatch lexemes
  · cases left with
    | balanced word => exact .inl word
    | opening delimiter outer opening word =>
      exact .inr (.inr ⟨_, delimiter, _, .opening delimiter outer opening word, opening⟩)
  · exact .inr (.inl mismatch)

end

-- ---------------------------------------------------------------------------
-- Trees written out
-- ---------------------------------------------------------------------------

/-- A part of a tree that is written out: its atoms stand for themselves, and a group stands for its
    delimiters, of which the opening one has the place. -/
inductive Piece where
  | atom (token : Token)
  | opening (delimiter : Delimiter) (span : Span)
  | closing (delimiter : Delimiter)
deriving DecidableEq

namespace Token

mutual

/-- The tree written out from left to right. -/
def pieces : Token → List Piece
  | .group delimiter content span =>
    .opening delimiter span :: (piecesAll content ++ [.closing delimiter])
  | token => [.atom token]

def piecesAll : List Token → List Piece
  | [] => []
  | token :: rest => token.pieces ++ piecesAll rest

end

@[simp] theorem piecesAll_nil : piecesAll [] = [] :=
  rfl

@[simp] theorem piecesAll_append (left right : List Token) :
    piecesAll (left ++ right) = piecesAll left ++ piecesAll right := by
  induction left with
  | nil => rfl
  | cons token rest ih => simp [piecesAll, ih]

/-- A first part that is an atom is the first tree. -/
theorem exists_of_pieces_eq_cons {trees : List Token} {token : Token} {rest : List Piece}
    (h : piecesAll trees = .atom token :: rest) :
    ∃ others, trees = token :: others ∧ piecesAll others = rest := by
  cases trees with
  | nil => cases h
  | cons tree others =>
    cases tree with
    | group => cases h
    | ident | punct | literal =>
      obtain ⟨rfl, rfl⟩ : _ ∧ _ := by simpa [piecesAll, pieces] using h
      exact ⟨others, rfl, rfl⟩

end Token

/-- What the lexeme contributes to the trees: a delimiter its own part, with the place of an opening
    one, and every other lexeme the tokens that it stands for. -/
def Lexeme.pieces (lexeme : Lexeme) : List Piece :=
  match lexeme.mark? with
  | some (.opening delimiter) => [.opening delimiter lexeme.span]
  | some (.closing delimiter) => [.closing delimiter]
  | none => Token.piecesAll lexeme.tokens

-- ---------------------------------------------------------------------------
-- Assembling
-- ---------------------------------------------------------------------------

namespace Token

variable {lexemes opens : List Lexeme} {opener closer : Lexeme} {delimiter : Delimiter}

theorem assemble_unmarked (free : marks lexemes = []) (stack : List OpenGroup)
    (content : List Token) (rest : List Lexeme) :
    assemble stack content (lexemes ++ rest)
      = assemble stack ((lexemes.flatMap Lexeme.tokens).reverse ++ content) rest := by
  induction lexemes generalizing content with
  | nil => rfl
  | cons lexeme lexemes ih =>
    obtain ⟨none, free⟩ := List.forall_mem_cons.mp (List.filterMap_eq_nil_iff.mp free)
    rw [List.cons_append, assemble_plain (Lexeme.mark?_eq_none.mp none),
      ih (List.filterMap_eq_nil_iff.mpr free), List.flatMap_cons, List.reverse_append,
      List.append_assoc]

theorem piecesAll_unmarked (free : marks lexemes = []) :
    piecesAll (lexemes.flatMap Lexeme.tokens) = lexemes.flatMap Lexeme.pieces := by
  induction lexemes with
  | nil => rfl
  | cons lexeme lexemes ih =>
    obtain ⟨none, free⟩ := List.forall_mem_cons.mp (List.filterMap_eq_nil_iff.mp free)
    rw [List.flatMap_cons, piecesAll_append, ih (List.filterMap_eq_nil_iff.mpr free),
      List.flatMap_cons, Lexeme.pieces, none]

/-- Lexemes with a balanced word add whole trees to the innermost group, whatever is open. -/
theorem assemble_balanced (balanced : Balanced (marks lexemes)) :
    ∃ trees, piecesAll trees = lexemes.flatMap Lexeme.pieces
      ∧ ∀ stack content rest, assemble stack content (lexemes ++ rest)
          = assemble stack (trees.reverse ++ content) rest := by
  generalize word : marks lexemes = bs at balanced
  induction balanced generalizing lexemes with
  | nil => exact ⟨_, piecesAll_unmarked word, assemble_unmarked word⟩
  | enclose delimiter _ _ inside after =>
    obtain ⟨plain, opener, within, closer, behind, rfl, free, opening, inner, closing, rest⟩ :=
      exists_of_marks_enclose word
    obtain ⟨content, eqContent, runContent⟩ := inside inner
    obtain ⟨trees, eqTrees, runTrees⟩ := after rest
    refine ⟨plain.flatMap Lexeme.tokens ++ .group delimiter content opener.span :: trees, ?_, ?_⟩
    · rw [piecesAll_append, piecesAll_unmarked free, piecesAll, pieces, eqContent, eqTrees]
      simp [Lexeme.pieces, opening, closing]
    · intro stack before rest
      have regroup : plain ++ opener :: (within ++ closer :: behind) ++ rest
          = plain ++ opener :: (within ++ closer :: (behind ++ rest)) := by
        simp
      rw [regroup, assemble_unmarked free,
        assemble_opening (Lexeme.mark?_eq_opening.mp opening), runContent, List.append_nil,
        assemble_closing (Lexeme.mark?_eq_closing.mp closing), List.reverse_reverse, runTrees]
      simp

/-- Lexemes that leave delimiters open leave their groups open, innermost first. -/
theorem assemble_leavesOpen (left : LeavesOpen lexemes opens) :
    ∃ stack content,
      List.Forall₂ (fun group opener => Lexeme.mark? opener = some (.opening group.delimiter)
          ∧ opener.span = group.span) stack opens
      ∧ ∀ rest, assemble [] [] (lexemes ++ rest) = assemble stack content rest := by
  induction left with
  | balanced word =>
    obtain ⟨trees, -, run⟩ := assemble_balanced word
    exact ⟨[], trees.reverse ++ [], .nil, run [] []⟩
  | @opening before opens within opener delimiter _ opening word ih =>
    obtain ⟨stack, content, opened, run⟩ := ih
    obtain ⟨trees, -, runWithin⟩ := assemble_balanced word
    refine ⟨⟨delimiter, opener.span, content⟩ :: stack, trees.reverse ++ [],
      .cons ⟨opening, rfl⟩ opened, fun rest => ?_⟩
    rw [List.append_assoc, List.cons_append, run,
      assemble_opening (Lexeme.mark?_eq_opening.mp opening), runWithin]

theorem assemble_firstMismatch (h : FirstMismatch lexemes closer delimiter) :
    ofLexemes lexemes = .error ⟨.unexpectedClosing delimiter, some closer.span⟩ := by
  obtain ⟨before, behind, opens, rfl, left, closing, apart⟩ := h
  obtain ⟨stack, content, opened, run⟩ := assemble_leavesOpen left
  rw [ofLexemes, run, assemble, Lexeme.mark?_eq_closing.mp closing]
  dsimp only
  cases opened with
  | nil => rfl
  | cons first _ =>
    refine if_neg fun same => apart _ rfl ?_
    rw [← same]
    exact first.1

theorem assemble_innermostOpen (h : InnermostOpen lexemes opener delimiter) :
    ofLexemes lexemes = .error ⟨.unclosed delimiter, some opener.span⟩ := by
  obtain ⟨opens, left, opening⟩ := h
  obtain ⟨stack, content, opened, run⟩ := assemble_leavesOpen left
  have whole := run []
  rw [List.append_nil] at whole
  rw [ofLexemes, whole]
  cases opened with
  | cons first _ =>
    cases opening.symm.trans first.1
    rw [assemble, first.2]

theorem ofLexemes_balanced (balanced : Balanced (marks lexemes)) :
    ∃ trees, ofLexemes lexemes = .ok trees
      ∧ piecesAll trees = lexemes.flatMap Lexeme.pieces := by
  obtain ⟨trees, spelled, run⟩ := assemble_balanced balanced
  have whole := run [] [] []
  rw [List.append_nil, List.append_nil, assemble, List.reverse_reverse] at whole
  exact ⟨trees, whole, spelled⟩

theorem ofLexemes_eq_error_iff {e : SyntaxError} :
    ofLexemes lexemes = .error e ↔
      (∃ closer delimiter, FirstMismatch lexemes closer delimiter
        ∧ e = ⟨.unexpectedClosing delimiter, some closer.span⟩)
      ∨ (∃ opener delimiter, InnermostOpen lexemes opener delimiter
        ∧ e = ⟨.unclosed delimiter, some opener.span⟩) := by
  constructor
  · intro h
    obtain balanced | ⟨closer, delimiter, mismatch⟩ | ⟨opener, delimiter, innermost⟩ :=
      balanced_or_fault lexemes
    · obtain ⟨trees, eq, -⟩ := ofLexemes_balanced balanced
      cases eq.symm.trans h
    · cases (assemble_firstMismatch mismatch).symm.trans h
      exact .inl ⟨closer, delimiter, mismatch, rfl⟩
    · cases (assemble_innermostOpen innermost).symm.trans h
      exact .inr ⟨opener, delimiter, innermost, rfl⟩
  · rintro (⟨closer, delimiter, mismatch, rfl⟩ | ⟨opener, delimiter, innermost, rfl⟩)
    · exact assemble_firstMismatch mismatch
    · exact assemble_innermostOpen innermost

theorem balanced_of_ofLexemes {trees : List Token} (h : ofLexemes lexemes = .ok trees) :
    Balanced (marks lexemes) := by
  obtain balanced | ⟨closer, delimiter, mismatch⟩ | ⟨opener, delimiter, innermost⟩ :=
    balanced_or_fault lexemes
  · exact balanced
  · cases h.symm.trans (assemble_firstMismatch mismatch)
  · cases h.symm.trans (assemble_innermostOpen innermost)

/-- The trees written out are the lexemes, each converted. -/
theorem pieces_of_ofLexemes {trees : List Token} (h : ofLexemes lexemes = .ok trees) :
    piecesAll trees = lexemes.flatMap Lexeme.pieces := by
  obtain ⟨trees', h', spelled⟩ := ofLexemes_balanced (balanced_of_ofLexemes h)
  cases h.symm.trans h'
  exact spelled

/-- The trees of a source are its lexemes with their delimiters matched: the source is read exactly
    when the delimiters form a balanced word, and the trees written out are then the lexemes in
    their order, each converted, where a group has the place of its opening delimiter. Any other
    source fails at the first closing delimiter that does not match the innermost open one, or, if
    there is none, at the innermost delimiter that is left open. -/
theorem read_matches {source : String} {lexemes : List Lexeme}
    (scanned : Lexeme.scan source = .ok lexemes) :
    (∀ lexeme ∈ lexemes, ∀ mark, lexeme.mark? = some mark →
      String.ofList lexeme.text = mark.text)
    ∧ ((∃ trees, read source = .ok trees) ↔ Balanced (marks lexemes))
    ∧ (∀ trees, read source = .ok trees → piecesAll trees = lexemes.flatMap Lexeme.pieces)
    ∧ ∀ e, read source = .error e ↔
        (∃ closer delimiter, FirstMismatch lexemes closer delimiter
          ∧ e = ⟨.unexpectedClosing delimiter, some closer.span⟩)
        ∨ (∃ opener delimiter, InnermostOpen lexemes opener delimiter
          ∧ e = ⟨.unclosed delimiter, some opener.span⟩) := by
  have read_eq : read source = ofLexemes lexemes := by rw [read, scanned, Outcome.ok_bind]
  rw [read_eq]
  refine ⟨fun lexeme mem mark => Lexeme.text_of_mark scanned mem, ⟨?_, ?_⟩,
    fun trees h => pieces_of_ofLexemes h, fun e => ofLexemes_eq_error_iff⟩
  · exact fun ⟨trees, h⟩ => balanced_of_ofLexemes h
  · intro balanced
    obtain ⟨trees, h, -⟩ := ofLexemes_balanced balanced
    exact ⟨trees, h⟩

/-- A lifetime and a group inside parentheses, which end before the group does. -/
theorem read_matches_lifetime :
    let closer : Lexeme := ⟨.closing .parenthesis, [')'], ⟨1, 8⟩, false⟩
    let lexemes : List Lexeme :=
      [⟨.ident, ['f'], ⟨1, 1⟩, false⟩, ⟨.opening .parenthesis, ['('], ⟨1, 2⟩, false⟩,
        ⟨.lifetime, ['\'', 'a'], ⟨1, 3⟩, true⟩, ⟨.punct, [':'], ⟨1, 5⟩, false⟩,
        ⟨.opening .bracket, ['['], ⟨1, 6⟩, false⟩, ⟨.int, ['1'], ⟨1, 7⟩, false⟩, closer]
    Lexeme.scan "f('a:[1)" = .ok lexemes ∧ FirstMismatch lexemes closer .parenthesis
      ∧ read "f('a:[1)" = .error ⟨.unexpectedClosing .parenthesis, some closer.span⟩ := by
  intro closer lexemes
  have scanned : Lexeme.scan "f('a:[1)" = .ok lexemes := by rfl
  have name : LeavesOpen (lexemes.take 1) [] := .balanced .nil
  have outer : LeavesOpen (lexemes.take 4) [_] := .opening .parenthesis name rfl .nil
  have inner : LeavesOpen (lexemes.take 6) [_, _] := .opening .bracket outer rfl .nil
  have mismatch : FirstMismatch lexemes closer .parenthesis :=
    ⟨_, [], _, rfl, inner, rfl, fun _ mem => by cases mem; decide⟩
  exact ⟨scanned, mismatch, ((read_matches scanned).2.2.2 _).mpr (.inl ⟨_, _, mismatch, rfl⟩)⟩

end Token

end AliasExpansion
