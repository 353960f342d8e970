-- SUMMARY: Which lexeme stands first in a text.
import AliasExpansion.Proofs.Lexing.Quoted

/-!
# The first lexeme

`Lexeme.first?` tries the shapes one after the other. Here it is determined for the texts that
rendering makes: a blank, a symbol, a lifetime, and a name or literal that is one lexeme on its own
and has a boundary behind it (`first?_append`).
-/

namespace AliasExpansion.Lexeme

variable {cs tail rest : List Char} {c : Char} {kind : LexemeKind} {n : Nat}

-- ---------------------------------------------------------------------------
-- Every lexeme takes something
-- ---------------------------------------------------------------------------

theorem andThen_positive {first second : Shape} (h : first.Positive) :
    (andThen first second).Positive := by
  intro cs n taken
  obtain ⟨m, k, hm, -, rfl⟩ := andThen_eq_some taken
  exact Nat.add_pos_left (h cs m hm) k

theorem firstOf_positive {shapes : List Shape} (h : ∀ shape ∈ shapes, shape.Positive) :
    (firstOf shapes).Positive := by
  intro cs n taken
  obtain ⟨shape, mem, taken⟩ := firstOf_eq_some taken
  exact h shape mem cs n taken

theorem decimalShape_positive : decimalShape.Positive := by
  intro cs n h
  obtain ⟨c, rest, -, -, rfl⟩ := decimalShape_eq_some.mp h
  omega

theorem prefixedShape_positive {mark : Char} {isDigit : Char → Bool} :
    (prefixedShape mark isDigit).Positive := by
  intro cs n h
  obtain ⟨rest, -, rfl⟩ := prefixedShape_eq_some h
  omega

theorem floatShape_positive : floatShape.Positive := by
  refine firstOf_positive ?_
  simp only [List.forall_mem_cons, List.not_mem_nil, false_implies, implies_true, and_true]
  exact ⟨andThen_positive decimalShape_positive, andThen_positive decimalShape_positive,
    andThen_positive decimalShape_positive, andThen_positive decimalShape_positive⟩

theorem intShape_positive : intShape.Positive := by
  refine andThen_positive (firstOf_positive ?_)
  simp only [List.forall_mem_cons, List.not_mem_nil, false_implies, implies_true, and_true]
  exact ⟨prefixedShape_positive, prefixedShape_positive, prefixedShape_positive,
    decimalShape_positive⟩

theorem identShape_positive : identShape.Positive := by
  have name : nameShape.Positive := by
    intro cs n h
    obtain ⟨c, rest, -, -, rfl⟩ := nameShape_eq_some.mp h
    omega
  intro cs n h
  rcases identShape_eq_some h with plain | ⟨rest, k, -, -, rfl⟩
  · exact name cs n plain
  · omega

theorem shapes_positive : ∀ entry ∈ shapes, Shape.Positive entry.2 := by
  have outerDoc : outerDocShape.Positive := by
    intro cs n h
    obtain ⟨rest, -, rfl⟩ := outerDocShape_eq_some h
    omega
  have innerDoc : innerDocShape.Positive := by
    intro cs n h
    obtain ⟨rest, -, rfl⟩ := innerDocShape_eq_some h
    omega
  have lineComment : lineCommentShape.Positive := by
    intro cs n h
    obtain ⟨rest, -, rfl⟩ := lineCommentShape_eq_some h
    omega
  have blockComment : blockCommentShape.Positive := by
    intro cs n h
    obtain ⟨rest, k, -, -, rfl⟩ := blockCommentShape_eq_some h
    omega
  have blank : blankShape.Positive := fun cs n h => (blankShape_eq_some h).2
  have lifetime : lifetimeShape.Positive := by
    intro cs n h
    obtain ⟨rest, k, -, -, rfl⟩ := lifetimeShape_eq_some h
    omega
  have charOnly : ∀ char, Shape.Positive (charOnlyShape char) := by
    intro char cs n h
    obtain ⟨rest, -, rfl⟩ := charOnlyShape_eq_some h
    exact Nat.one_pos
  have punct : punctShape.Positive := by
    intro cs n h
    obtain ⟨c, -, rest, -, rfl⟩ := punctShape_eq_some h
    exact Nat.one_pos
  simp only [shapes, List.forall_mem_cons, List.not_mem_nil, false_implies, implies_true, and_true]
  exact ⟨outerDoc, innerDoc, lineComment, blockComment, blank,
    afterByteMark_positive rawStringShape_positive, afterByteMark_positive stringShape_positive,
    afterByteMark_positive charShape_positive, lifetime, floatShape_positive, intShape_positive,
    identShape_positive, charOnly _, charOnly _, charOnly _, charOnly _, charOnly _, charOnly _,
    punct⟩

theorem first?_eq_some (h : first? cs = some (kind, n)) :
    ∃ shape, (kind, shape) ∈ shapes ∧ shape cs = some n := by
  obtain ⟨⟨kind', shape⟩, mem, taken⟩ := List.exists_of_findSome?_eq_some h
  obtain ⟨k, hk, eq⟩ := Option.map_eq_some_iff.mp taken
  cases eq
  exact ⟨shape, mem, hk⟩

theorem first?_positive (h : first? cs = some (kind, n)) : 0 < n := by
  obtain ⟨shape, mem, taken⟩ := first?_eq_some h
  exact shapes_positive _ mem cs n taken

-- ---------------------------------------------------------------------------
-- Shapes that do not fit
-- ---------------------------------------------------------------------------

/-- No comment starts here: what stands behind a slash continues none. -/
def NoComment : List Char → Prop
  | '/' :: c :: _ => c ≠ '/' ∧ c ≠ '*'
  | _ => True

theorem noComment_of_ne (ne : c ≠ '/') (rest : List Char) : NoComment (c :: rest) := by
  rw [NoComment.eq_def]
  split
  · next eq => exact absurd (List.cons.inj eq).1 ne
  · trivial

theorem noComment_of_head (h : c = '/' → ∀ c' ∈ rest.head?, c' ≠ '/' ∧ c' ≠ '*') :
    NoComment (c :: rest) := by
  rw [NoComment.eq_def]
  split
  · next c' rest' eq =>
    cases eq
    exact h rfl c' rfl
  · trivial

theorem NoComment.none (h : NoComment cs) :
    outerDocShape cs = none ∧ innerDocShape cs = none ∧ lineCommentShape cs = none
      ∧ blockCommentShape cs = none := by
  have notSlash : ∀ rest, cs ≠ '/' :: '/' :: rest := by
    rintro rest rfl
    exact h.1 rfl
  obtain ⟨outer, inner, line⟩ := lineShapes_none notSlash
  refine ⟨outer, inner, line, Option.eq_none_iff_forall_ne_some.mpr fun n taken => ?_⟩
  obtain ⟨rest, k, rfl, -, -⟩ := blockCommentShape_eq_some taken
  exact h.2 rfl

theorem rawStringShape_none (ne : c ≠ 'r') (rest : List Char) :
    rawStringShape (c :: rest) = none := by
  rw [rawStringShape.eq_def]
  split
  · next eq => exact absurd (List.cons.inj eq).1 ne
  · rfl

theorem stringShape_none (ne : c ≠ '"') (rest : List Char) : stringShape (c :: rest) = none := by
  rw [stringShape.eq_def]
  split
  · next eq => exact absurd (List.cons.inj eq).1 ne
  · rfl

theorem charShape_none (ne : c ≠ '\'') (rest : List Char) : charShape (c :: rest) = none := by
  rw [charShape.eq_def]
  split
  · next eq => exact absurd (List.cons.inj eq).1 ne
  · rfl

/-- No quoted literal starts here. -/
structure NoQuoted (cs : List Char) : Prop where
  rawString : afterByteMark rawStringShape cs = none
  string : afterByteMark stringShape cs = none
  char : afterByteMark charShape cs = none

theorem noQuoted_of_ne (hb : c ≠ 'b') (hr : c ≠ 'r') (h : c ≠ '"' ∧ c ≠ '\'')
    (rest : List Char) : NoQuoted (c :: rest) where
  rawString := by rw [afterByteMark_cons hb, rawStringShape_none hr]
  string := by rw [afterByteMark_cons hb, stringShape_none h.1]
  char := by rw [afterByteMark_cons hb, charShape_none h.2]

theorem nameShape_none (h : Text.isNameStart c = false) (rest : List Char) :
    nameShape (c :: rest) = none := by
  rw [nameShape, h]
  rfl

theorem identShape_none (h : Text.isNameStart c = false) (rest : List Char) :
    identShape (c :: rest) = none := by
  have ne : c ≠ 'r' := by
    rintro rfl
    revert h
    decide
  rw [identShape_plain fun rest' eq => ne (List.cons.inj eq).1, nameShape_none h]

theorem decimalShape_none (h : Text.isDecimal c = false) (rest : List Char) :
    decimalShape (c :: rest) = none := by
  rw [decimalShape, h]
  rfl

theorem prefixedShape_none {mark : Char} {isDigit : Char → Bool} (h : Text.isDecimal c = false)
    (rest : List Char) : prefixedShape mark isDigit (c :: rest) = none := by
  refine Option.eq_none_iff_forall_ne_some.mpr fun n taken => ?_
  obtain ⟨rest', eq, -⟩ := prefixedShape_eq_some taken
  cases eq
  revert h
  decide

theorem andThen_none {first second : Shape} (h : first cs = none) :
    andThen first second cs = none := by
  rw [andThen, h]
  rfl

theorem firstOf_none {shapes : List Shape} (h : ∀ shape ∈ shapes, shape cs = none) :
    firstOf shapes cs = none :=
  List.findSome?_eq_none_iff.mpr h

theorem floatShape_none (h : Text.isDecimal c = false) (rest : List Char) :
    floatShape (c :: rest) = none := by
  refine firstOf_none ?_
  have none := decimalShape_none h rest
  simp only [List.forall_mem_cons, List.not_mem_nil, false_implies, implies_true, and_true]
  exact ⟨andThen_none none, andThen_none none, andThen_none none, andThen_none none⟩

theorem intShape_none (h : Text.isDecimal c = false) (rest : List Char) :
    intShape (c :: rest) = none := by
  refine andThen_none (firstOf_none ?_)
  simp only [List.forall_mem_cons, List.not_mem_nil, false_implies, implies_true, and_true]
  exact ⟨prefixedShape_none h rest, prefixedShape_none h rest, prefixedShape_none h rest,
    decimalShape_none h rest⟩

-- ---------------------------------------------------------------------------
-- Blanks, symbols and lifetimes
-- ---------------------------------------------------------------------------

theorem first?_blank (blank : Text.isBlank c = true) (rest : List Char) :
    first? (c :: rest) = some (.blank, 1 + run Text.isBlank rest) := by
  have ne : c ≠ '/' := by
    rintro rfl
    revert blank
    decide
  obtain ⟨h₁, h₂, h₃, h₄⟩ := (noComment_of_ne ne rest).none
  simp only [first?, shapes, List.findSome?_cons, h₁, h₂, h₃, h₄, Option.map_none, blankShape_cons,
    blank, if_true, Option.map_some]

/-- The shapes of symbols. -/
def symbolShapes : List (LexemeKind × Shape) :=
  [(.opening .parenthesis, charOnlyShape '('),
    (.opening .bracket, charOnlyShape '['),
    (.opening .brace, charOnlyShape '\x7b'),
    (.closing .parenthesis, charOnlyShape ')'),
    (.closing .bracket, charOnlyShape ']'),
    (.closing .brace, charOnlyShape '\x7d'),
    (.punct, punctShape)]

/-- The shapes that are left where neither a comment nor a blank stands. -/
def visibleShapes : List (LexemeKind × Shape) :=
  (.rawString, afterByteMark rawStringShape)
    :: (.string, afterByteMark stringShape)
    :: (.char, afterByteMark charShape)
    :: (.lifetime, lifetimeShape)
    :: (.float, floatShape)
    :: (.int, intShape)
    :: (.ident, identShape)
    :: symbolShapes

theorem first?_visible (blank : Text.isBlank c = false) (noComment : NoComment (c :: rest)) :
    first? (c :: rest)
      = visibleShapes.findSome? fun entry => (entry.2 (c :: rest)).map fun n => (entry.1, n) := by
  obtain ⟨h₁, h₂, h₃, h₄⟩ := noComment.none
  simp only [first?, shapes, visibleShapes, symbolShapes, List.findSome?_cons, h₁, h₂, h₃, h₄,
    Option.map_none, blankShape_cons, blank, Bool.false_eq_true, if_false]

/-- A character that is no blank, starts no literal, no name and no lifetime. -/
structure IsSymbol (c : Char) : Prop where
  blank : Text.isBlank c = false
  decimal : Text.isDecimal c = false
  start : Text.isNameStart c = false
  quote : c ≠ '"' ∧ c ≠ '\''

theorem first?_symbol (symbol : IsSymbol c) (noComment : NoComment (c :: rest)) :
    first? (c :: rest)
      = symbolShapes.findSome? fun entry => (entry.2 (c :: rest)).map fun n => (entry.1, n) := by
  have start := symbol.start
  have notB : c ≠ 'b' := by
    rintro rfl
    revert start
    decide
  have notR : c ≠ 'r' := by
    rintro rfl
    revert start
    decide
  obtain ⟨rawString, string, char⟩ := noQuoted_of_ne notB notR symbol.quote rest
  rw [first?_visible symbol.blank noComment]
  simp only [visibleShapes, List.findSome?_cons, rawString, string, char,
    lifetimeShape_none symbol.quote.2, floatShape_none symbol.decimal, intShape_none symbol.decimal,
    identShape_none symbol.start, Option.map_none]

theorem punctChars_symbol (mem : c ∈ punctChars) (quote : c ≠ '\'') : IsSymbol c where
  blank := none_of_any (by decide) c mem
  decimal := none_of_any (by decide) c mem
  start := none_of_any (by decide) c mem
  quote := ⟨fun eq => (show '"' ∉ punctChars by decide) (eq ▸ mem), quote⟩

theorem first?_punct (mem : c ∈ punctChars) (quote : c ≠ '\'')
    (noComment : NoComment (c :: rest)) : first? (c :: rest) = some (.punct, 1) := by
  have others : ∀ d ∈ ['(', '[', '\x7b', ')', ']', '\x7d'], charOnlyShape d (c :: rest) = none := by
    intro d mem'
    have free : ∀ d ∈ ['(', '[', '\x7b', ')', ']', '\x7d'], d ∉ punctChars :=
      apart_of_any (by decide)
    rw [charOnlyShape, if_neg]
    exact fun eq => free d mem' (beq_iff_eq.mp eq ▸ mem)
  have punct : punctShape (c :: rest) = some 1 := by
    rw [punctShape, if_pos (List.contains_iff_mem.mpr mem)]
  rw [first?_symbol (punctChars_symbol mem quote) noComment]
  simp only [List.forall_mem_cons, List.not_mem_nil, false_implies, implies_true, and_true] at others
  obtain ⟨h₁, h₂, h₃, h₄, h₅, h₆⟩ := others
  simp only [symbolShapes, List.findSome?_cons, h₁, h₂, h₃, h₄, h₅, h₆, Option.map_none, punct,
    Option.map_some]

/-- The character of a visible delimiter, at its start or at its end. -/
theorem first?_delimiter (rest : List Char) :
    first? ('(' :: rest) = some (.opening .parenthesis, 1)
    ∧ first? ('[' :: rest) = some (.opening .bracket, 1)
    ∧ first? ('\x7b' :: rest) = some (.opening .brace, 1)
    ∧ first? (')' :: rest) = some (.closing .parenthesis, 1)
    ∧ first? (']' :: rest) = some (.closing .bracket, 1)
    ∧ first? ('\x7d' :: rest) = some (.closing .brace, 1) := by
  have step : ∀ c ∈ ['(', '[', '\x7b', ')', ']', '\x7d'], first? (c :: rest)
      = symbolShapes.findSome? fun entry => (entry.2 (c :: rest)).map fun n => (entry.1, n) := by
    intro c mem
    have symbol : IsSymbol c :=
      { blank := none_of_any (by decide) c mem
        decimal := none_of_any (by decide) c mem
        start := none_of_any (by decide) c mem
        quote := by
          constructor <;>
          · rintro rfl
            revert mem
            decide }
    have slash : c ≠ '/' := by
      rintro rfl
      revert mem
      decide
    exact first?_symbol symbol (noComment_of_ne slash rest)
  refine ⟨?_, ?_, ?_, ?_, ?_, ?_⟩ <;> exact (step _ (by decide)).trans rfl

-- ---------------------------------------------------------------------------
-- Names and literals
-- ---------------------------------------------------------------------------

/-- Neither a quote nor a fence stands here. -/
def Unquoted (cs : List Char) : Prop :=
  ∀ c ∈ cs.head?, c ≠ '"' ∧ c ≠ '\'' ∧ c ≠ '#'

theorem unquoted_append (word : ∀ c ∈ cs, Text.isWordChar c = true) (h : Bounded tail) :
    Unquoted (cs ++ tail) := by
  intro c mem
  match cs with
  | [] =>
    have boundary := h c mem
    exact ⟨ne_of_boundary boundary (by decide), ne_of_boundary boundary (by decide),
      ne_of_boundary boundary (by decide)⟩
  | c' :: _ =>
    cases mem
    have word := word c List.mem_cons_self
    refine ⟨?_, ?_, ?_⟩ <;>
    · rintro rfl
      revert word
      decide

theorem Unquoted.ne_fence (h : Unquoted cs) {fence content : List Char}
    (hashes : ∀ c ∈ fence, (c == '#') = true) : cs ≠ fence ++ '"' :: content := by
  rintro rfl
  match fence with
  | [] => exact (h '"' rfl).1 rfl
  | c :: _ => exact (h c rfl).2.2 (beq_iff_eq.mp (hashes c List.mem_cons_self))

theorem Unquoted.rawString_none (h : Unquoted cs) : rawStringShape ('r' :: cs) = none := by
  refine Option.eq_none_iff_forall_ne_some.mpr fun n taken => ?_
  obtain ⟨fence, content, k, eq, hashes, -⟩ := rawStringShape_eq_some.mp taken
  exact h.ne_fence hashes (List.cons.inj eq).2

theorem Unquoted.rawIdent_none (h : Unquoted cs) : rawStringShape ('r' :: '#' :: cs) = none := by
  refine Option.eq_none_iff_forall_ne_some.mpr fun n taken => ?_
  obtain ⟨fence, content, k, eq, hashes, -⟩ := rawStringShape_eq_some.mp taken
  match fence with
  | [] => cases eq
  | c :: fence =>
    have behind : cs = fence ++ '"' :: content := (List.cons.inj (List.cons.inj eq).2).2
    exact h.ne_fence (fun c mem => hashes c (List.mem_cons_of_mem _ mem)) behind

theorem Unquoted.string_none (h : Unquoted cs) : stringShape cs = none := by
  match cs with
  | [] => rfl
  | c :: rest => exact stringShape_none (h c rfl).1 rest

theorem Unquoted.char_none (h : Unquoted cs) : charShape cs = none := by
  match cs with
  | [] => rfl
  | c :: rest => exact charShape_none (h c rfl).2.1 rest

/-- A name is no quoted literal, with a boundary behind it. -/
theorem noQuoted_word (start : Text.isNameStart c = true)
    (word : ∀ c ∈ cs, Text.isWordChar c = true) (h : Bounded tail) :
    NoQuoted (c :: (cs ++ tail)) := by
  have behind := unquoted_append word h
  by_cases hb : c = 'b'
  · subst hb
    refine ⟨?_, ?_, ?_⟩
    · rw [afterByteMark]
      cases cs with
      | nil =>
        rcases h.cases with rfl | ⟨c, mem, rest, rfl⟩
        · rfl
        · rw [List.nil_append, rawStringShape_none (ne_of_boundary mem (by decide))]
          rfl
      | cons c cs =>
        by_cases hr : c = 'r'
        · subst hr
          have behind := unquoted_append (fun c mem => word c (List.mem_cons_of_mem _ mem)) h
          rw [List.cons_append, behind.rawString_none]
          rfl
        · rw [List.cons_append, rawStringShape_none hr]
          rfl
    · rw [afterByteMark, behind.string_none]
      rfl
    · rw [afterByteMark, behind.char_none]
      rfl
  · by_cases hr : c = 'r'
    · subst hr
      refine ⟨?_, ?_, ?_⟩
      · rw [afterByteMark_cons hb, behind.rawString_none]
      · rw [afterByteMark_cons hb, stringShape_none (by decide)]
      · rw [afterByteMark_cons hb, charShape_none (by decide)]
    · refine noQuoted_of_ne hb hr ⟨?_, ?_⟩ _ <;>
      · rintro rfl
        revert start
        decide

/-- A raw identifier is no quoted literal, with a boundary behind it. -/
theorem noQuoted_rawIdent (word : ∀ c ∈ cs, Text.isWordChar c = true) (h : Bounded tail) :
    NoQuoted ('r' :: '#' :: (cs ++ tail)) where
  rawString := by rw [afterByteMark_cons (by decide), (unquoted_append word h).rawIdent_none]
  string := by rw [afterByteMark_cons (by decide), stringShape_none (by decide)]
  char := by rw [afterByteMark_cons (by decide), charShape_none (by decide)]

theorem all_of_run {p : Char → Bool} (h : run p cs = cs.length) : ∀ c ∈ cs, p c = true := by
  have whole : cs.takeWhile p = cs := (List.takeWhile_prefix p).eq_of_length h
  intro c mem
  exact List.all_eq_true.mp List.all_takeWhile c (whole.symm ▸ mem)

/-- A text that is an identifier as a whole. -/
theorem identShape_whole (h : identShape cs = some cs.length) :
    (∃ c word, cs = c :: word ∧ Text.isNameStart c = true ∧ ∀ c ∈ word, Text.isWordChar c = true)
    ∨ ∃ word, cs = 'r' :: '#' :: word ∧ ∀ c ∈ word, Text.isWordChar c = true := by
  rcases identShape_eq_some h with name | ⟨rest, k, rfl, name, length⟩
  · obtain ⟨c, word, rfl, start, length⟩ := nameShape_eq_some.mp name
    rw [List.length_cons] at length
    exact .inl ⟨c, word, rfl, start, all_of_run (by omega)⟩
  · obtain ⟨c, word, rfl, start, rfl⟩ := nameShape_eq_some.mp name
    simp only [List.length_cons] at length
    refine .inr ⟨c :: word, rfl, ?_⟩
    rw [List.forall_mem_cons]
    exact ⟨Text.isWordChar_of_isNameStart start, all_of_run (by omega)⟩

theorem decimal_of_intShape (h : intShape cs = some n) :
    ∃ c rest, cs = c :: rest ∧ Text.isDecimal c = true := by
  match cs with
  | [] => cases h
  | c :: rest =>
    refine ⟨c, rest, rfl, ?_⟩
    by_contra digit
    rw [intShape_none (Bool.eq_false_iff.mpr digit)] at h
    cases h

theorem decimal_of_floatShape (h : floatShape cs = some n) :
    ∃ c rest, cs = c :: rest ∧ Text.isDecimal c = true := by
  match cs with
  | [] => cases h
  | c :: rest =>
    refine ⟨c, rest, rfl, ?_⟩
    by_contra digit
    rw [floatShape_none (Bool.eq_false_iff.mpr digit)] at h
    cases h

theorem noQuoted_decimal (digit : Text.isDecimal c = true) (rest : List Char) :
    NoQuoted (c :: rest) := by
  refine noQuoted_of_ne ?_ ?_ ⟨?_, ?_⟩ rest <;>
  · rintro rfl
    revert digit
    decide

/-- The kinds of names and literals. -/
def atomKinds : List LexemeKind :=
  [.rawString, .string, .char, .float, .int, .ident]

/-- The shape of a name or literal. -/
def atomShape : LexemeKind → Shape
  | .rawString => afterByteMark rawStringShape
  | .string => afterByteMark stringShape
  | .char => afterByteMark charShape
  | .float => floatShape
  | .int => intShape
  | _ => identShape

theorem atomShape_of_first? (h : first? cs = some (kind, n)) (atom : kind ∈ atomKinds) :
    atomShape kind cs = some n := by
  obtain ⟨shape, mem, taken⟩ := first?_eq_some h
  simp only [atomKinds, List.mem_cons, List.not_mem_nil, or_false] at atom
  rcases atom with rfl | rfl | rfl | rfl | rfl | rfl <;>
  · simp only [shapes, List.mem_cons, Prod.mk.injEq, reduceCtorEq, false_and, true_and, false_or,
      List.not_mem_nil, or_false] at mem
    subst mem
    exact taken

/-- A quoted literal at the start stays the same with `tail` behind it, and so does there being
    none. -/
structure QuotedStable (cs tail : List Char) : Prop where
  rawString : afterByteMark rawStringShape (cs ++ tail) = afterByteMark rawStringShape cs
  string : afterByteMark stringShape (cs ++ tail) = afterByteMark stringShape cs
  char : afterByteMark charShape (cs ++ tail) = afterByteMark charShape cs

theorem NoQuoted.stable (h : NoQuoted cs) (h' : NoQuoted (cs ++ tail)) : QuotedStable cs tail where
  rawString := h'.rawString.trans h.rawString.symm
  string := h'.string.trans h.string.symm
  char := h'.char.trans h.char.symm

theorem quotedStable_ident (h : identShape cs = some cs.length) (bounded : Bounded tail) :
    QuotedStable cs tail := by
  rcases identShape_whole h with ⟨c, word, rfl, start, all⟩ | ⟨word, rfl, all⟩
  · have alone := noQuoted_word start all bounded_nil
    rw [List.append_nil] at alone
    exact alone.stable (noQuoted_word start all bounded)
  · have alone := noQuoted_rawIdent all bounded_nil
    rw [List.append_nil] at alone
    exact alone.stable (noQuoted_rawIdent all bounded)

/-- The shape fits only behind a given character. -/
structure Opens (d : Char) (shape : Shape) : Prop where
  nil : shape [] = none
  cons : ∀ c, c ≠ d → ∀ rest, shape (c :: rest) = none

theorem rawStringShape_opens : Opens 'r' rawStringShape :=
  ⟨rfl, fun _ ne rest => rawStringShape_none ne rest⟩

theorem stringShape_opens : Opens '"' stringShape :=
  ⟨rfl, fun _ ne rest => stringShape_none ne rest⟩

theorem charShape_opens : Opens '\'' charShape :=
  ⟨rfl, fun _ ne rest => charShape_none ne rest⟩

theorem Opens.start {d : Char} {shape : Shape} (h : Opens d shape)
    (taken : afterByteMark shape cs = some n) :
    ∃ rest, cs = d :: rest ∨ cs = 'b' :: d :: rest := by
  have first : ∀ {cs k}, shape cs = some k → ∃ rest, cs = d :: rest := by
    intro cs k taken
    match cs with
    | [] => rw [h.nil] at taken; cases taken
    | c :: rest =>
      by_cases eq : c = d
      · exact ⟨rest, by rw [eq]⟩
      · rw [h.cons c eq] at taken
        cases taken
  rcases afterByteMark_eq_some taken with plain | ⟨rest, k, rfl, plain, -⟩
  · obtain ⟨rest, rfl⟩ := first plain
    exact ⟨rest, .inl rfl⟩
  · obtain ⟨rest, rfl⟩ := first plain
    exact ⟨rest, .inr rfl⟩

/-- Where one kind of quoted literal stands, another does not, whatever is behind. -/
theorem Opens.other {d d' : Char} {shape shape' : Shape} (h : Opens d shape) (h' : Opens d' shape')
    (ne : d ≠ d') (hb : d ≠ 'b') (taken : afterByteMark shape cs = some n) (tail : List Char) :
    afterByteMark shape' (cs ++ tail) = afterByteMark shape' cs := by
  obtain ⟨rest, rfl | rfl⟩ := h.start taken
  · rw [List.cons_append, afterByteMark_cons hb, afterByteMark_cons hb, h'.cons d ne,
      h'.cons d ne]
  · rw [List.cons_append, List.cons_append, afterByteMark, afterByteMark, h'.cons d ne,
      h'.cons d ne]

theorem quotedStable_rawString (h : afterByteMark rawStringShape cs = some n) (tail : List Char) :
    QuotedStable cs tail where
  rawString := (afterByteMark_monotone rfl rawStringShape_monotone cs tail n h).trans h.symm
  string := rawStringShape_opens.other stringShape_opens (by decide) (by decide) h tail
  char := rawStringShape_opens.other charShape_opens (by decide) (by decide) h tail

theorem quotedStable_string (h : afterByteMark stringShape cs = some n) (tail : List Char) :
    QuotedStable cs tail where
  rawString := stringShape_opens.other rawStringShape_opens (by decide) (by decide) h tail
  string := (afterByteMark_monotone rfl stringShape_monotone cs tail n h).trans h.symm
  char := stringShape_opens.other charShape_opens (by decide) (by decide) h tail

theorem quotedStable_char (h : afterByteMark charShape cs = some n) (tail : List Char) :
    QuotedStable cs tail where
  rawString := charShape_opens.other rawStringShape_opens (by decide) (by decide) h tail
  string := charShape_opens.other stringShape_opens (by decide) (by decide) h tail
  char := (afterByteMark_monotone rfl charShape_monotone cs tail n h).trans h.symm

theorem quotedStable_atom (h : atomShape kind cs = some cs.length) (atom : kind ∈ atomKinds)
    (bounded : Bounded tail) : QuotedStable cs tail := by
  have number : ∀ {c rest}, cs = c :: rest → Text.isDecimal c = true → QuotedStable cs tail := by
    rintro c rest rfl digit
    exact (noQuoted_decimal digit rest).stable (noQuoted_decimal digit (rest ++ tail))
  simp only [atomKinds, List.mem_cons, List.not_mem_nil, or_false] at atom
  rcases atom with rfl | rfl | rfl | rfl | rfl | rfl
  · exact quotedStable_rawString h tail
  · exact quotedStable_string h tail
  · exact quotedStable_char h tail
  · obtain ⟨c, rest, eq, digit⟩ := decimal_of_floatShape h
    exact number eq digit
  · obtain ⟨c, rest, eq, digit⟩ := decimal_of_intShape h
    exact number eq digit
  · exact quotedStable_ident h bounded

/-- No comment starts with a name or literal. -/
theorem ne_slash_of_atom (h : atomShape kind (c :: rest) = some n) (atom : kind ∈ atomKinds) :
    c ≠ '/' := by
  rintro rfl
  have quoted : NoQuoted ('/' :: rest) :=
    noQuoted_of_ne (by decide) (by decide) ⟨by decide, by decide⟩ rest
  simp only [atomKinds, List.mem_cons, List.not_mem_nil, or_false] at atom
  rcases atom with rfl | rfl | rfl | rfl | rfl | rfl
  · rw [atomShape, quoted.rawString] at h; cases h
  · rw [atomShape, quoted.string] at h; cases h
  · rw [atomShape, quoted.char] at h; cases h
  · rw [atomShape, floatShape_none (by decide)] at h; cases h
  · rw [atomShape, intShape_none (by decide)] at h; cases h
  · change identShape ('/' :: rest) = some n at h
    rw [identShape_none (by decide)] at h
    cases h

theorem not_blank_of_atom (h : first? (c :: rest) = some (kind, n)) (atom : kind ∈ atomKinds) :
    Text.isBlank c = false := by
  refine Bool.eq_false_iff.mpr fun blank => ?_
  rw [first?_blank blank] at h
  cases h
  revert atom
  decide

theorem findSome?_congr {α β : Type} {f g : α → Option β} {items : List α}
    (same : ∀ item ∈ items, f item = g item) : items.findSome? f = items.findSome? g := by
  induction items with
  | nil => rfl
  | cons item items ih =>
    rw [List.findSome?_cons, List.findSome?_cons, same item List.mem_cons_self,
      ih fun item mem => same item (List.mem_cons_of_mem _ mem)]

/-- A name or literal that is one lexeme on its own is so, too, in front of a boundary. -/
theorem first?_append (h : first? cs = some (kind, cs.length)) (atom : kind ∈ atomKinds)
    (bounded : Bounded tail) : first? (cs ++ tail) = some (kind, cs.length) := by
  have shape := atomShape_of_first? h atom
  have quoted := quotedStable_atom shape atom bounded
  match cs with
  | [] => exact absurd (first?_positive h) (Nat.lt_irrefl _)
  | c :: rest =>
    have slash := ne_slash_of_atom shape atom
    have blank := not_blank_of_atom h atom
    rw [List.cons_append, first?_visible blank (noComment_of_ne slash _), ← h,
      first?_visible blank (noComment_of_ne slash _)]
    refine findSome?_congr ?_
    simp only [visibleShapes, symbolShapes, List.forall_mem_cons, List.not_mem_nil, false_implies,
      implies_true, and_true, charOnlyShape, punctShape]
    refine ⟨?_, ?_, ?_, ?_, ?_, ?_, ?_⟩
    · exact congrArg _ quoted.rawString
    · exact congrArg _ quoted.string
    · exact congrArg _ quoted.char
    · exact congrArg _ (lifetimeShape_local.stable (c :: rest) tail bounded.stopped)
    · exact congrArg _ (floatShape_local.stable (c :: rest) tail bounded.stopped)
    · exact congrArg _ (intShape_local.stable (c :: rest) tail bounded.stopped)
    · exact congrArg _ (identShape_local.stable (c :: rest) tail bounded.stopped)

/-- A quote and one character, without a quote behind it, are no character literal. -/
theorem charShape_unclosed (plain : c ≠ '\\') (unclosed : ∀ c' ∈ rest.head?, c' ≠ '\'') :
    charShape ('\'' :: c :: rest) = none := by
  refine Option.eq_none_iff_forall_ne_some.mpr fun n taken => ?_
  obtain ⟨content, k, eq, hk, closes, -⟩ := charShape_eq_some.mp taken
  cases eq
  rw [charContentLength, if_neg fun eq => plain (beq_iff_eq.mp eq)] at hk
  split at hk
  · cases hk
  · cases hk
    rw [List.getElem?_cons_succ, ← List.head?_eq_getElem?] at closes
    exact unclosed _ closes rfl

/-- A quote in front of an identifier makes a lifetime. -/
theorem first?_lifetime (h : identShape cs = some cs.length) (bounded : Bounded tail) :
    first? ('\'' :: (cs ++ tail)) = some (.lifetime, cs.length + 1) := by
  have noChar : charShape ('\'' :: (cs ++ tail)) = none := by
    rcases identShape_whole h with ⟨c, word, rfl, start, all⟩ | ⟨word, rfl, -⟩
    · refine charShape_unclosed ?_ fun c' mem => ((unquoted_append all bounded) c' mem).2.1
      rintro rfl
      revert start
      decide
    · refine charShape_unclosed (by decide) fun c mem => ?_
      cases mem
      decide
  have lifetime : lifetimeShape ('\'' :: (cs ++ tail)) = some (cs.length + 1) := by
    rw [lifetimeShape, identShape_local.stable cs tail bounded.stopped, h]
    rfl
  rw [first?_visible (by decide) (noComment_of_ne (by decide) _)]
  simp only [visibleShapes, List.findSome?_cons, afterByteMark_cons (c := '\'') (by decide),
    rawStringShape_none (c := '\'') (by decide), stringShape_none (c := '\'') (by decide), noChar,
    lifetime, Option.map_none, Option.map_some]

end AliasExpansion.Lexeme
