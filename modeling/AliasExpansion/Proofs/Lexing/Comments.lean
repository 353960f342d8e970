-- SUMMARY: A shape fits in front of a comment as it does in front of a space in its place.
import AliasExpansion.Proofs.Lexing.Scan

/-!
# Shapes in front of a comment

The lexemes in front of a comment stay the same when a space is put in its place: none of them
reaches into the comment, and a shape that does not fit in front of the comment does not fit in
front of the space either (`Lexeme.first?_kept`). Quoted literals and block comments could come to
fit only through the space, and what ends them holds no space. There is one exception: a quote on
its own, a space and a quote are a character literal.
-/

namespace AliasExpansion

namespace Lexeme

variable {shape : Shape} {cs old new comment after fence word : List Char} {kind : LexemeKind}
  {n : Nat}

-- ---------------------------------------------------------------------------
-- Comments
-- ---------------------------------------------------------------------------

/-- What matters of a comment and of the text behind it: how it starts, and that a backslash at its
    end escapes no quote. -/
structure Comment (comment after : List Char) : Prop where
  opens : ∃ mark rest, comment = '/' :: mark :: rest ∧ (mark = '/' ∨ mark = '*')
  ends : comment.getLast? ≠ some '\\' ∨ ∀ c ∈ after.head?, c = '\n'

theorem drop_run (p : Char → Bool) (cs : List Char) : cs.drop (run p cs) = cs.dropWhile p := by
  induction cs with
  | nil => rfl
  | cons c rest ih =>
    unfold run at ih ⊢
    cases taken : p c <;> simp [taken, ih]

theorem blockCommentLength_ends (h : blockCommentLength cs = some n) :
    (cs.take n).getLast? = some '/' := by
  fun_induction blockCommentLength cs generalizing n with
  | case1 rest =>
    cases h
    rfl
  | case2 c rest _ ih =>
    simp only [Option.map_eq_some_iff] at h
    obtain ⟨k, hk, rfl⟩ := h
    simp [List.getLast?_cons, ih hk]
  | case3 => cases h

theorem comment_of_lineCommentShape (h : lineCommentShape cs = some n) :
    Comment (cs.take n) (cs.drop n) := by
  obtain ⟨rest, rfl, rfl⟩ := lineCommentShape_eq_some h
  refine ⟨⟨'/', rest.take (lineLength rest), ?_, .inl rfl⟩, .inr ?_⟩
  · simp [Nat.add_comm 2]
  · intro c mem
    have stops := List.head?_dropWhile_not (· != '\n') rest
    rw [← drop_run] at stops
    simp only [Nat.add_comm 2, List.drop_succ_cons, lineLength] at mem
    rw [mem] at stops
    simpa using stops

theorem comment_of_blockCommentShape (h : blockCommentShape cs = some n) :
    Comment (cs.take n) (cs.drop n) := by
  obtain ⟨rest, k, rfl, hk, rfl⟩ := blockCommentShape_eq_some h
  refine ⟨⟨'*', rest.take k, by simp, .inr rfl⟩, .inl ?_⟩
  simp [List.getLast?_cons, blockCommentLength_ends hk]

/-- A lexeme that is a comment is one. -/
theorem comment_of_first? (h : first? cs = some (.comment, n)) :
    Comment (cs.take n) (cs.drop n) := by
  obtain ⟨shape, mem, taken⟩ := first?_eq_some h
  simp only [shapes, List.mem_cons, Prod.mk.injEq, reduceCtorEq, false_and, true_and, false_or,
    List.not_mem_nil, or_false] at mem
  cases mem with
  | inl line =>
    subst line
    exact comment_of_lineCommentShape taken
  | inr block =>
    subst block
    exact comment_of_blockCommentShape taken

-- ---------------------------------------------------------------------------
-- Words in a text
-- ---------------------------------------------------------------------------

theorem prefix_of_free {c : Char} (h : word <+: cs ++ c :: after) (free : c ∉ word) :
    word <+: cs := by
  have cut : cs ++ [c] <+: cs ++ c :: after := by simp
  by_cases short : word.length ≤ cs.length
  · exact List.prefix_of_prefix_length_le h (List.prefix_append cs _) short
  · have long : (cs ++ [c]).length ≤ word.length := by
      simp only [List.length_append, List.length_singleton]
      omega
    have inside := List.prefix_of_prefix_length_le cut h long
    exact absurd (inside.subset (by simp)) free

/-- A word without a blank ends before the blank. -/
theorem split_of_free {rest : List Char} (h : cs ++ ' ' :: after = word ++ rest)
    (free : ' ' ∉ word) : ∃ more, cs = word ++ more ∧ rest = more ++ ' ' :: after := by
  have front : word <+: cs ++ ' ' :: after := h ▸ List.prefix_append word rest
  obtain ⟨more, rfl⟩ := prefix_of_free front free
  refine ⟨more, rfl, ?_⟩
  rw [List.append_assoc] at h
  exact (List.append_cancel_left h).symm

/-- A word without a blank does not need the blank. -/
theorem infix_of_blank (h : word <:+: cs ++ ' ' :: after) (free : ' ' ∉ word)
    (comment : List Char) : word <:+: cs ++ (comment ++ after) := by
  induction cs with
  | nil =>
    cases List.infix_cons_iff.mp h with
    | inl front =>
      have empty : word <+: [] := prefix_of_free front free
      simp [List.prefix_nil.mp empty]
    | inr behind => exact behind.trans (List.suffix_append comment after).isInfix
  | cons c cs ih =>
    cases List.infix_cons_iff.mp h with
    | inl front =>
      have inside : word <+: c :: cs := prefix_of_free front free
      exact (inside.trans (List.prefix_append _ _)).isInfix
    | inr behind => exact List.infix_cons_iff.mpr (.inr (ih behind))

theorem rawStringLength_isSome :
    (rawStringLength fence cs).isSome ↔ ('"' :: fence) <:+: cs := by
  induction cs with
  | nil => simp [rawStringLength]
  | cons c rest ih =>
    rw [rawStringLength, List.infix_cons_iff, List.cons_prefix_cons, ← ih]
    split
    · next closes =>
      simp only [Bool.and_eq_true, beq_iff_eq, List.isPrefixOf_iff_prefix] at closes
      simp [closes.1, closes.2]
    · next unclosed =>
      simp only [Bool.and_eq_true, beq_iff_eq, List.isPrefixOf_iff_prefix] at unclosed
      simp only [Option.isSome_map]
      exact ⟨.inr, fun h => h.resolve_left fun closes => unclosed ⟨closes.1.symm, closes.2⟩⟩

theorem blockCommentLength_isSome :
    (blockCommentLength cs).isSome ↔ ['*', '/'] <:+: cs := by
  fun_induction blockCommentLength cs with
  | case1 rest => simp [List.infix_cons_iff]
  | case2 c rest open_ ih =>
    rw [Option.isSome_map, List.infix_cons_iff, ih]
    refine ⟨.inr, fun h => h.resolve_left ?_⟩
    rintro ⟨behind, eq⟩
    cases eq
    exact open_ behind rfl rfl
  | case3 => simp

theorem stringLength_plain {c : Char} (quote : c ≠ '"') (escape : c ≠ '\\') (rest : List Char) :
    stringLength (c :: rest) = (stringLength rest).map (· + 1) := by
  rw [stringLength]
  · exact quote
  · exact fun _ _ eq _ => escape eq
  · exact fun eq _ => escape eq

theorem ne_backslash {c : Char} {rest : List Char}
    (noEscape : ∀ head behind, c = '\\' → rest = head :: behind → False)
    (noEnd : c = '\\' → rest = [] → False) : c ≠ '\\' := by
  intro escape
  cases rest with
  | nil => exact noEnd escape rfl
  | cons head behind => exact noEscape head behind escape rfl

/-- A string that is closed in `after` is closed, too, with `front` before it, provided that
    `front` escapes no quote there. -/
theorem stringLength_isSome_append {front : List Char}
    (ends : front.getLast? ≠ some '\\' ∨ ∀ c ∈ after.head?, c = '\n')
    (closed : (stringLength after).isSome) : (stringLength (front ++ after)).isSome := by
  fun_induction stringLength front with
  | case1 => exact closed
  | case2 => simp [stringLength]
  | case3 c rest ih =>
    simp only [List.cons_append, stringLength, Option.isSome_map]
    refine ih ?_
    cases rest with
    | nil => simp
    | cons => simpa [List.getLast?_cons] using ends
  | case4 =>
    have lineEnd := ends.resolve_left (by simp)
    cases after with
    | nil => exact closed
    | cons c rest =>
      obtain rfl := lineEnd c rfl
      rw [stringLength_plain (by decide) (by decide), Option.isSome_map] at closed
      simpa [stringLength] using closed
  | case5 c rest noQuote noEscape noEnd ih =>
    have plain := ne_backslash noEscape noEnd
    rw [List.cons_append, stringLength_plain noQuote plain, Option.isSome_map]
    refine ih ?_
    cases rest with
    | nil => simp
    | cons => simpa [List.getLast?_cons] using ends

/-- A string that is closed behind a blank is closed, too, behind a comment in its place. -/
theorem stringLength_isSome_of_blank (h : Comment comment after)
    (closed : (stringLength (cs ++ ' ' :: after)).isSome) :
    (stringLength (cs ++ (comment ++ after))).isSome := by
  obtain ⟨mark, rest, text, -⟩ := h.opens
  fun_induction stringLength cs with
  | case1 =>
    rw [List.nil_append, stringLength_plain (by decide) (by decide), Option.isSome_map] at closed
    rw [List.nil_append]
    exact stringLength_isSome_append h.ends closed
  | case2 => simp [stringLength]
  | case3 c behind ih =>
    simp only [List.cons_append, stringLength, Option.isSome_map] at closed ⊢
    exact ih closed
  | case4 =>
    -- the backslash escapes the slash of the comment where it escaped the blank
    subst text
    simp only [List.cons_append, List.nil_append, stringLength, Option.isSome_map] at closed ⊢
    rw [← List.cons_append]
    refine stringLength_isSome_append ?_ closed
    simpa [List.getLast?_cons] using h.ends
  | case5 c behind noQuote noEscape noEnd ih =>
    have plain := ne_backslash noEscape noEnd
    rw [List.cons_append, stringLength_plain noQuote plain, Option.isSome_map] at closed ⊢
    exact ih closed

-- ---------------------------------------------------------------------------
-- What a shape takes
-- ---------------------------------------------------------------------------

theorem blockCommentLength_take (h : blockCommentLength cs = some n) :
    blockCommentLength (cs.take n) = some n := by
  fun_induction blockCommentLength cs generalizing n with
  | case1 rest =>
    cases h
    rfl
  | case2 c rest open_ ih =>
    simp only [Option.map_eq_some_iff] at h
    obtain ⟨k, hk, rfl⟩ := h
    rw [List.take_succ_cons, blockCommentLength, ih hk, Option.map_some]
    intro behind eq taken
    cases rest with
    | nil => cases hk
    | cons d rest =>
      cases k with
      | zero => cases taken
      | succ k => exact open_ rest eq (by cases taken; rfl)
  | case3 => cases h

theorem blockCommentLength_append (h : blockCommentLength cs = some n) (tail : List Char) :
    blockCommentLength (cs ++ tail) = some n := by
  fun_induction blockCommentLength cs generalizing n with
  | case1 => exact h
  | case2 c rest open_ ih =>
    simp only [Option.map_eq_some_iff] at h
    obtain ⟨k, hk, rfl⟩ := h
    rw [List.cons_append, blockCommentLength, ih hk, Option.map_some]
    intro behind eq taken
    cases rest with
    | nil => cases hk
    | cons d rest => exact open_ rest eq (by cases taken; rfl)
  | case3 => cases h

theorem rawStringLength_take (h : rawStringLength fence cs = some n) :
    rawStringLength fence (cs.take n) = some n := by
  induction cs generalizing n with
  | nil => cases h
  | cons c rest ih =>
    rw [rawStringLength] at h
    split at h
    · next closes =>
      cases h
      simp only [Bool.and_eq_true, beq_iff_eq, List.isPrefixOf_iff_prefix] at closes
      have whole := List.prefix_iff_eq_take.mp closes.2
      simp [rawStringLength, closes.1, ← whole]
    · next unclosed =>
      simp only [Option.map_eq_some_iff] at h
      obtain ⟨k, hk, rfl⟩ := h
      rw [List.take_succ_cons, rawStringLength, ih hk, if_neg]
      · rfl
      · simp only [Bool.and_eq_true, List.isPrefixOf_iff_prefix] at unclosed ⊢
        exact fun closes => unclosed ⟨closes.1, closes.2.trans (List.take_prefix k rest)⟩

theorem stringLength_take (h : stringLength cs = some n) : stringLength (cs.take n) = some n := by
  fun_induction stringLength cs generalizing n with
  | case1 => cases h
  | case2 =>
    cases h
    rfl
  | case3 c rest ih =>
    simp only [Option.map_eq_some_iff] at h
    obtain ⟨k, hk, rfl⟩ := h
    simp [stringLength, ih hk]
  | case4 => cases h
  | case5 c rest noQuote noEscape noEnd ih =>
    simp only [Option.map_eq_some_iff] at h
    obtain ⟨k, hk, rfl⟩ := h
    rw [List.take_succ_cons, stringLength_plain noQuote (ne_backslash noEscape noEnd), ih hk]
    rfl

theorem IsCharEscape.visible {escape : List Char} (h : IsCharEscape escape) : ' ' ∉ escape := by
  have digit : ∀ c, Literal.isHexDigit c = true → ' ' ≠ c := by
    rintro c isDigit rfl
    revert isDigit
    decide
  cases h with
  | @simple c listed =>
    have ne : ' ' ≠ c := by
      rintro rfl
      revert listed
      decide
    simp [ne]
  | hex first second => simp [digit _ first, digit _ second]
  | @braced digits all pos le =>
    have free : ' ' ∉ digits := fun mem => absurd (all ' ' mem) (by decide)
    simp [free]

/-- The characters of an escape are all that it needs, and none of them is a blank. -/
theorem charEscapeLength_take (h : charEscapeLength cs = some n) :
    charEscapeLength (cs.take n) = some n ∧ ' ' ∉ cs.take n := by
  obtain ⟨escape, rest, isEscape, rfl, rfl⟩ := charEscapeLength_eq_some.mp h
  rw [List.take_left]
  have alone := isEscape.length_eq []
  rw [List.append_nil] at alone
  exact ⟨alone, isEscape.visible⟩

theorem charContentLength_take (h : charContentLength cs = some n) :
    charContentLength (cs.take n) = some n ∧ (' ' ∉ cs.take n ∨ cs.take n = [' ']) := by
  cases cs with
  | nil => cases h
  | cons c rest =>
    rw [charContentLength] at h
    split at h
    · next escape =>
      obtain rfl := beq_iff_eq.mp escape
      have escaped := charEscapeLength_take h
      cases n with
      | zero => cases escaped.1
      | succ n =>
        refine ⟨?_, .inl escaped.2⟩
        rw [List.take_succ_cons, charContentLength, if_pos escape, ← List.take_succ_cons, escaped.1]
    · next plain =>
      split at h
      · cases h
      · next free =>
        cases h
        refine ⟨?_, ?_⟩
        · rw [List.take_succ_cons, charContentLength, if_neg plain, if_neg free]
        · by_cases space : c = ' ' <;> simp [space, eq_comm]

/-- The characters of a character literal are all that it needs, and none of them is a blank unless
    the literal is the one of the space. -/
theorem charShape_take (h : charShape cs = some n) :
    charShape (cs.take n) = some n ∧ (' ' ∉ cs.take n ∨ cs.take n = ['\'', ' ', '\'']) := by
  obtain ⟨rest, k, rfl, hk, closes, rfl⟩ := charShape_eq_some.mp h
  have taken : rest.take (k + 1) = rest.take k ++ ['\''] := by
    simp [List.take_add_one, closes]
  have content := charContentLength_take hk
  refine ⟨charShape_eq_some.mpr ⟨rest.take (k + 1), k, rfl, ?_, ?_, rfl⟩, ?_⟩
  · rw [taken]
    exact charContentLength_append content.1 ['\'']
  · rw [List.getElem?_take_of_lt (Nat.lt_succ_self k), closes]
  · rw [List.take_succ_cons, taken]
    rcases content.2 with free | space
    · exact .inl (by simp [free])
    · exact .inr (by simp [space])

-- ---------------------------------------------------------------------------
-- Shapes in front of a comment
-- ---------------------------------------------------------------------------

/-- The shape fits alike in front of `new` and in front of `old`, unless it reaches into `old`. -/
def Kept (shape : Shape) (cs old new : List Char) : Prop :=
  shape (cs ++ new) = shape (cs ++ old) ∨ ∃ n, shape (cs ++ old) = some n ∧ cs.length < n

/-- A shape that needs no more than it takes is kept if it does not come to fit. -/
theorem kept_of_take (exact : ∀ cs n, shape cs = some n → shape (cs.take n) = some n)
    (monotone : shape.Monotone) (fresh : shape (cs ++ old) = none → shape (cs ++ new) = none) :
    Kept shape cs old new := by
  cases taken : shape (cs ++ old) with
  | none => exact .inl (by rw [fresh taken, taken])
  | some n =>
    by_cases inside : n ≤ cs.length
    · have alone := exact _ n taken
      rw [List.take_append_of_le_length inside] at alone
      have fits := monotone _ (cs.drop n ++ new) n alone
      rw [← List.append_assoc, List.take_append_drop] at fits
      exact .inl (by rw [fits, taken])
    · exact .inr ⟨n, taken, by omega⟩

theorem kept_afterByteMark (nonempty : cs ≠ []) (plain : Kept shape cs old new)
    (marked : ∀ rest, cs = 'b' :: rest → Kept shape rest old new) :
    Kept (afterByteMark shape) cs old new := by
  cases cs with
  | nil => exact absurd rfl nonempty
  | cons c rest =>
    unfold Kept at plain ⊢
    by_cases mark : c = 'b'
    · subst mark
      simp only [List.cons_append, afterByteMark, List.length_cons]
      refine (marked rest rfl).imp (congrArg _) ?_
      rintro ⟨n, taken, long⟩
      exact ⟨n + 1, by rw [taken, Option.map_some], by omega⟩
    · simp only [List.cons_append, afterByteMark_cons mark] at plain ⊢
      exact plain

theorem kept_local (h : shape.Local) (stopped : Stopped old) (stopped' : Stopped new) :
    Kept shape cs old new :=
  .inl (by rw [h.stable cs new stopped', h.stable cs old stopped])

theorem Comment.stopped (h : Comment comment after) : Stopped (comment ++ after) := by
  obtain ⟨mark, rest, rfl, -⟩ := h.opens
  intro c mem
  cases mem
  exact List.mem_cons_self

theorem stopped_blank (after : List Char) : Stopped (' ' :: after) :=
  (bounded_cons List.mem_cons_self after).stopped

theorem blockCommentShape_kept (comment after : List Char) :
    Kept blockCommentShape cs (comment ++ after) (' ' :: after) := by
  refine kept_of_take ?_ ?_ ?_
  · intro cs n taken
    obtain ⟨rest, k, rfl, hk, rfl⟩ := blockCommentShape_eq_some taken
    simp [blockCommentShape, blockCommentLength_take hk]
  · intro cs tail n taken
    obtain ⟨rest, k, rfl, hk, rfl⟩ := blockCommentShape_eq_some taken
    simp [blockCommentShape, blockCommentLength_append hk]
  · intro unfit
    refine Option.eq_none_iff_forall_ne_some.mpr fun n taken => ?_
    obtain ⟨rest, k, eq, hk, -⟩ := blockCommentShape_eq_some taken
    have split : cs ++ ' ' :: after = ['/', '*'] ++ rest := eq
    obtain ⟨more, rfl, rfl⟩ := split_of_free split (by decide)
    have closed := blockCommentLength_isSome.mp (Option.isSome_of_eq_some hk)
    have closed' := blockCommentLength_isSome.mpr (infix_of_blank closed (by decide) comment)
    simp [blockCommentShape] at unfit
    simp [unfit] at closed'

theorem rawStringShape_kept (comment after : List Char) :
    Kept rawStringShape cs (comment ++ after) (' ' :: after) := by
  refine kept_of_take ?_ rawStringShape_monotone ?_
  · intro cs n taken
    obtain ⟨fence, content, k, rfl, hashes, hk, rfl⟩ := rawStringShape_eq_some.mp taken
    refine rawStringShape_eq_some.mpr
      ⟨fence, content.take k, k, ?_, hashes, rawStringLength_take hk, rfl⟩
    have behind : k + fence.length + 1 - fence.length = k + 1 := by omega
    simp [← Nat.add_assoc, List.take_append, behind,
      List.take_of_length_le (show fence.length ≤ k + fence.length + 1 by omega)]
  · intro unfit
    refine Option.eq_none_iff_forall_ne_some.mpr fun n taken => ?_
    obtain ⟨fence, content, k, eq, hashes, hk, -⟩ := rawStringShape_eq_some.mp taken
    have visible : ' ' ∉ fence := fun mem => absurd (hashes ' ' mem) (by decide)
    have split : cs ++ ' ' :: after = ('r' :: fence ++ ['"']) ++ content := by simp [eq]
    obtain ⟨more, rfl, rfl⟩ := split_of_free split (by simp [visible])
    have closed := rawStringLength_isSome.mp (Option.isSome_of_eq_some hk)
    have closed' :=
      rawStringLength_isSome.mpr (infix_of_blank closed (by simp [visible]) comment)
    obtain ⟨k', hk'⟩ := Option.isSome_iff_exists.mp closed'
    have fits := rawStringShape_eq_some.mpr ⟨fence, _, k', rfl, hashes, hk', rfl⟩
    simp [fits] at unfit

theorem stringShape_kept (h : Comment comment after) :
    Kept stringShape cs (comment ++ after) (' ' :: after) := by
  refine kept_of_take ?_ stringShape_monotone ?_
  · intro cs n taken
    obtain ⟨rest, k, rfl, hk, rfl⟩ := stringShape_eq_some taken
    simp [stringShape, stringLength_take hk]
  · intro unfit
    refine Option.eq_none_iff_forall_ne_some.mpr fun n taken => ?_
    obtain ⟨rest, k, eq, hk, -⟩ := stringShape_eq_some taken
    have split : cs ++ ' ' :: after = ['"'] ++ rest := eq
    obtain ⟨more, rfl, rfl⟩ := split_of_free split (by decide)
    have closed := stringLength_isSome_of_blank h (Option.isSome_of_eq_some hk)
    simp [stringShape] at unfit
    simp [unfit] at closed

/-- The space makes a character literal only of a quote on its own in front of a quote. -/
theorem charShape_kept (apart : cs = ['\''] → after.head? ≠ some '\'') :
    Kept charShape cs old (' ' :: after) := by
  refine kept_of_take (fun _ _ taken => (charShape_take taken).1) charShape_monotone ?_
  intro unfit
  refine Option.eq_none_iff_forall_ne_some.mpr fun n taken => ?_
  obtain ⟨alone, free | space⟩ := charShape_take taken
  · obtain ⟨more, text⟩ := prefix_of_free (List.take_prefix n _) free
    have fits := charShape_monotone _ (more ++ old) n alone
    rw [← List.append_assoc, text, unfit] at fits
    cases fits
  · have text := List.take_append_drop n (cs ++ ' ' :: after)
    rw [space] at text alone
    generalize (cs ++ ' ' :: after).drop n = behind at text
    match cs with
    | [] => cases text
    | [_] =>
      cases text
      exact apart rfl rfl
    | [_, _] => cases text
    | _ :: _ :: _ :: more =>
      have fits := charShape_monotone _ (more ++ old) n alone
      cases text
      exact nomatch unfit.symm.trans fits

-- ---------------------------------------------------------------------------
-- The first lexeme in front of a comment
-- ---------------------------------------------------------------------------

theorem run_inside {p : Char → Bool} {c : Char} (mem : c ∈ cs) (stops : p c = false)
    (tail : List Char) : run p (cs ++ tail) = run p cs := by
  unfold run
  induction cs with
  | nil => cases mem
  | cons d cs ih =>
    rw [List.cons_append, List.takeWhile_cons, List.takeWhile_cons]
    split
    · next goesOn =>
      have later : c ∈ cs := by
        refine (List.mem_cons.mp mem).resolve_left ?_
        rintro rfl
        simp [stops] at goesOn
      simp [ih later]
    · rfl

theorem lineLength_inside (mem : '\n' ∈ cs) (tail : List Char) :
    lineLength (cs ++ tail) = lineLength cs :=
  run_inside mem (by decide) tail

/-- A line comment goes on to the end of the line, whatever its kind. -/
theorem first?_line {rest : List Char} (first : first? ('/' :: '/' :: rest) = some (kind, n)) :
    n = 2 + lineLength rest := by
  have behind : ∀ c rest', c ≠ '\n' → 3 + lineLength rest' = 2 + lineLength (c :: rest') := by
    intro c rest' ne
    simp only [lineLength, run, List.takeWhile_cons, bne_iff_ne, ne_eq, ne, not_false_eq_true,
      if_true, List.length_cons]
    omega
  have line : ∃ kind, first? ('/' :: '/' :: rest) = some (kind, 2 + lineLength rest) := by
    cases rest with
    | nil => exact ⟨.comment, rfl⟩
    | cons c rest =>
      by_cases slash : c = '/'
      · subst slash
        by_cases more : rest.head? = some '/'
        · refine ⟨.comment, ?_⟩
          simp [first?, shapes, outerDocShape, innerDocShape, lineCommentShape, more]
        · rw [← behind '/' rest (by decide)]
          exact ⟨.outerDoc, by simp [first?, shapes, outerDocShape, more]⟩
      · by_cases bang : c = '!'
        · subst bang
          rw [← behind '!' rest (by decide)]
          exact ⟨.innerDoc, by simp [first?, shapes, outerDocShape, innerDocShape]⟩
        · refine ⟨.comment, ?_⟩
          simp [first?, shapes, outerDocShape, innerDocShape, lineCommentShape, slash, bang]
  obtain ⟨kind', line⟩ := line
  cases first.symm.trans line
  rfl

/-- The text `cs` in front of `after` where a space is put in: not all of it is white space, it ends
    the line of a line comment, and it is no quote in front of a quote. -/
structure Apart (cs after : List Char) : Prop where
  visible : ∃ c ∈ cs, Text.isBlank c = false
  line : ∀ rest, cs ++ ['/'] = '/' :: '/' :: rest → '\n' ∈ rest
  quote : (cs = ['\''] ∨ cs = ['b', '\'']) → after.head? ≠ some '\''

theorem lineShapes_kept (nonempty : cs ≠ [])
    (line : ∀ rest, cs ++ ['/'] = '/' :: '/' :: rest → '\n' ∈ rest) (old new : List Char) :
    outerDocShape (cs ++ new) = outerDocShape (cs ++ old)
      ∧ innerDocShape (cs ++ new) = innerDocShape (cs ++ old)
      ∧ lineCommentShape (cs ++ new) = lineCommentShape (cs ++ old) := by
  by_cases opens : ∃ rest, cs = '/' :: '/' :: rest
  · obtain ⟨rest, rfl⟩ := opens
    have ends : '\n' ∈ rest := by simpa using line (rest ++ ['/']) (by simp)
    cases rest with
    | nil => cases ends
    | cons c rest =>
      simp only [List.cons_append]
      refine ⟨?_, ?_, ?_⟩
      · by_cases slash : c = '/'
        · subst slash
          have ends : '\n' ∈ rest := by simpa using ends
          have head : ∀ tail, (rest ++ tail).head? = rest.head? := by
            intro tail
            cases rest with
            | nil => cases ends
            | cons => rfl
          simp only [outerDocShape, head, lineLength_inside ends]
        · simp [outerDocShape, slash]
      · by_cases bang : c = '!'
        · subst bang
          have ends : '\n' ∈ rest := by simpa using ends
          simp only [innerDocShape, lineLength_inside ends]
        · simp [innerDocShape, bang]
      · have line := lineLength_inside ends
        simp only [List.cons_append] at line
        simp only [lineCommentShape, line]
  · have other : ∀ tail rest, cs ++ tail ≠ '/' :: '/' :: rest := by
      intro tail rest eq
      match cs with
      | [] => exact nonempty rfl
      | [_] =>
        cases eq
        exact nomatch line [] rfl
      | _ :: _ :: more =>
        cases eq
        exact opens ⟨more, rfl⟩
    have before := lineShapes_none (other old)
    have now := lineShapes_none (other new)
    exact ⟨now.1.trans before.1.symm, now.2.1.trans before.2.1.symm, now.2.2.trans before.2.2.symm⟩

theorem findSome?_kept {entries : List (LexemeKind × Shape)}
    (kept : ∀ entry ∈ entries, Kept entry.2 cs old new) (inside : n ≤ cs.length)
    (first : (entries.findSome? fun entry => (entry.2 (cs ++ old)).map fun n => (entry.1, n))
      = some (kind, n)) :
    (entries.findSome? fun entry => (entry.2 (cs ++ new)).map fun n => (entry.1, n))
      = some (kind, n) := by
  induction entries with
  | nil => cases first
  | cons entry entries ih =>
    rw [List.findSome?_cons] at first ⊢
    cases kept entry List.mem_cons_self with
    | inl same =>
      rw [same]
      cases taken : entry.2 (cs ++ old) with
      | none =>
        rw [taken] at first
        exact ih (fun entry mem => kept entry (List.mem_cons_of_mem _ mem)) first
      | some m =>
        rw [taken] at first
        exact first
    | inr reaches =>
      obtain ⟨m, taken, long⟩ := reaches
      rw [taken] at first
      cases first
      exact absurd inside (Nat.not_le_of_lt long)

/-- The lexeme at the start of a text does not change when a space is put in place of a comment
    that it does not reach. -/
theorem first?_kept (h : Comment comment after) (apart : Apart cs after)
    (first : first? (cs ++ (comment ++ after)) = some (kind, n)) (inside : n ≤ cs.length) :
    first? (cs ++ ' ' :: after) = some (kind, n) := by
  refine findSome?_kept ?_ inside first
  obtain ⟨c, mem, visible⟩ := apart.visible
  have nonempty : cs ≠ [] := List.ne_nil_of_mem mem
  have line := lineShapes_kept nonempty apart.line (comment ++ after) (' ' :: after)
  have quoted : ∀ rest, cs = 'b' :: rest → rest = ['\''] → after.head? ≠ some '\'' :=
    fun rest eq eq' => apart.quote (.inr (eq' ▸ eq))
  have symbol : ∀ shape : Shape, (∀ c rest rest', shape (c :: rest) = shape (c :: rest')) →
      Kept shape cs (comment ++ after) (' ' :: after) := by
    intro shape one
    cases cs with
    | nil => exact absurd rfl nonempty
    | cons c cs => exact .inl (one c _ _)
  have charOnly : ∀ char, Kept (charOnlyShape char) cs (comment ++ after) (' ' :: after) :=
    fun char => symbol _ fun _ _ _ => rfl
  have named : ∀ {shape : Shape}, shape.Local → Kept shape cs (comment ++ after) (' ' :: after) :=
    fun isLocal => kept_local isLocal h.stopped (stopped_blank after)
  simp only [shapes, List.forall_mem_cons, List.not_mem_nil, false_implies, implies_true, and_true]
  refine ⟨.inl line.1, .inl line.2.1, .inl line.2.2, blockCommentShape_kept comment after, ?_, ?_,
    ?_, ?_, named lifetimeShape_local, named floatShape_local, named intShape_local,
    named identShape_local, charOnly _, charOnly _, charOnly _, charOnly _, charOnly _, charOnly _,
    symbol _ fun _ _ _ => rfl⟩
  · refine .inl ?_
    simp only [blankShape, run_inside mem visible]
  · exact kept_afterByteMark nonempty (rawStringShape_kept comment after)
      fun rest _ => rawStringShape_kept comment after
  · exact kept_afterByteMark nonempty (stringShape_kept h) fun rest _ => stringShape_kept h
  · exact kept_afterByteMark nonempty (charShape_kept fun eq => apart.quote (.inl eq))
      fun rest eq => charShape_kept (quoted rest eq)

end Lexeme

end AliasExpansion
