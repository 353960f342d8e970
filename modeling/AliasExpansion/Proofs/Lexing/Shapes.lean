-- SUMMARY: Shapes of lexemes: how much they take, and what stands behind them.
import AliasExpansion.Token.Lexeme
import Mathlib.Data.List.Find

/-!
# Shapes

Every shape takes at least one character, and no more than there are (`Shape.Positive`,
`Shape.Within`). A shape of a name or a number does not look past a blank, a closing delimiter or a
slash (`Shape.Local`). The shape of a quoted literal, once it fits, fits whatever stands behind
(`Shape.Monotone`).
-/

namespace AliasExpansion

namespace Shape

def Within (shape : Shape) : Prop :=
  ∀ cs n, shape cs = some n → n ≤ cs.length

def Positive (shape : Shape) : Prop :=
  ∀ cs n, shape cs = some n → 0 < n

end Shape

namespace Lexeme

theorem none_of_any {p : Char → Bool} {cs : List Char} (h : cs.any p = false) :
    ∀ c ∈ cs, p c = false :=
  fun c mem => Bool.eq_false_iff.mpr (List.any_eq_false.mp h c mem)

theorem apart_of_any {cs ds : List Char} (h : cs.any ds.contains = false) : ∀ c ∈ cs, c ∉ ds :=
  fun c mem inside => List.any_eq_false.mp h c mem (List.contains_iff_mem.mpr inside)

-- ---------------------------------------------------------------------------
-- Boundaries
-- ---------------------------------------------------------------------------

/-- The characters that may stand behind a token that is not glued to the next one. -/
def boundaries : List Char :=
  [' ', ')', ']', '\x7d']

/-- Nothing stands here, or a boundary. -/
def Bounded (tail : List Char) : Prop :=
  ∀ c ∈ tail.head?, c ∈ boundaries

theorem bounded_nil : Bounded [] :=
  fun _ h => nomatch h

theorem bounded_cons {c : Char} (mem : c ∈ boundaries) (cs : List Char) : Bounded (c :: cs) := by
  intro c' h
  cases h
  exact mem

theorem Bounded.cases {tail : List Char} (h : Bounded tail) :
    tail = [] ∨ ∃ c ∈ boundaries, ∃ cs, tail = c :: cs := by
  cases tail with
  | nil => exact .inl rfl
  | cons c cs => exact .inr ⟨c, h c rfl, cs, rfl⟩

theorem ne_of_boundary {c d : Char} (mem : c ∈ boundaries) (free : d ∉ boundaries) : c ≠ d :=
  fun eq => free (eq ▸ mem)

/-- The characters that end a name or a number: the boundaries, and the slash of a comment. -/
def stops : List Char :=
  '/' :: boundaries

/-- Nothing stands here, or a character that ends a name or a number. -/
def Stopped (tail : List Char) : Prop :=
  ∀ c ∈ tail.head?, c ∈ stops

theorem Bounded.stopped {tail : List Char} (h : Bounded tail) : Stopped tail :=
  fun c mem => List.mem_cons_of_mem _ (h c mem)

theorem Stopped.cases {tail : List Char} (h : Stopped tail) :
    tail = [] ∨ ∃ c ∈ stops, ∃ cs, tail = c :: cs := by
  cases tail with
  | nil => exact .inl rfl
  | cons c cs => exact .inr ⟨c, h c rfl, cs, rfl⟩

theorem ne_of_stop {c d : Char} (mem : c ∈ stops) (free : d ∉ stops) : c ≠ d :=
  fun eq => free (eq ▸ mem)

theorem takeWhile_stopped {p : Char → Bool} (apart : ∀ c ∈ stops, p c = false)
    {tail : List Char} (h : Stopped tail) (cs : List Char) :
    (cs ++ tail).takeWhile p = cs.takeWhile p := by
  induction cs with
  | nil =>
    rcases h.cases with rfl | ⟨c, mem, rest, rfl⟩
    · rfl
    · rw [List.nil_append, List.takeWhile_cons, apart c mem]
      rfl
  | cons c cs ih => rw [List.cons_append, List.takeWhile_cons, List.takeWhile_cons, ih]

theorem run_stopped {p : Char → Bool} (apart : ∀ c ∈ stops, p c = false)
    {tail : List Char} (h : Stopped tail) (cs : List Char) :
    run p (cs ++ tail) = run p cs := by
  rw [run, run, takeWhile_stopped apart h]

theorem run_cons_of_pos {p : Char → Bool} {c : Char} (h : p c = true) (cs : List Char) :
    run p (c :: cs) = run p cs + 1 := by
  rw [run, List.takeWhile_cons_of_pos h, List.length_cons, run]

theorem run_cons_of_neg {p : Char → Bool} {c : Char} (h : p c = false) (cs : List Char) :
    run p (c :: cs) = 0 := by
  rw [run, List.takeWhile_cons_of_neg (Bool.eq_false_iff.mp h), List.length_nil]

theorem run_le (p : Char → Bool) (cs : List Char) : run p cs ≤ cs.length :=
  (List.takeWhile_sublist p).length_le

theorem stop_isNameStart : ∀ c ∈ stops, Text.isNameStart c = false :=
  none_of_any (by decide)

theorem stop_isWordChar : ∀ c ∈ stops, Text.isWordChar c = false :=
  none_of_any (by decide)

theorem stop_isDecimal : ∀ c ∈ stops, Text.isDecimal c = false :=
  none_of_any (by decide)

theorem stop_isDigitOrUnderscore : ∀ c ∈ stops, isDigitOrUnderscore c = false :=
  none_of_any (by decide)

end Lexeme

namespace Shape

/-- The shape takes no more than there is, and does not look past a stop. -/
structure Local (shape : Shape) : Prop where
  within : shape.Within
  stable : ∀ cs tail, Lexeme.Stopped tail → shape (cs ++ tail) = shape cs

/-- Once the shape fits, it fits whatever stands behind. -/
def Monotone (shape : Shape) : Prop :=
  ∀ cs tail n, shape cs = some n → shape (cs ++ tail) = some n

/-- A shape that looks at the first character before anything else. -/
theorem Local.of_cons {shape : Shape} (within : shape.Within)
    (nil : shape [] = none) (stop : ∀ c ∈ Lexeme.stops, ∀ rest, shape (c :: rest) = none)
    (cons : ∀ c rest tail, Lexeme.Stopped tail → shape (c :: (rest ++ tail)) = shape (c :: rest)) :
    shape.Local := by
  refine ⟨within, fun cs tail stopped => ?_⟩
  match cs with
  | [] =>
    rcases stopped.cases with rfl | ⟨c, mem, rest, rfl⟩
    · rfl
    · rw [List.nil_append, stop c mem, nil]
  | c :: rest => exact cons c rest tail stopped

end Shape

namespace Lexeme

variable {first second shape : Shape} {cs : List Char} {n : Nat}

-- ---------------------------------------------------------------------------
-- Shapes made of shapes
-- ---------------------------------------------------------------------------

theorem andThen_eq_some (h : andThen first second cs = some n) :
    ∃ m k, first cs = some m ∧ second (cs.drop m) = some k ∧ n = m + k := by
  obtain ⟨m, hm, h⟩ := Option.bind_eq_some_iff.mp h
  obtain ⟨k, hk, h⟩ := Option.bind_eq_some_iff.mp h
  cases h
  exact ⟨m, k, hm, hk, rfl⟩

theorem andThen_local (hfirst : first.Local) (hsecond : second.Local) :
    (andThen first second).Local := by
  constructor
  · intro cs n h
    obtain ⟨m, k, hm, hk, rfl⟩ := andThen_eq_some h
    have le := hfirst.within cs m hm
    have le' := hsecond.within _ k hk
    rw [List.length_drop] at le'
    omega
  · intro cs tail stopped
    rw [andThen, andThen, hfirst.stable cs tail stopped]
    cases hm : first cs with
    | none => rfl
    | some m =>
      simp only [Option.bind_eq_bind, Option.bind_some]
      rw [List.drop_append_of_le_length (hfirst.within cs m hm), hsecond.stable _ tail stopped]

theorem optionally_local (h : shape.Local) : (optionally shape).Local := by
  constructor
  · intro cs n eq
    cases eq
    cases taken : shape cs with
    | none => exact Nat.zero_le _
    | some m => exact h.within cs m taken
  · intro cs tail stopped
    rw [optionally, optionally, h.stable cs tail stopped]

theorem firstOf_eq_some {shapes : List Shape} (h : firstOf shapes cs = some n) :
    ∃ shape ∈ shapes, shape cs = some n :=
  List.exists_of_findSome?_eq_some h

theorem firstOf_local {shapes : List Shape} (h : ∀ shape ∈ shapes, shape.Local) :
    (firstOf shapes).Local := by
  constructor
  · intro cs n eq
    obtain ⟨shape, mem, taken⟩ := firstOf_eq_some eq
    exact (h shape mem).within cs n taken
  · intro cs tail stopped
    induction shapes with
    | nil => rfl
    | cons shape shapes ih =>
      rw [firstOf, firstOf, List.findSome?_cons, List.findSome?_cons,
        (h shape List.mem_cons_self).stable cs tail stopped]
      have later := ih fun shape mem => h shape (List.mem_cons_of_mem _ mem)
      rw [firstOf, firstOf] at later
      rw [later]

-- ---------------------------------------------------------------------------
-- Comments, blanks and single characters
-- ---------------------------------------------------------------------------

theorem lineLength_le (cs : List Char) : lineLength cs ≤ cs.length :=
  run_le _ cs

theorem outerDocShape_eq_some (h : outerDocShape cs = some n) :
    ∃ rest, cs = '/' :: '/' :: '/' :: rest ∧ n = 3 + lineLength rest := by
  rw [outerDocShape.eq_def] at h
  split at h
  · next rest =>
    split at h <;> cases h
    exact ⟨rest, rfl, rfl⟩
  · cases h

theorem innerDocShape_eq_some (h : innerDocShape cs = some n) :
    ∃ rest, cs = '/' :: '/' :: '!' :: rest ∧ n = 3 + lineLength rest := by
  rw [innerDocShape.eq_def] at h
  split at h <;> cases h
  exact ⟨_, rfl, rfl⟩

theorem lineCommentShape_eq_some (h : lineCommentShape cs = some n) :
    ∃ rest, cs = '/' :: '/' :: rest ∧ n = 2 + lineLength rest := by
  rw [lineCommentShape.eq_def] at h
  split at h <;> cases h
  exact ⟨_, rfl, rfl⟩

theorem blockCommentShape_eq_some (h : blockCommentShape cs = some n) :
    ∃ rest k, cs = '/' :: '*' :: rest ∧ blockCommentLength rest = some k ∧ n = k + 2 := by
  rw [blockCommentShape.eq_def] at h
  split at h
  · next rest =>
    obtain ⟨k, hk, eq⟩ := Option.map_eq_some_iff.mp h
    exact ⟨rest, k, rfl, hk, eq.symm⟩
  · cases h

/-- What goes on to the end of the line starts with two slashes. -/
theorem lineShapes_none (other : ∀ rest, cs ≠ '/' :: '/' :: rest) :
    outerDocShape cs = none ∧ innerDocShape cs = none ∧ lineCommentShape cs = none := by
  refine ⟨?_, ?_, ?_⟩ <;> refine Option.eq_none_iff_forall_ne_some.mpr fun n taken => ?_
  · obtain ⟨rest, eq, -⟩ := outerDocShape_eq_some taken
    exact other _ eq
  · obtain ⟨rest, eq, -⟩ := innerDocShape_eq_some taken
    exact other _ eq
  · obtain ⟨rest, eq, -⟩ := lineCommentShape_eq_some taken
    exact other _ eq

/-- Blanks are taken as far as they go, and there is one at least. -/
theorem blankShape_eq_some (h : blankShape cs = some n) : n = run Text.isBlank cs ∧ 0 < n := by
  rw [blankShape] at h
  split at h
  · cases h
  · next nonzero =>
    cases h
    exact ⟨rfl, Nat.pos_of_ne_zero nonzero⟩

theorem blankShape_cons (c : Char) (rest : List Char) :
    blankShape (c :: rest)
      = if Text.isBlank c = true then some (1 + run Text.isBlank rest) else none := by
  rw [blankShape]
  cases blank : Text.isBlank c with
  | true =>
    rw [run_cons_of_pos blank, if_pos rfl, Nat.add_comm 1]
    rfl
  | false =>
    rw [run_cons_of_neg blank, if_neg Bool.false_ne_true]
    rfl

theorem charOnlyShape_eq_some {char : Char} (h : charOnlyShape char cs = some n) :
    ∃ rest, cs = char :: rest ∧ n = 1 := by
  rw [charOnlyShape.eq_def] at h
  split at h
  · next c rest =>
    split at h
    · next same =>
      cases h
      exact ⟨rest, by rw [beq_iff_eq.mp same], rfl⟩
    · cases h
  · cases h

theorem punctShape_eq_some (h : punctShape cs = some n) :
    ∃ c ∈ punctChars, ∃ rest, cs = c :: rest ∧ n = 1 := by
  rw [punctShape.eq_def] at h
  split at h
  · next c rest =>
    split at h
    · next listed =>
      cases h
      exact ⟨c, List.contains_iff_mem.mp listed, rest, rfl, rfl⟩
    · cases h
  · cases h

-- ---------------------------------------------------------------------------
-- Names
-- ---------------------------------------------------------------------------

/-- A name: a character that starts names, and the word characters behind it. -/
theorem nameShape_eq_some :
    nameShape cs = some n ↔ ∃ c rest, cs = c :: rest ∧ Text.isNameStart c = true
      ∧ n = 1 + run Text.isWordChar rest := by
  match cs with
  | [] => exact ⟨nofun, nofun⟩
  | c :: rest =>
    rw [nameShape]
    constructor
    · intro h
      split at h
      · next start =>
        cases h
        exact ⟨c, rest, rfl, start, rfl⟩
      · cases h
    · rintro ⟨c', rest', eq, start, rfl⟩
      cases eq
      rw [if_pos start]

theorem nameShape_local : nameShape.Local := by
  refine .of_cons ?_ rfl ?_ ?_
  · intro cs n h
    obtain ⟨c, rest, rfl, -, rfl⟩ := nameShape_eq_some.mp h
    have := run_le Text.isWordChar rest
    rw [List.length_cons]
    omega
  · intro c mem rest
    rw [nameShape, stop_isNameStart c mem]
    rfl
  · intro c rest tail stopped
    rw [nameShape, nameShape, run_stopped stop_isWordChar stopped]

/-- An identifier is a name, or a name behind the mark of a raw identifier. -/
theorem identShape_eq_some (h : identShape cs = some n) :
    nameShape cs = some n ∨
      ∃ rest k, cs = 'r' :: '#' :: rest ∧ nameShape rest = some k ∧ n = k + 2 := by
  rw [identShape.eq_def] at h
  split at h
  · next rest =>
    split at h
    · next k hk =>
      cases h
      exact .inr ⟨rest, k, rfl, hk, rfl⟩
    · exact .inl h
  · exact .inl h

theorem identShape_plain (plain : ∀ rest, cs ≠ 'r' :: '#' :: rest) :
    identShape cs = nameShape cs := by
  rw [identShape.eq_def]
  split
  · next rest => exact absurd rfl (plain rest)
  · rfl

theorem identShape_local : identShape.Local := by
  constructor
  · intro cs n h
    rcases identShape_eq_some h with h | ⟨rest, k, rfl, h', rfl⟩
    · exact nameShape_local.within cs n h
    · have := nameShape_local.within rest k h'
      simp only [List.length_cons]
      omega
  · intro cs tail stopped
    by_cases raw : ∃ rest, cs = 'r' :: '#' :: rest
    · obtain ⟨rest, rfl⟩ := raw
      have whole := nameShape_local.stable ('r' :: '#' :: rest) tail stopped
      simp only [List.cons_append] at whole
      simp only [List.cons_append, identShape, nameShape_local.stable rest tail stopped, whole]
    · have plain : ∀ rest, cs ≠ 'r' :: '#' :: rest := fun rest h => raw ⟨rest, h⟩
      have plain' : ∀ rest, cs ++ tail ≠ 'r' :: '#' :: rest := by
        intro rest h
        match cs with
        | [] | [_] =>
          rcases stopped.cases with rfl | ⟨c, mem, rest', rfl⟩
          · cases h
          · cases h
            exact ne_of_stop mem (by decide) rfl
        | c :: c' :: rest' =>
          cases h
          exact plain rest' rfl
      rw [identShape_plain plain, identShape_plain plain', nameShape_local.stable cs tail stopped]

theorem lifetimeShape_eq_some (h : lifetimeShape cs = some n) :
    ∃ rest k, cs = '\'' :: rest ∧ identShape rest = some k ∧ n = k + 1 := by
  rw [lifetimeShape.eq_def] at h
  split at h
  · next rest =>
    obtain ⟨k, hk, eq⟩ := Option.map_eq_some_iff.mp h
    exact ⟨rest, k, rfl, hk, eq.symm⟩
  · cases h

theorem lifetimeShape_none {c : Char} (ne : c ≠ '\'') (rest : List Char) :
    lifetimeShape (c :: rest) = none := by
  rw [lifetimeShape.eq_def]
  split
  · next eq => exact absurd (List.cons.inj eq).1 ne
  · rfl

theorem lifetimeShape_local : lifetimeShape.Local := by
  refine .of_cons ?_ rfl ?_ ?_
  · intro cs n h
    obtain ⟨rest, k, rfl, hk, rfl⟩ := lifetimeShape_eq_some h
    have := identShape_local.within rest k hk
    rw [List.length_cons]
    omega
  · intro c mem rest
    exact lifetimeShape_none (ne_of_stop mem (by decide)) rest
  · intro c rest tail stopped
    by_cases quote : c = '\''
    · subst quote
      rw [lifetimeShape, lifetimeShape, identShape_local.stable rest tail stopped]
    · rw [lifetimeShape_none quote, lifetimeShape_none quote]

-- ---------------------------------------------------------------------------
-- Numbers
-- ---------------------------------------------------------------------------

theorem decimalShape_eq_some :
    decimalShape cs = some n ↔ ∃ c rest, cs = c :: rest ∧ Text.isDecimal c = true
      ∧ n = 1 + run isDigitOrUnderscore rest := by
  match cs with
  | [] => exact ⟨nofun, nofun⟩
  | c :: rest =>
    rw [decimalShape]
    constructor
    · intro h
      split at h
      · next digit =>
        cases h
        exact ⟨c, rest, rfl, digit, rfl⟩
      · cases h
    · rintro ⟨c', rest', eq, digit, rfl⟩
      cases eq
      rw [if_pos digit]

theorem decimalShape_local : decimalShape.Local := by
  refine .of_cons ?_ rfl ?_ ?_
  · intro cs n h
    obtain ⟨c, rest, rfl, -, rfl⟩ := decimalShape_eq_some.mp h
    have := run_le isDigitOrUnderscore rest
    rw [List.length_cons]
    omega
  · intro c mem rest
    rw [decimalShape, stop_isDecimal c mem]
    rfl
  · intro c rest tail stopped
    rw [decimalShape, decimalShape, run_stopped stop_isDigitOrUnderscore stopped]

theorem fractionShape_local : fractionShape.Local := by
  have other : ∀ c, c ≠ '.' → ∀ rest, fractionShape (c :: rest) = none := by
    intro c ne rest
    rw [fractionShape.eq_def]
    split
    · next eq => exact absurd (List.cons.inj eq).1 ne
    · rfl
  refine .of_cons ?_ rfl ?_ ?_
  · intro cs n h
    rw [fractionShape.eq_def] at h
    split at h
    · next rest =>
      obtain ⟨k, hk, rfl⟩ := Option.map_eq_some_iff.mp h
      have := decimalShape_local.within rest k hk
      rw [List.length_cons]
      omega
    · cases h
  · intro c mem rest
    exact other c (ne_of_stop mem (by decide)) rest
  · intro c rest tail stopped
    by_cases point : c = '.'
    · subst point
      rw [fractionShape, fractionShape, decimalShape_local.stable rest tail stopped]
    · rw [other c point, other c point]

/-- The number of characters of an optional sign. -/
def signLength (cs : List Char) : Nat :=
  if cs.head? == some '+' || cs.head? == some '-' then 1 else 0

theorem signLength_le (cs : List Char) : signLength cs ≤ cs.length := by
  cases cs with
  | nil => exact Nat.le_refl _
  | cons => rw [signLength]; split <;> simp

theorem signLength_stopped {tail : List Char} (h : Stopped tail) (cs : List Char) :
    signLength (cs ++ tail) = signLength cs := by
  cases cs with
  | cons => rfl
  | nil =>
    rcases h.cases with rfl | ⟨c, mem, rest, rfl⟩
    · rfl
    · simp only [stops, boundaries, List.mem_cons, List.not_mem_nil, or_false] at mem
      rcases mem with rfl | rfl | rfl | rfl | rfl <;> rfl

theorem exponentShape_cons (mark : Char) (rest : List Char) :
    exponentShape (mark :: rest) =
      if mark == 'e' || mark == 'E' then
        let digits := (rest.drop (signLength rest)).takeWhile isDigitOrUnderscore
        if digits.any Text.isDecimal then some (1 + signLength rest + digits.length) else none
      else none :=
  rfl

theorem exponentShape_local : exponentShape.Local := by
  refine .of_cons ?_ rfl ?_ ?_
  · intro cs n h
    match cs with
    | [] => cases h
    | mark :: rest =>
      have taken := run_le isDigitOrUnderscore (rest.drop (signLength rest))
      have le := signLength_le rest
      rw [run, List.length_drop] at taken
      rw [exponentShape_cons] at h
      split at h
      · dsimp only at h
        split at h
        · cases h
          rw [List.length_cons]
          omega
        · cases h
      · cases h
  · intro c mem rest
    have mark : (c == 'e' || c == 'E') = false :=
      none_of_any (p := fun c => c == 'e' || c == 'E') (by decide) c mem
    rw [exponentShape_cons, mark]
    rfl
  · intro c rest tail stopped
    rw [exponentShape_cons, exponentShape_cons, signLength_stopped stopped,
      List.drop_append_of_le_length (signLength_le rest),
      takeWhile_stopped stop_isDigitOrUnderscore stopped]

/-- A literal text at the start of `cs`, as a pattern that no stop completes. -/
theorem isPrefixOf_stopped {word tail : List Char} (free : ∀ c ∈ stops, c ∉ word)
    (h : Stopped tail) (cs : List Char) : word.isPrefixOf (cs ++ tail) = word.isPrefixOf cs := by
  induction word generalizing cs with
  | nil => rfl
  | cons w word ih =>
    match cs with
    | [] =>
      rcases h.cases with rfl | ⟨c, mem, rest, rfl⟩
      · rfl
      · have ne : (w == c) = false := by
          refine beq_eq_false_iff_ne.mpr ?_
          rintro rfl
          exact free w mem List.mem_cons_self
        simp only [List.nil_append, List.isPrefixOf, ne, Bool.false_and]
    | c :: rest =>
      have later := ih (fun c mem inside => free c mem (List.mem_cons_of_mem _ inside)) rest
      rw [List.cons_append, List.isPrefixOf, List.isPrefixOf, later]

theorem floatSuffixShape_eq (cs : List Char) :
    floatSuffixShape cs
      = if ['f', '3', '2'].isPrefixOf cs || ['f', '6', '4'].isPrefixOf cs then some 3 else none := by
  rw [floatSuffixShape.eq_def]
  split
  · simp [List.isPrefixOf]
  · simp [List.isPrefixOf]
  · next plain plain' =>
    symm
    refine if_neg fun h => ?_
    rcases Bool.or_eq_true_iff.mp h with h | h
    · obtain ⟨rest, rfl⟩ := List.isPrefixOf_iff_prefix.mp h
      exact plain _ rfl
    · obtain ⟨rest, rfl⟩ := List.isPrefixOf_iff_prefix.mp h
      exact plain' _ rfl

theorem floatSuffixShape_local : floatSuffixShape.Local := by
  constructor
  · intro cs n h
    rw [floatSuffixShape.eq_def] at h
    split at h <;> cases h <;> simp only [List.length_cons] <;> omega
  · intro cs tail stopped
    rw [floatSuffixShape_eq, floatSuffixShape_eq, isPrefixOf_stopped (apart_of_any (by decide)) stopped,
      isPrefixOf_stopped (apart_of_any (by decide)) stopped]

theorem trailingPointShape_local : trailingPointShape.Local := by
  have other : ∀ c, c ≠ '.' → ∀ rest, trailingPointShape (c :: rest) = none := by
    intro c ne rest
    rw [trailingPointShape.eq_def]
    split
    · next eq => exact absurd (List.cons.inj eq).1 ne
    · rfl
  refine .of_cons ?_ rfl ?_ ?_
  · intro cs n h
    rw [trailingPointShape.eq_def] at h
    split at h
    · split at h
      · cases h
      · cases h
        simp
    · cases h
  · intro c mem rest
    exact other c (ne_of_stop mem (by decide)) rest
  · intro c rest tail stopped
    by_cases point : c = '.'
    · subst point
      match rest with
      | _ :: _ => rfl
      | [] =>
        rcases stopped.cases with rfl | ⟨c, mem, rest', rfl⟩
        · rfl
        · have stops : (c == '.' || Text.isWordChar c) = false := by
            rw [stop_isWordChar c mem, Bool.or_false]
            exact beq_eq_false_iff_ne.mpr (ne_of_stop mem (by decide))
          rw [List.nil_append, trailingPointShape, trailingPointShape, List.head?_cons,
            Option.any_some, stops]
          rfl
    · rw [other c point, other c point]

section

variable {mark : Char} {isDigit : Char → Bool}

theorem prefixedShape_cons (zero c : Char) (rest : List Char) :
    prefixedShape mark isDigit (zero :: c :: rest) =
      if zero = '0' ∧ c = mark ∧ run (fun d => d == '_' || isDigit d) rest ≠ 0 then
        some (run (fun d => d == '_' || isDigit d) rest + 2)
      else none := by
  by_cases hzero : zero = '0'
  · subst hzero
    rw [prefixedShape]
    by_cases hmark : c = mark
    · rw [if_pos (beq_iff_eq.mpr hmark)]
      cases run (fun d => d == '_' || isDigit d) rest with
      | zero => simp
      | succ n => simp [hmark]
    · rw [if_neg fun h => hmark (beq_iff_eq.mp h), if_neg fun h => hmark h.2.1]
  · rw [prefixedShape.eq_def, if_neg fun h => hzero h.1]
    split
    · next eq => exact absurd (List.cons.inj eq).1 hzero
    · rfl

theorem prefixedShape_short (c : Char) : prefixedShape mark isDigit [c] = none := by
  rw [prefixedShape.eq_def]
  split
  · next eq => exact nomatch (List.cons.inj eq).2
  · rfl

theorem prefixedShape_eq_some (h : prefixedShape mark isDigit cs = some n) :
    ∃ rest, cs = '0' :: mark :: rest ∧ n = run (fun d => d == '_' || isDigit d) rest + 2 := by
  match cs with
  | [] => cases h
  | [c] => rw [prefixedShape_short] at h; cases h
  | zero :: c :: rest =>
    rw [prefixedShape_cons] at h
    split at h
    · next fits =>
      cases h
      exact ⟨rest, by rw [fits.1, fits.2.1], rfl⟩
    · cases h

theorem prefixedShape_local (free : mark ∉ stops)
    (apart : ∀ c ∈ stops, (c == '_' || isDigit c) = false) :
    (prefixedShape mark isDigit).Local := by
  refine .of_cons ?_ rfl ?_ ?_
  · intro cs n h
    obtain ⟨rest, rfl, rfl⟩ := prefixedShape_eq_some h
    have := run_le (fun d => d == '_' || isDigit d) rest
    simp only [List.length_cons]
    omega
  · intro c mem rest
    match rest with
    | [] => exact prefixedShape_short c
    | c' :: rest =>
      rw [prefixedShape_cons, if_neg fun h => ne_of_stop mem (by decide) h.1]
  · intro zero rest tail stopped
    match rest with
    | [] =>
      rw [prefixedShape_short]
      rcases stopped.cases with rfl | ⟨c, mem, rest, rfl⟩
      · exact prefixedShape_short zero
      · rw [List.nil_append, prefixedShape_cons, if_neg fun h => ne_of_stop mem free h.2.1]
    | c :: rest =>
      rw [List.cons_append, prefixedShape_cons, prefixedShape_cons, run_stopped apart stopped]

end

theorem widths_free : ∀ width ∈ Literal.widths, ∀ c ∈ stops, c ∉ width := by
  intro width mem
  refine apart_of_any (Bool.eq_false_iff.mpr fun shared => ?_)
  have free : (Literal.widths.any fun width => stops.any width.contains) = false := by decide
  exact List.any_eq_false.mp free width mem shared

theorem suffixLength_local : Shape.Local fun cs => some (Literal.suffixLength cs) := by
  constructor
  · intro cs n h
    cases h
    match cs with
    | [] => exact Nat.zero_le _
    | sign :: rest =>
      rw [Literal.suffixLength]
      split
      · split
        · next width found =>
          have taken := List.find?_some found
          have := (List.isPrefixOf_iff_prefix.mp taken).length_le
          rw [List.length_cons]
          omega
        · exact Nat.zero_le _
      · exact Nat.zero_le _
  · intro cs tail stopped
    have widths : ∀ cs, Literal.widths.find? (·.isPrefixOf (cs ++ tail))
        = Literal.widths.find? (·.isPrefixOf cs) := by
      intro cs
      refine List.find?_congr fun width mem => isPrefixOf_stopped ?_ stopped cs
      exact fun c inside => widths_free width mem c inside
    match cs with
    | [] =>
      rcases stopped.cases with rfl | ⟨c, mem, rest, rfl⟩
      · rfl
      · simp only [List.nil_append, Literal.suffixLength]
        have sign : (c == 'i' || c == 'u') = false :=
          Bool.or_eq_false_iff.mpr ⟨beq_eq_false_iff_ne.mpr (ne_of_stop mem (by decide)),
            beq_eq_false_iff_ne.mpr (ne_of_stop mem (by decide))⟩
        rw [sign]
        rfl
    | sign :: rest =>
      simp only [List.cons_append, Literal.suffixLength]
      rw [widths]

theorem floatShape_local : floatShape.Local := by
  refine firstOf_local ?_
  simp only [List.forall_mem_cons, List.not_mem_nil, false_implies, implies_true, and_true]
  have suffix := optionally_local floatSuffixShape_local
  refine ⟨?_, ?_, ?_, ?_⟩
  · exact andThen_local decimalShape_local (andThen_local (optionally_local fractionShape_local)
      (andThen_local exponentShape_local suffix))
  · exact andThen_local decimalShape_local (andThen_local fractionShape_local suffix)
  · exact andThen_local decimalShape_local floatSuffixShape_local
  · exact andThen_local decimalShape_local trailingPointShape_local

theorem intShape_local : intShape.Local := by
  refine andThen_local (firstOf_local ?_) suffixLength_local
  simp only [List.forall_mem_cons, List.not_mem_nil, false_implies, implies_true, and_true]
  refine ⟨?_, ?_, ?_, decimalShape_local⟩
  · exact prefixedShape_local (by decide) (none_of_any (by decide))
  · exact prefixedShape_local (by decide) (none_of_any (by decide))
  · exact prefixedShape_local (by decide) (none_of_any (by decide))

end Lexeme

end AliasExpansion
