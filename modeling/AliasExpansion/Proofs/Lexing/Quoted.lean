-- SUMMARY: Shapes of quoted literals: once they fit, they fit whatever stands behind.
import AliasExpansion.Proofs.Lexing.Shapes

/-!
# Quoted literals

String, raw string and character literals bring their own end, so their shapes do not depend on
what stands behind it.
-/

namespace AliasExpansion.Lexeme

variable {shape : Shape} {cs tail fence : List Char} {n : Nat}

-- ---------------------------------------------------------------------------
-- Byte marks
-- ---------------------------------------------------------------------------

theorem afterByteMark_cons {c : Char} (ne : c ≠ 'b') (rest : List Char) :
    afterByteMark shape (c :: rest) = shape (c :: rest) := by
  rw [afterByteMark.eq_def]
  split
  · next eq => exact absurd (List.cons.inj eq).1 ne
  · rfl

theorem afterByteMark_eq_some (h : afterByteMark shape cs = some n) :
    shape cs = some n ∨ ∃ rest k, cs = 'b' :: rest ∧ shape rest = some k ∧ n = k + 1 := by
  rw [afterByteMark.eq_def] at h
  split at h
  · next rest =>
    obtain ⟨k, hk, eq⟩ := Option.map_eq_some_iff.mp h
    exact .inr ⟨rest, k, rfl, hk, eq.symm⟩
  · exact .inl h

theorem afterByteMark_within (h : shape.Within) : (afterByteMark shape).Within := by
  intro cs n taken
  rcases afterByteMark_eq_some taken with plain | ⟨rest, k, rfl, plain, rfl⟩
  · exact h cs n plain
  · have := h rest k plain
    rw [List.length_cons]
    omega

theorem afterByteMark_positive (h : shape.Positive) : (afterByteMark shape).Positive := by
  intro cs n taken
  rcases afterByteMark_eq_some taken with taken | ⟨rest, k, rfl, -, rfl⟩
  · exact h cs n taken
  · omega

theorem afterByteMark_monotone (nil : shape [] = none) (h : shape.Monotone) :
    (afterByteMark shape).Monotone := by
  intro cs tail n taken
  match cs with
  | [] =>
    rw [afterByteMark, nil] at taken
    · cases taken
    · exact nofun
  | c :: rest =>
    rw [List.cons_append]
    by_cases mark : c = 'b'
    · subst mark
      obtain ⟨k, hk, rfl⟩ := Option.map_eq_some_iff.mp taken
      rw [afterByteMark, h rest tail k hk]
      rfl
    · rw [afterByteMark_cons mark] at taken ⊢
      exact h (c :: rest) tail n taken

-- ---------------------------------------------------------------------------
-- Raw strings
-- ---------------------------------------------------------------------------

theorem rawStringLength_bounds (h : rawStringLength fence cs = some n) :
    fence.length + 1 ≤ n ∧ n ≤ cs.length := by
  induction cs generalizing n with
  | nil => cases h
  | cons c rest ih =>
    rw [rawStringLength] at h
    split at h
    · next closes =>
      cases h
      have := (List.isPrefixOf_iff_prefix.mp (Bool.and_eq_true_iff.mp closes).2).length_le
      rw [List.length_cons]
      omega
    · obtain ⟨k, hk, rfl⟩ := Option.map_eq_some_iff.mp h
      have := ih hk
      rw [List.length_cons]
      omega

theorem rawStringLength_append (h : rawStringLength fence cs = some n) (tail : List Char) :
    rawStringLength fence (cs ++ tail) = some n := by
  induction cs generalizing n with
  | nil => cases h
  | cons c rest ih =>
    rw [rawStringLength] at h
    rw [List.cons_append, rawStringLength]
    split at h
    · next closes =>
      cases h
      obtain ⟨quote, closes⟩ := Bool.and_eq_true_iff.mp closes
      have closes := (List.isPrefixOf_iff_prefix.mp closes).trans (List.prefix_append rest tail)
      rw [if_pos (Bool.and_eq_true_iff.mpr ⟨quote, List.isPrefixOf_iff_prefix.mpr closes⟩)]
    · next unclosed =>
      obtain ⟨k, hk, rfl⟩ := Option.map_eq_some_iff.mp h
      -- the rest holds a fence, so `tail` cannot complete one at its start
      have fits : fence.length ≤ rest.length := by
        have := rawStringLength_bounds hk
        omega
      have still : ¬ (c == '"' && fence.isPrefixOf (rest ++ tail)) = true := by
        intro closes
        obtain ⟨quote, closes⟩ := Bool.and_eq_true_iff.mp closes
        have inside := List.prefix_of_prefix_length_le (List.isPrefixOf_iff_prefix.mp closes)
          (List.prefix_append rest tail) fits
        exact unclosed (Bool.and_eq_true_iff.mpr ⟨quote, List.isPrefixOf_iff_prefix.mpr inside⟩)
      rw [if_neg still, ih hk]
      rfl

/-- A raw string: its mark, a fence, and what a quote and the fence end. -/
theorem rawStringShape_eq_some :
    rawStringShape cs = some n ↔ ∃ fence content k, cs = 'r' :: (fence ++ '"' :: content)
      ∧ (∀ c ∈ fence, (c == '#') = true) ∧ rawStringLength fence content = some k
      ∧ n = k + (fence.length + 2) := by
  constructor
  · intro h
    rw [rawStringShape.eq_def] at h
    split at h
    · next rest =>
      dsimp only at h
      split at h
      · next content opens =>
        obtain ⟨k, hk, rfl⟩ := Option.map_eq_some_iff.mp h
        refine ⟨rest.takeWhile (· == '#'), content, k, ?_, ?_, hk, rfl⟩
        · rw [← opens, List.prefix_iff_eq_append.mp (List.takeWhile_prefix _)]
        · exact fun c mem => List.all_eq_true.mp List.all_takeWhile c mem
      · cases h
    · cases h
  · rintro ⟨fence, content, k, rfl, hashes, hk, rfl⟩
    have taken : (fence ++ '"' :: content).takeWhile (· == '#') = fence := by
      rw [List.takeWhile_append_of_pos hashes, List.takeWhile_cons_of_neg (by decide),
        List.append_nil]
    simp only [rawStringShape, taken, List.drop_left, hk]
    rfl

theorem rawStringShape_within : rawStringShape.Within := by
  intro cs n h
  obtain ⟨fence, content, k, rfl, -, hk, rfl⟩ := rawStringShape_eq_some.mp h
  have := rawStringLength_bounds hk
  simp only [List.length_cons, List.length_append]
  omega

theorem rawStringShape_positive : rawStringShape.Positive := by
  intro cs n h
  obtain ⟨fence, content, k, rfl, -, -, rfl⟩ := rawStringShape_eq_some.mp h
  omega

theorem rawStringShape_monotone : rawStringShape.Monotone := by
  intro cs tail n h
  obtain ⟨fence, content, k, rfl, hashes, hk, rfl⟩ := rawStringShape_eq_some.mp h
  refine rawStringShape_eq_some.mpr
    ⟨fence, content ++ tail, k, ?_, hashes, rawStringLength_append hk tail, rfl⟩
  rw [List.cons_append, List.append_assoc, List.cons_append]

-- ---------------------------------------------------------------------------
-- Strings
-- ---------------------------------------------------------------------------

theorem stringLength_le (h : stringLength cs = some n) : n ≤ cs.length := by
  fun_induction stringLength cs generalizing n with
  | case1 => cases h
  | case2 => cases h; simp
  | case3 c rest ih =>
    obtain ⟨k, hk, rfl⟩ := Option.map_eq_some_iff.mp h
    have := ih hk
    simp only [List.length_cons]
    omega
  | case4 => cases h
  | case5 c rest _ _ _ ih =>
    obtain ⟨k, hk, rfl⟩ := Option.map_eq_some_iff.mp h
    have := ih hk
    rw [List.length_cons]
    omega

theorem stringLength_append (h : stringLength cs = some n) (tail : List Char) :
    stringLength (cs ++ tail) = some n := by
  fun_induction stringLength cs generalizing n with
  | case1 => cases h
  | case2 => exact h
  | case3 c rest ih =>
    obtain ⟨k, hk, rfl⟩ := Option.map_eq_some_iff.mp h
    simp only [List.cons_append, stringLength, ih hk, Option.map_some]
  | case4 => cases h
  | case5 c rest noQuote noEscape noEnd ih =>
    obtain ⟨k, hk, rfl⟩ := Option.map_eq_some_iff.mp h
    have plain : c ≠ '\\' := by
      intro escape
      match rest with
      | [] => exact noEnd escape rfl
      | head :: rest => exact noEscape head rest escape rfl
    rw [List.cons_append, stringLength, ih hk]
    · rfl
    · exact noQuote
    · exact fun _ _ escape _ => plain escape
    · exact fun escape _ => plain escape

theorem stringShape_eq_some (h : stringShape cs = some n) :
    ∃ rest k, cs = '"' :: rest ∧ stringLength rest = some k ∧ n = k + 1 := by
  rw [stringShape.eq_def] at h
  split at h
  · next rest =>
    obtain ⟨k, hk, eq⟩ := Option.map_eq_some_iff.mp h
    exact ⟨rest, k, rfl, hk, eq.symm⟩
  · cases h

theorem stringShape_within : stringShape.Within := by
  intro cs n h
  obtain ⟨rest, k, rfl, hk, rfl⟩ := stringShape_eq_some h
  have := stringLength_le hk
  rw [List.length_cons]
  omega

theorem stringShape_positive : stringShape.Positive := by
  intro cs n h
  obtain ⟨rest, k, rfl, -, rfl⟩ := stringShape_eq_some h
  omega

theorem stringShape_monotone : stringShape.Monotone := by
  intro cs tail n h
  obtain ⟨rest, k, rfl, hk, rfl⟩ := stringShape_eq_some h
  rw [List.cons_append, stringShape, stringLength_append hk]
  rfl

-- ---------------------------------------------------------------------------
-- Characters
-- ---------------------------------------------------------------------------

/-- Digits in braces: at least one, and at most six. -/
theorem bracedDigits?_eq_some {digits : List Char} :
    Literal.bracedDigits? cs = some digits ↔ ∃ rest, cs = '\x7b' :: (digits ++ '\x7d' :: rest)
      ∧ (∀ c ∈ digits, (Literal.isHexDigit c || c == '_') = true)
      ∧ 0 < digits.length ∧ digits.length ≤ 6 := by
  constructor
  · intro h
    rw [Literal.bracedDigits?.eq_def] at h
    split at h
    · next rest =>
      dsimp only at h
      generalize htaken : rest.takeWhile (fun c => Literal.isHexDigit c || c == '_') = taken at h
      split at h
      · next fits =>
        cases h
        simp only [Bool.and_eq_true, decide_eq_true_eq, beq_iff_eq] at fits
        obtain ⟨⟨pos, le⟩, closes⟩ := fits
        obtain ⟨lt, closes⟩ := List.getElem?_eq_some_iff.mp closes
        have front : digits <+: rest := htaken ▸ List.takeWhile_prefix _
        refine ⟨rest.drop (digits.length + 1), ?_, ?_, pos, le⟩
        · rw [← closes, List.getElem_cons_drop, List.prefix_iff_eq_append.mp front]
        · exact fun c mem => List.all_eq_true.mp List.all_takeWhile c (htaken ▸ mem)
      · cases h
    · cases h
  · rintro ⟨rest, rfl, all, pos, le⟩
    have taken : (digits ++ '\x7d' :: rest).takeWhile (fun c => Literal.isHexDigit c || c == '_')
        = digits := by
      rw [List.takeWhile_append_of_pos all, List.takeWhile_cons_of_neg (by decide),
        List.append_nil]
    simp only [Literal.bracedDigits?, taken, List.getElem?_append_right (Nat.le_refl _),
      Nat.sub_self, List.getElem?_cons_zero, beq_self_eq_true, Bool.and_true, decide_eq_true pos,
      decide_eq_true le, if_true]

/-- The escapes of character literals, backslash included. -/
inductive IsCharEscape : List Char → Prop where
  | simple {c} (listed : ['n', 'r', 't', '\\', '0', '\'', '"'].contains c = true) :
      IsCharEscape ['\\', c]
  | hex {a b} (first : Literal.isHexDigit a = true) (second : Literal.isHexDigit b = true) :
      IsCharEscape ['\\', 'x', a, b]
  | braced {digits} (all : ∀ c ∈ digits, (Literal.isHexDigit c || c == '_') = true)
      (pos : 0 < digits.length) (le : digits.length ≤ 6) :
      IsCharEscape ('\\' :: 'u' :: '\x7b' :: (digits ++ ['\x7d']))

theorem IsCharEscape.length_eq {escape : List Char} (h : IsCharEscape escape) (rest : List Char) :
    charEscapeLength (escape ++ rest) = some escape.length := by
  cases h with
  | simple listed => simp only [List.cons_append, charEscapeLength, if_pos listed]; rfl
  | hex first second =>
    simp only [List.cons_append, charEscapeLength, first, second]
    rfl
  | @braced digits all pos le =>
    have read : Literal.bracedDigits? ('\x7b' :: (digits ++ ['\x7d'] ++ rest)) = some digits :=
      bracedDigits?_eq_some.mpr ⟨rest, by simp, all, pos, le⟩
    simp only [List.cons_append, charEscapeLength, read]
    simp

theorem charEscapeLength_eq_some :
    charEscapeLength cs = some n ↔
      ∃ escape rest, IsCharEscape escape ∧ cs = escape ++ rest ∧ n = escape.length := by
  constructor
  · intro h
    rw [charEscapeLength.eq_def] at h
    split at h
    · next c rest =>
      split at h
      · next listed =>
        cases h
        exact ⟨_, rest, .simple listed, rfl, rfl⟩
      split at h
      · next hex =>
        obtain rfl := beq_iff_eq.mp hex
        split at h
        · next a b rest =>
          split at h
          · next digits =>
            cases h
            obtain ⟨first, second⟩ := Bool.and_eq_true_iff.mp digits
            exact ⟨_, rest, .hex first second, rfl, rfl⟩
          · cases h
        · cases h
      split at h
      · next braced =>
        obtain rfl := beq_iff_eq.mp braced
        obtain ⟨digits, hdigits, rfl⟩ := Option.map_eq_some_iff.mp h
        obtain ⟨rest', rfl, all, pos, le⟩ := bracedDigits?_eq_some.mp hdigits
        exact ⟨_, rest', .braced all pos le, by simp, by simp⟩
      · cases h
    · cases h
  · rintro ⟨escape, rest, isEscape, rfl, rfl⟩
    exact isEscape.length_eq rest

theorem charEscapeLength_append (h : charEscapeLength cs = some n) (tail : List Char) :
    charEscapeLength (cs ++ tail) = some n := by
  obtain ⟨escape, rest, isEscape, rfl, rfl⟩ := charEscapeLength_eq_some.mp h
  rw [List.append_assoc, isEscape.length_eq]

theorem charContentLength_append (h : charContentLength cs = some n) (tail : List Char) :
    charContentLength (cs ++ tail) = some n := by
  match cs with
  | [] => cases h
  | c :: rest =>
    rw [charContentLength] at h
    rw [List.cons_append, charContentLength]
    split at h
    · next escape =>
      rw [if_pos escape]
      exact charEscapeLength_append h tail
    · next plain => rw [if_neg plain, h]

/-- A character literal: a quote, the content, and a quote. -/
theorem charShape_eq_some :
    charShape cs = some n ↔ ∃ rest k, cs = '\'' :: rest ∧ charContentLength rest = some k
      ∧ rest[k]? = some '\'' ∧ n = k + 2 := by
  constructor
  · intro h
    rw [charShape.eq_def] at h
    split at h
    · next rest =>
      obtain ⟨k, hk, h⟩ := Option.bind_eq_some_iff.mp h
      split at h
      · next closes =>
        cases h
        exact ⟨rest, k, rfl, hk, beq_iff_eq.mp closes, rfl⟩
      · cases h
    · cases h
  · rintro ⟨rest, k, rfl, hk, closes, rfl⟩
    simp only [charShape, hk, Option.bind_eq_bind, Option.bind_some, closes]
    rfl

theorem charShape_within : charShape.Within := by
  intro cs n h
  obtain ⟨rest, k, rfl, -, closes, rfl⟩ := charShape_eq_some.mp h
  have := (List.getElem?_eq_some_iff.mp closes).1
  rw [List.length_cons]
  omega

theorem charShape_positive : charShape.Positive := by
  intro cs n h
  obtain ⟨rest, k, rfl, -, -, rfl⟩ := charShape_eq_some.mp h
  omega

theorem charShape_monotone : charShape.Monotone := by
  intro cs tail n h
  obtain ⟨rest, k, rfl, hk, closes, rfl⟩ := charShape_eq_some.mp h
  refine charShape_eq_some.mpr ⟨rest ++ tail, k, rfl, charContentLength_append hk tail, ?_, rfl⟩
  have lt := (List.getElem?_eq_some_iff.mp closes).1
  rw [List.getElem?_append_left lt, closes]

end AliasExpansion.Lexeme
