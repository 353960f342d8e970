-- SUMMARY: Lowercase forms of characters: lowercase or as before, and word characters still.
import AliasExpansion.Text.Case
import AliasExpansion.Text.Word

/-!
# Lowercase forms of characters

The case tables are compared stride by stride: one stride may cover another, or have no member in
common with it, and a run of characters in a shift has its lowercase forms in a stride again. From
this, the lowercase form of a character is the character itself or a lowercase one
(`lowered_eq_or_isLowercase`), lowercase characters are their own form (`lowered_of_isLowercase`),
and the form of an alphanumeric character is alphanumeric (`isAlphanumeric_lowered`).
-/

namespace AliasExpansion

-- ---------------------------------------------------------------------------
-- Strides
-- ---------------------------------------------------------------------------

namespace CharStride

variable {s t : CharStride} {c : Char} {n : Nat}

/-- The code point is in the stride. -/
def Has (s : CharStride) (n : Nat) : Prop :=
  s.first ≤ n ∧ n ≤ s.last ∧ s.step ∣ n - s.first

theorem contains_iff : s.contains c = true ↔ s.Has c.toNat := by
  simp only [contains, Bool.and_eq_true, decide_eq_true_eq, beq_iff_eq, Has,
    Nat.dvd_iff_mod_eq_zero, and_assoc]

/-- Every member of `t` is one of `s`. As below, the test is in the operations on numbers that
    evaluation is fast at, because whole tables are put to it. -/
def covers (s t : CharStride) : Bool :=
  s.first.ble t.first && t.last.ble s.last && ((t.first - s.first) % s.step).beq 0
    && (t.first.beq t.last || (t.step % s.step).beq 0)

theorem Has.of_covers (h : t.Has n) (covers : s.covers t = true) : s.Has n := by
  simp only [CharStride.covers, Bool.and_eq_true, Bool.or_eq_true, Nat.ble_eq, Nat.beq_eq] at covers
  obtain ⟨⟨⟨first, last⟩, aligned⟩, single⟩ := covers
  obtain ⟨ge, le, member⟩ := h
  refine ⟨Nat.le_trans first ge, Nat.le_trans le last, ?_⟩
  have start : s.step ∣ t.first - s.first := Nat.dvd_of_mod_eq_zero aligned
  obtain single | multiple := single
  · obtain rfl : n = t.first := by omega
    exact start
  · have behind : s.step ∣ n - t.first := Nat.dvd_trans (Nat.dvd_of_mod_eq_zero multiple) member
    have split : n - s.first = n - t.first + (t.first - s.first) := by omega
    rw [split]
    exact Nat.dvd_add behind start

/-- All members are even, or all are odd. -/
def isSparse (s : CharStride) : Bool :=
  (s.step % 2).beq 0 || s.first.beq s.last

theorem Has.parity (h : s.Has n) (sparse : s.isSparse = true) : n % 2 = s.first % 2 := by
  obtain ⟨ge, le, member⟩ := h
  simp only [isSparse, Bool.or_eq_true, Nat.beq_eq] at sparse
  obtain even | single := sparse
  · have even : 2 ∣ n - s.first := Nat.dvd_trans (Nat.dvd_of_mod_eq_zero even) member
    omega
  · omega

/-- The strides have no member in common: one ends before the other starts, or they alternate. -/
def apart (s t : CharStride) : Bool :=
  s.last.blt t.first || t.last.blt s.first
    || (s.isSparse && t.isSparse && ((s.first + t.first) % 2).beq 1)

theorem Has.not_of_apart (h : s.Has n) (apart : s.apart t = true) : ¬ t.Has n := by
  intro h'
  simp only [CharStride.apart, Bool.and_eq_true, Bool.or_eq_true, Nat.blt_eq, Nat.beq_eq] at apart
  obtain (before | behind) | ⟨⟨sparse, sparse'⟩, odd⟩ := apart
  · exact absurd (Nat.le_trans h'.1 h.2.1) (Nat.not_le.mpr before)
  · exact absurd (Nat.le_trans h.1 h'.2.1) (Nat.not_le.mpr behind)
  · have := h.parity sparse
    have := h'.parity sparse'
    omega

end CharStride

-- ---------------------------------------------------------------------------
-- Ranges
-- ---------------------------------------------------------------------------

namespace CharRanges

variable {ranges : CharRanges} {s : CharStride} {c : Char}

theorem contains_iff :
    ranges.contains c = true ↔ ∃ range ∈ ranges, range.1 ≤ c.toNat ∧ c.toNat ≤ range.2 := by
  simp [CharRanges.contains]

/-- Of a character below `n`, ranges that start there say nothing. -/
theorem contains_take {k n : Nat} (behind : ∀ range ∈ ranges.drop k, n ≤ range.1)
    (lt : c.toNat < n) : ranges.contains c = CharRanges.contains (ranges.take k) c := by
  rw [Bool.eq_iff_iff, contains_iff, contains_iff]
  constructor
  · rintro ⟨range, mem, ge, le⟩
    rw [← List.take_append_drop k ranges, List.mem_append] at mem
    obtain low | high := mem
    · exact ⟨range, low, ge, le⟩
    · have := behind range high
      omega
  · rintro ⟨range, mem, inside⟩
    exact ⟨range, List.mem_of_mem_take mem, inside⟩

/-- One of the ranges is around the whole stride. -/
def around (ranges : CharRanges) (s : CharStride) : Bool :=
  ranges.any fun range => range.1.ble s.first && s.last.ble range.2

theorem contains_of_around (h : s.Has c.toNat) (around : ranges.around s = true) :
    ranges.contains c = true := by
  obtain ⟨range, mem, inside⟩ := List.any_eq_true.mp around
  rw [Bool.and_eq_true, Nat.ble_eq, Nat.ble_eq] at inside
  exact contains_iff.mpr
    ⟨range, mem, Nat.le_trans inside.1 h.1, Nat.le_trans h.2.1 inside.2⟩

/-- The stride lies between the ranges. -/
def outside (ranges : CharRanges) (s : CharStride) : Bool :=
  ranges.all fun range => range.2.blt s.first || s.last.blt range.1

theorem not_contains_of_outside (h : s.Has c.toNat) (outside : ranges.outside s = true) :
    ranges.contains c = false := by
  refine Bool.eq_false_iff.mpr fun contained => ?_
  obtain ⟨range, mem, ge, le⟩ := contains_iff.mp contained
  have apart := List.all_eq_true.mp outside range mem
  rw [Bool.or_eq_true, Nat.blt_eq, Nat.blt_eq] at apart
  have := h.1
  have := h.2.1
  omega

end CharRanges

namespace Text

-- ---------------------------------------------------------------------------
-- Shifts
-- ---------------------------------------------------------------------------

variable {shift : CaseShift} {c : Char} {n : Nat}

/-- The characters that the sources of the shift become. -/
def CaseShift.target (shift : CaseShift) : CharStride where
  first := (shift.source.first + shift.distance).toNat
  last := (shift.source.last + shift.distance).toNat
  step := shift.source.step

theorem CaseShift.has_target (h : shift.source.Has n) (positive : 0 < shift.target.first) :
    shift.target.Has (n + shift.distance).toNat := by
  obtain ⟨ge, le, member⟩ := h
  simp only [target] at positive
  refine ⟨by simp only [target]; omega, by simp only [target]; omega, ?_⟩
  have same : (n + shift.distance).toNat - shift.target.first = n - shift.source.first := by
    simp only [target]
    omega
  rw [same]
  exact member

theorem lowercaseStrides_valid : ∀ stride ∈ lowercaseStrides,
    0 < stride.first ∧ (stride.last < 0xD800 ∨ 0xDFFF < stride.first ∧ stride.last < 0x110000) := by
  decide +kernel

theorem exists_stride_of_shift :
    ∀ shift ∈ lowercaseShifts, lowercaseStrides.any (·.covers shift.target) = true := by
  decide +kernel

theorem apart_of_shift :
    ∀ shift ∈ lowercaseShifts, lowercaseStrides.all (·.apart shift.source) = true := by
  decide +kernel

/-- The lowercase forms are letters or numeric, apart from those of characters that are neither. -/
theorem alphanumeric_of_shift : ∀ shift ∈ lowercaseShifts,
    (letterRanges.around shift.target || otherNumericRanges.around shift.target
      || letterRanges.outside shift.source && decimalRanges.outside shift.source
        && otherNumericRanges.outside shift.source) = true := by
  decide +kernel

-- ---------------------------------------------------------------------------
-- Lowercase forms
-- ---------------------------------------------------------------------------

theorem isLowercase_iff :
    isLowercase c = true ↔ ∃ stride ∈ lowercaseStrides, stride.Has c.toNat := by
  simp [isLowercase, CharStride.contains_iff]

/-- The lowercase form of a character for which one character is enough. -/
def lowered (c : Char) : Char :=
  shiftCase lowercaseShifts c

/-- A character is its own lowercase form, or is in the source of a shift, and its form is in the
    target and lowercase. -/
theorem lowered_cases (c : Char) :
    lowered c = c ∨ ∃ shift ∈ lowercaseShifts, shift.source.Has c.toNat
      ∧ shift.target.Has (lowered c).toNat ∧ isLowercase (lowered c) = true := by
  rw [lowered, shiftCase]
  split
  · next shift found =>
    have mem := List.mem_of_find?_eq_some found
    have contained := List.find?_some (p := fun shift : CaseShift => shift.source.contains c) found
    have source : shift.source.Has c.toNat := CharStride.contains_iff.mp contained
    obtain ⟨stride, listed, covers⟩ := List.any_eq_true.mp (exists_stride_of_shift shift mem)
    obtain ⟨positive, valid⟩ := lowercaseStrides_valid stride listed
    have target : shift.target.Has (c.toNat + shift.distance).toNat := by
      refine CaseShift.has_target source ?_
      simp only [CharStride.covers, Bool.and_eq_true, Nat.ble_eq] at covers
      omega
    have covered := target.of_covers covers
    have toNat : (shift.apply c).toNat = (c.toNat + shift.distance).toNat := by
      have isChar : Nat.isValidChar (c.toNat + shift.distance).toNat := by
        obtain ⟨ge, le, -⟩ := covered
        rw [Nat.isValidChar]
        omega
      rw [CaseShift.apply, Char.ofNat, dif_pos isChar]
      rfl
    rw [← toNat] at target covered
    exact .inr ⟨shift, mem, source, target, isLowercase_iff.mpr ⟨stride, listed, covered⟩⟩
  · exact .inl rfl

theorem lowered_eq_or_isLowercase (c : Char) : lowered c = c ∨ isLowercase (lowered c) = true := by
  obtain same | ⟨_, _, _, _, lower⟩ := lowered_cases c
  · exact .inl same
  · exact .inr lower

theorem lowered_of_isLowercase (lower : isLowercase c = true) : lowered c = c := by
  obtain same | ⟨shift, mem, source, -⟩ := lowered_cases c
  · exact same
  · obtain ⟨stride, listed, has⟩ := isLowercase_iff.mp lower
    have apart := List.all_eq_true.mp (apart_of_shift shift mem) stride listed
    exact absurd source (has.not_of_apart apart)

theorem lowered_lowered (c : Char) : lowered (lowered c) = lowered c := by
  obtain same | lower := lowered_eq_or_isLowercase c
  · rw [same, same]
  · exact lowered_of_isLowercase lower

-- ---------------------------------------------------------------------------
-- Word characters
-- ---------------------------------------------------------------------------

theorem isLetter_eq (c : Char) : isLetter c = letterRanges.contains c := by
  rw [isLetter]
  split
  · next low =>
    have alphabet : letterRanges.take 2 = [(0x41, 0x5A), (0x61, 0x7A)] := rfl
    have alpha : c.isAlpha = (decide (c.val ≥ 'A'.val ∧ c.val ≤ 'Z'.val)
        || decide (c.val ≥ 'a'.val) && decide (c.val ≤ 'z'.val)) := rfl
    rw [CharRanges.contains_take (k := 2) (by decide +kernel) low, alphabet, alpha,
      Bool.eq_iff_iff]
    simp [CharRanges.contains, UInt32.le_iff_toNat_le]
  · rfl

theorem isDecimal_eq (c : Char) : isDecimal c = decimalRanges.contains c := by
  rw [isDecimal]
  split
  · next low =>
    have digits : decimalRanges.take 1 = [(0x30, 0x39)] := rfl
    rw [CharRanges.contains_take (k := 1) (by decide +kernel) low, digits, Bool.eq_iff_iff]
    simp [CharRanges.contains, Char.isDigit, UInt32.le_iff_toNat_le]
  · rfl

theorem isAlphanumeric_lowered (h : isAlphanumeric c = true) :
    isAlphanumeric (lowered c) = true := by
  obtain same | ⟨shift, mem, source, target, -⟩ := lowered_cases c
  · rwa [same]
  · have table := alphanumeric_of_shift shift mem
    simp only [Bool.or_eq_true, Bool.and_eq_true] at table
    obtain (letters | numbers) | ⟨⟨noLetter, noDecimal⟩, noNumber⟩ := table
    · have letter := CharRanges.contains_of_around target letters
      rw [isAlphanumeric, isLetter_eq, letter, Bool.true_or]
    · have number := CharRanges.contains_of_around target numbers
      rw [isAlphanumeric, isNumeric, number, Bool.or_true, Bool.or_true]
    · rw [isAlphanumeric, isLetter_eq, isNumeric, isDecimal_eq,
        CharRanges.not_contains_of_outside source noLetter,
        CharRanges.not_contains_of_outside source noDecimal,
        CharRanges.not_contains_of_outside source noNumber] at h
      cases h

end Text

end AliasExpansion
