-- SUMMARY: The texts that the lexer reads as one identifier.
import AliasExpansion.Proofs.Lexing.Strings
import AliasExpansion.Syntax.Name
import Mathlib.Data.List.TakeWhile

/-!
# Names as lexemes

A text of the form of a name, with or without the mark of a raw identifier, is read as one identifier
(`Token.read_name`). The usable names have this form, the reserved words and the underscore have it
too, and so does every identifier that the lexer finds in a source.
-/

namespace AliasExpansion

open Lexeme

-- ---------------------------------------------------------------------------
-- White space and words
-- ---------------------------------------------------------------------------

/-- No range of `others` that starts up to `bound` meets one of `ranges`. The bound comes first, so that
    the long end of a table is passed over quickly. -/
def CharRanges.apart (bound : Nat) (ranges others : CharRanges) : Bool :=
  others.all fun other => Nat.blt bound other.1 || ranges.all fun range =>
    Nat.blt other.2 range.1 || Nat.blt range.2 other.1

theorem CharRanges.not_contains_of_apart {bound : Nat} {ranges others : CharRanges} {c : Char}
    (apart : ranges.apart bound others = true) (inside : ranges.contains c = true)
    (small : c.toNat ≤ bound) : others.contains c = false := by
  obtain ⟨range, mem, inside⟩ := List.any_eq_true.mp inside
  refine List.any_eq_false.mpr fun other mem' => ?_
  have apart := List.all_eq_true.mp apart other mem'
  rw [Bool.or_eq_true, List.all_eq_true] at apart
  simp only [Nat.blt_eq, Bool.and_eq_true, decide_eq_true_eq] at inside apart ⊢
  obtain beyond | apart := apart
  · omega
  · have apart := apart range mem
    simp only [Bool.or_eq_true, Nat.blt_eq] at apart
    omega

namespace Text

/-- Stretches of code points that hold the white space and no part of a word. -/
def blankStretches : CharRanges :=
  [(0x9, 0x20), (0x85, 0xA0), (0x1680, 0x1680), (0x2000, 0x205F), (0x3000, 0x3000)]

set_option maxRecDepth 8000 in
theorem blankStretches_apart : blankStretches.apart 0x3000 letterRanges = true ∧
    blankStretches.apart 0x3000 decimalRanges = true ∧
    blankStretches.apart 0x3000 otherNumericRanges = true := by
  decide

/-- White space is no part of a word. -/
theorem isWordChar_of_isBlank {c : Char} (blank : isBlank c = true) : isWordChar c = false := by
  simp only [isBlank, blankRanges, CharRanges.contains, List.any_cons, List.any_nil, Bool.or_false,
    Bool.or_eq_true, Bool.and_eq_true, decide_eq_true_eq] at blank
  by_cases ascii : c.toNat < 0x80
  · have low : ∀ n ∈ List.range' 0x9 5 ++ List.range' 0x1C 5, isWordChar (Char.ofNat n) = false := by
      decide
    have noWord := low c.toNat (by simp only [List.mem_append, List.mem_range'_1]; omega)
    rwa [Char.ofNat_toNat] at noWord
  · have small : c.toNat ≤ 0x3000 := by omega
    have inside : blankStretches.contains c = true := by
      simp only [blankStretches, CharRanges.contains, List.any_cons, List.any_nil, Bool.or_false,
        Bool.or_eq_true, Bool.and_eq_true, decide_eq_true_eq]
      omega
    obtain ⟨letter, decimal, numeric⟩ := blankStretches_apart
    have other : c ≠ '_' := by
      rintro rfl
      exact ascii (by decide)
    simp [isWordChar, isAlphanumeric, isNumeric, isDecimal, isLetter, ascii, other,
      CharRanges.not_contains_of_apart letter inside small,
      CharRanges.not_contains_of_apart decimal inside small,
      CharRanges.not_contains_of_apart numeric inside small]

end Text

-- ---------------------------------------------------------------------------
-- The form of a name
-- ---------------------------------------------------------------------------

namespace Name

variable {cs : List Char}

/-- The form of a name, or of a raw identifier. -/
def IsWritten (cs : List Char) : Prop :=
  isNameShaped cs = true ∨ ∃ bare, cs = 'r' :: '#' :: bare ∧ isNameShaped bare = true

theorem isNameShaped_iff :
    isNameShaped cs = true ↔ ∃ c rest, cs = c :: rest ∧ Text.isNameStart c = true
      ∧ ∀ c ∈ rest, Text.isWordChar c = true := by
  cases cs with
  | nil => exact ⟨nofun, nofun⟩
  | cons c rest => simp [isNameShaped]

theorem isNameShaped_append {word : List Char} (shaped : isNameShaped cs = true)
    (all : ∀ c ∈ word, Text.isWordChar c = true) : isNameShaped (cs ++ word) = true := by
  obtain ⟨c, rest, rfl, start, inside⟩ := isNameShaped_iff.mp shaped
  exact isNameShaped_iff.mpr ⟨c, rest ++ word, rfl, start, List.forall_mem_append.mpr ⟨inside, all⟩⟩

/-- A usable name has the form of one. -/
theorem isWritten_of_isIdentifier {name : String} (usable : isIdentifier name = true) :
    IsWritten name.toList := by
  rw [isIdentifier] at usable
  split at usable
  · next bare raw =>
    simp only [Bool.and_eq_true] at usable
    exact .inr ⟨bare, raw, usable.1.1⟩
  · simp only [Bool.and_eq_true] at usable
    exact .inl usable.1.1

/-- The form of a name that is not usable is that of an underscore or of a keyword. -/
theorem isIdentifier_cases {name : String} (shaped : isNameShaped name.toList = true) :
    isIdentifier name = true ∨ name = "_" ∨ name ∈ keywords := by
  by_cases underscore : name = "_"
  · exact .inr (.inl underscore)
  by_cases keyword : name ∈ keywords
  · exact .inr (.inr keyword)
  refine .inl ?_
  rw [isIdentifier]
  split
  · next bare raw =>
    obtain ⟨c, rest, eq, -, word⟩ := isNameShaped_iff.mp (raw ▸ shaped)
    cases eq
    exact absurd (word '#' List.mem_cons_self) (by decide)
  · simp [shaped, keyword, underscore]

end Name

namespace Lexeme

variable {cs : List Char} {c : Char} {n : Nat}

theorem run_eq_length {p : Char → Bool} (all : ∀ c ∈ cs, p c = true) : run p cs = cs.length := by
  rw [run, List.takeWhile_eq_self_iff.mpr all]

theorem nameShape_of_isNameShaped (shaped : Name.isNameShaped cs = true) :
    nameShape cs = some cs.length := by
  obtain ⟨c, rest, rfl, start, word⟩ := Name.isNameShaped_iff.mp shaped
  rw [nameShape, if_pos start, run_eq_length word, List.length_cons, Nat.add_comm]

theorem isNameShaped_of_nameShape (h : nameShape cs = some n) :
    Name.isNameShaped (cs.take n) = true := by
  obtain ⟨c, rest, rfl, start, rfl⟩ := nameShape_eq_some.mp h
  rw [Nat.add_comm, List.take_succ_cons]
  refine Name.isNameShaped_iff.mpr ⟨c, _, rfl, start, fun d mem => ?_⟩
  rw [run, ← List.prefix_iff_eq_take.mp (List.takeWhile_prefix _)] at mem
  exact List.all_eq_true.mp List.all_takeWhile d mem

theorem identShape_of_isWritten (written : Name.IsWritten cs) : identShape cs = some cs.length := by
  obtain shaped | ⟨bare, rfl, shaped⟩ := written
  · rw [identShape_plain, nameShape_of_isNameShaped shaped]
    rintro bare rfl
    obtain ⟨c, rest, eq, -, word⟩ := Name.isNameShaped_iff.mp shaped
    cases eq
    exact absurd (word '#' List.mem_cons_self) (by decide)
  · rw [identShape, nameShape_of_isNameShaped shaped]
    rfl

/-- What the shape of an identifier takes has the form of a name. -/
theorem isWritten_of_identShape (h : identShape cs = some n) : Name.IsWritten (cs.take n) := by
  obtain plain | ⟨bare, k, rfl, inside, rfl⟩ := identShape_eq_some h
  · exact .inl (isNameShaped_of_nameShape plain)
  · exact .inr ⟨bare.take k, by rw [List.take_succ_cons, List.take_succ_cons],
      isNameShaped_of_nameShape inside⟩

/-- Where a name starts and no quoted literal, the first lexeme is an identifier. -/
theorem first?_of_identShape {rest : List Char} (start : Text.isNameStart c = true)
    (quoted : NoQuoted (c :: rest)) (taken : identShape (c :: rest) = some n) :
    first? (c :: rest) = some (.ident, n) := by
  have apart {d : Char} (other : Text.isNameStart d = false) : c ≠ d := by
    rintro rfl
    rw [start] at other
    cases other
  have decimal : Text.isDecimal c = false := by
    rw [Text.isNameStart, Bool.and_eq_true, Bool.not_eq_true'] at start
    exact start.2
  have blank : Text.isBlank c = false := by
    refine Bool.eq_false_iff.mpr fun blank => ?_
    have word := Text.isWordChar_of_isNameStart start
    rw [Text.isWordChar_of_isBlank blank] at word
    cases word
  rw [first?_visible blank (noComment_of_ne (apart (by decide)) rest)]
  simp only [visibleShapes, List.findSome?_cons, quoted.rawString, quoted.string, quoted.char,
    lifetimeShape_none (apart (d := '\'') (by decide)), floatShape_none decimal,
    intShape_none decimal, taken, Option.map_none, Option.map_some]

theorem first?_of_isWritten (written : Name.IsWritten cs) :
    first? cs = some (.ident, cs.length) := by
  have taken := identShape_of_isWritten written
  obtain shaped | ⟨bare, rfl, shaped⟩ := written
  · obtain ⟨c, rest, rfl, start, word⟩ := Name.isNameShaped_iff.mp shaped
    have quoted := noQuoted_word start word bounded_nil
    rw [List.append_nil] at quoted
    exact first?_of_identShape start quoted taken
  · obtain ⟨c, rest, rfl, start, word⟩ := Name.isNameShaped_iff.mp shaped
    have word : ∀ d ∈ c :: rest, Text.isWordChar d = true :=
      List.forall_mem_cons.mpr ⟨Text.isWordChar_of_isNameStart start, word⟩
    have quoted := noQuoted_rawIdent word bounded_nil
    rw [List.append_nil] at quoted
    exact first?_of_identShape (by decide) quoted taken

/-- The identifiers that a lexeme stands for have the form of names. -/
theorem isWritten_tokens {lexeme : Lexeme} (first : first? cs = some (lexeme.kind, n))
    (text : lexeme.text = cs.take n) {name : String} {span : Span}
    (mem : .ident name span ∈ Token.atomsAll lexeme.tokens) : Name.IsWritten name.toList := by
  obtain ⟨kind, _, place, joint⟩ := lexeme
  dsimp only at text first
  subst text
  cases kind with
  | ident =>
    simp only [tokens, Token.atomsAll, Token.atoms, List.append_nil, List.mem_singleton] at mem
    cases mem
    rw [String.toList_ofList]
    exact isWritten_of_identShape (atomShape_of_first? first (by decide))
  | lifetime =>
    simp [tokens, Token.atomsAll, Token.atoms] at mem
    obtain ⟨rest, k, rfl, taken, rfl⟩ : ∃ rest k, cs = '\'' :: rest ∧ identShape rest = some k
        ∧ n = k + 1 := by
      obtain ⟨shape, shapeMem, taken⟩ := first?_eq_some first
      simp only [shapes, List.mem_cons, Prod.mk.injEq, reduceCtorEq, false_and, true_and, false_or,
        List.not_mem_nil, or_false] at shapeMem
      subst shapeMem
      exact lifetimeShape_eq_some taken
    rw [mem.1, String.toList_ofList]
    exact isWritten_of_identShape taken
  | outerDoc | innerDoc =>
    simp [tokens, Token.docGroup, Token.atomsAll, Token.atoms] at mem
    rw [mem.1]
    exact .inl (by decide)
  | comment | blank | opening | closing => cases mem
  | int | float => simp [tokens, Token.atomsAll, Token.atoms] at mem
  | char | string | rawString => simp [tokens, literal, Token.atomsAll, Token.atoms] at mem
  | punct =>
    generalize cs.take n = taken at mem
    cases taken with
    | nil => cases mem
    | cons c rest => simp [tokens, Token.atomsAll, Token.atoms] at mem

end Lexeme

namespace Token

/-- A text of the form of a name is read as one identifier. -/
theorem read_name {name : String} (written : Name.IsWritten name.toList) :
    read name = .ok [.ident name {}] := by
  obtain ⟨joint, single⟩ := read_lexeme (first?_of_isWritten written) fun _ => ⟨nofun, nofun⟩
  rw [String.ofList_toList] at single
  rw [single, Lexeme.tokens, String.ofList_toList]

theorem read_of_isIdentifier {name : String} (usable : Name.isIdentifier name = true) :
    read name = .ok [.ident name {}] :=
  read_name (Name.isWritten_of_isIdentifier usable)

/-- The identifiers of a source have the form of names. -/
theorem isWritten_of_read {source : String} {tokens : List Token} (h : read source = .ok tokens)
    {name : String} {span : Span} (mem : .ident name span ∈ atomsAll tokens) :
    Name.IsWritten name.toList := by
  obtain ⟨lexemes, scanned, assembled⟩ := Outcome.bind_eq_ok.mp h
  have atoms := assemble_atoms assembled
  simp only [stackAtoms, List.reverse_nil, atomsAll_nil, List.nil_append] at atoms
  rw [atoms] at mem
  obtain ⟨lexeme, inside, mem⟩ := List.mem_flatMap.mp mem
  obtain ⟨cs, n, first, text⟩ := first?_of_mem_scanAfter scanned lexeme inside
  exact isWritten_tokens first text mem

end Token

end AliasExpansion
