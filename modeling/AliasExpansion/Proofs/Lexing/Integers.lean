-- SUMMARY: Every spelling of an integer is one lexeme, and is read as the number that it spells.
import AliasExpansion.Proofs.Lexing.Names
import AliasExpansion.Proofs.Lexing.Strings
import AliasExpansion.Proofs.Token.Literals
import Mathlib.Data.Nat.Digits.Defs

/-!
# Spellings of integers

An integer may be written in four systems (`Radix`), with underscores among its digits and a type
suffix behind them (`IntegerSpelling`). No floating point literal starts with such a text, although
those are tried first, and the shape of an integer takes all of it (`IntegerSpelling.first?_text`).
Underscores, suffix and mark are dropped again before the digits are read, so the literal has the
number as its value, unless more decimal digits are read or written for it than the limit allows
(`IntegerSpelling.read_integer`).
-/

namespace AliasExpansion

open Lexeme

-- ---------------------------------------------------------------------------
-- Systems of digits
-- ---------------------------------------------------------------------------

inductive Radix where
  | binary
  | octal
  | decimal
  | hexadecimal
deriving DecidableEq, Repr

namespace Radix

def base : Radix → Nat
  | .binary => 2
  | .octal => 8
  | .decimal => 10
  | .hexadecimal => 16

/-- What is written in front of the digits. -/
def mark : Radix → List Char
  | .binary => ['0', 'b']
  | .octal => ['0', 'o']
  | .decimal => []
  | .hexadecimal => ['0', 'x']

/-- The digits with their values, letters in either case. -/
def plainDigits : List (Char × Nat) :=
  "0123456789abcdef".toList.zipIdx ++ "ABCDEF".toList.zipIdx 10

/-- The value of a digit. Only decimal digits may come from any script. -/
def digit? : Radix → Char → Option Nat
  | .decimal, c => if Text.isDecimal c then Text.decimalValue? c else none
  | radix, c => (plainDigits.lookup c).filter (· < radix.base)

/-- The characters that the lexer takes for digits. -/
def takes : Radix → Char → Bool
  | .binary => fun c => c == '0' || c == '1'
  | .octal => fun c => '0' ≤ c && c ≤ '7'
  | .decimal => Text.isDecimal
  | .hexadecimal => Literal.isHexDigit

/-- What lexing and reading rely on in a digit. -/
structure IsDigit (radix : Radix) (c : Char) (d : Nat) : Prop where
  value : Text.digitValue? c = some d
  lt : d < radix.base
  taken : radix.takes c = true
  blank : Text.isNumeralBlank c = false
  other : c ∉ ['_', '-', '+', 'i', 'u']
  unmarked : Text.baseOfMark? c ≠ some radix.base

instance (radix : Radix) (c : Char) (d : Nat) : Decidable (IsDigit radix c d) :=
  decidable_of_iff (Text.digitValue? c = some d ∧ d < radix.base ∧ radix.takes c = true
      ∧ Text.isNumeralBlank c = false ∧ c ∉ ['_', '-', '+', 'i', 'u']
      ∧ Text.baseOfMark? c ≠ some radix.base)
    ⟨fun ⟨h₁, h₂, h₃, h₄, h₅, h₆⟩ => ⟨h₁, h₂, h₃, h₄, h₅, h₆⟩,
      fun ⟨h₁, h₂, h₃, h₄, h₅, h₆⟩ => ⟨h₁, h₂, h₃, h₄, h₅, h₆⟩⟩

theorem isDigit_plain : ∀ radix ∈ [binary, octal, hexadecimal], ∀ entry ∈ plainDigits,
    entry.2 < radix.base → IsDigit radix entry.1 entry.2 := by
  decide +kernel

end Radix

namespace Text

theorem isDecimal_bounds {c : Char} (ascii : c.toNat < 0x80) (digit : isDecimal c = true) :
    48 ≤ c.toNat ∧ c.toNat ≤ 57 := by
  rw [isDecimal, if_pos ascii] at digit
  exact isDigit_bounds digit

/-- A decimal digit of any script has a value, and is no letter. -/
theorem digitValue?_of_isDecimal {c : Char} (digit : isDecimal c = true) :
    ∃ d < 10, decimalValue? c = some d ∧ digitValue? c = some d := by
  have contained : decimalRanges.contains c = true := by
    unfold isDecimal at digit
    split at digit
    · exact forall_isDigit (P := fun c => decimalRanges.contains c = true) (by decide) digit
    · exact digit
  obtain ⟨range, found⟩ := Option.isSome_iff_exists.mp (List.find?_isSome.mpr
    (List.any_eq_true.mp contained))
  have value : decimalValue? c = some ((c.toNat - range.1) % 10) := by
    rw [decimalValue?, found]
    rfl
  refine ⟨_, Nat.mod_lt _ (by decide), value, ?_⟩
  have noLetter (low high : Char) (le : 57 < low.toNat) (ascii : high.toNat < 0x80) :
      (low ≤ c && c ≤ high) = false := by
    refine Bool.eq_false_iff.mpr fun inside => ?_
    rw [Bool.and_eq_true, decide_eq_true_eq, decide_eq_true_eq] at inside
    have lower : low.toNat ≤ c.toNat := inside.1
    have upper : c.toNat ≤ high.toNat := inside.2
    have := isDecimal_bounds (by omega) digit
    omega
  rw [digitValue?, noLetter 'a' 'z' (by decide) (by decide),
    noLetter 'A' 'Z' (by decide) (by decide), ← value]
  rfl

theorem isWordChar_of_isDecimal {c : Char} (digit : isDecimal c = true) : isWordChar c = true := by
  rw [isWordChar, isAlphanumeric, isNumeric, digit, Bool.true_or, Bool.or_true, Bool.or_true]

end Text

namespace Radix

theorem isDigit_decimal {c : Char} {d : Nat} (h : decimal.digit? c = some d) :
    IsDigit decimal c d := by
  change (if Text.isDecimal c then Text.decimalValue? c else none) = some d at h
  split at h
  · next digit =>
    obtain ⟨d', small, value, read⟩ := Text.digitValue?_of_isDecimal digit
    cases h.symm.trans value
    refine ⟨read, small, digit, ?_, ?_, ?_⟩
    · refine Bool.eq_false_iff.mpr fun blank => ?_
      rw [Text.isNumeralBlank, Bool.and_eq_true] at blank
      cases (Text.isWordChar_of_isDecimal digit).symm.trans (Text.isWordChar_of_isBlank blank.1)
    · intro mem
      have free : ∀ c ∈ ['_', '-', '+', 'i', 'u'], Text.isDecimal c = false :=
        none_of_any (by decide)
      cases digit.symm.trans (free c mem)
    · unfold Text.baseOfMark?
      split <;> decide
  · cases h

theorem isDigit_of_digit? {radix : Radix} {c : Char} {d : Nat} (h : radix.digit? c = some d) :
    IsDigit radix c d := by
  have plain (mem : radix ∈ [binary, octal, hexadecimal])
      (h : (plainDigits.lookup c).filter (· < radix.base) = some d) : IsDigit radix c d := by
    obtain ⟨found, small⟩ := Option.filter_eq_some_iff.mp h
    obtain ⟨before, after, split, -⟩ := List.lookup_eq_some_iff.mp found
    exact isDigit_plain radix mem (c, d) (by rw [split]; simp) (of_decide_eq_true small)
  cases radix with
  | decimal => exact isDigit_decimal h
  | binary | octal | hexadecimal => exact plain (by decide) h

theorem IsDigit.ne {radix : Radix} {c d : Char} {n : Nat} (h : IsDigit radix c n)
    (mem : d ∈ ['_', '-', '+', 'i', 'u']) : c ≠ d := by
  rintro rfl
  exact h.other mem

end Radix

-- ---------------------------------------------------------------------------
-- Spellings
-- ---------------------------------------------------------------------------

/-- The type suffixes of integers, no suffix among them. -/
def Literal.typeSuffixes : List (List Char) :=
  [] :: ['i', 'u'].flatMap fun sign => Literal.widths.map (sign :: ·)

/-- One way to write an integer: the digits of a system behind its mark, with any underscores
    among them, and a type suffix. In the decimal system, which has no mark, an underscore may not
    come first. -/
structure IntegerSpelling where
  radix : Radix
  body : List Char
  suffix : List Char
  body_digits : ∀ c ∈ body, c = '_' ∨ ∃ d, radix.digit? c = some d
  some_digit : ∃ c ∈ body, c ≠ '_'
  start : radix = .decimal → body.head? ≠ some '_'
  suffix_known : suffix ∈ Literal.typeSuffixes

namespace IntegerSpelling

variable (s : IntegerSpelling)

def text : List Char :=
  s.radix.mark ++ (s.body ++ s.suffix)

/-- The number that is written: the positional value of the digits. -/
def number : Nat :=
  Nat.ofDigits s.radix.base (s.body.filterMap s.radix.digit?).reverse

end IntegerSpelling

-- ---------------------------------------------------------------------------
-- One lexeme
-- ---------------------------------------------------------------------------

namespace Lexeme

variable {cs : List Char} {n : Nat}

/-- None of the shapes that make digits a floating point literal goes on here. -/
theorem noFloat_behind (other : ∀ c ∈ cs.head?, c ∉ ['.', 'e', 'E', 'f']) :
    fractionShape cs = none ∧ exponentShape cs = none ∧ floatSuffixShape cs = none
      ∧ trailingPointShape cs = none := by
  match cs with
  | [] => exact ⟨rfl, rfl, rfl, rfl⟩
  | c :: rest =>
    have free := other c rfl
    simp only [List.mem_cons, List.not_mem_nil, or_false, not_or] at free
    obtain ⟨point, lower, upper, suffix⟩ := free
    refine ⟨?_, ?_, ?_, ?_⟩
    · unfold fractionShape
      split
      · next eq => exact absurd (List.cons.inj eq).1 point
      · rfl
    · rw [exponentShape_cons, if_neg]
      rw [Bool.or_eq_true, beq_iff_eq, beq_iff_eq, not_or]
      exact ⟨lower, upper⟩
    · unfold floatSuffixShape
      split
      · next eq => exact absurd (List.cons.inj eq).1 suffix
      · next eq => exact absurd (List.cons.inj eq).1 suffix
      · rfl
    · unfold trailingPointShape
      split
      · next eq => exact absurd (List.cons.inj eq).1 point
      · rfl

/-- The leading digits decide: a floating point literal goes on behind all of them. -/
theorem floatShape_none_behind (digits : decimalShape cs = some n)
    (other : ∀ c ∈ (cs.drop n).head?, c ∉ ['.', 'e', 'E', 'f']) : floatShape cs = none := by
  obtain ⟨fraction, exponent, suffix, point⟩ := noFloat_behind other
  have after {second : Shape} (none_ : second (cs.drop n) = none) :
      andThen decimalShape second cs = none := by
    simp only [andThen, digits, none_, Option.bind_eq_bind, Option.bind_some, Option.bind_none]
  have absent {second : Shape} (none_ : second (cs.drop n) = none) :
      andThen (optionally fractionShape) second (cs.drop n) = none := by
    simp only [andThen, optionally, fraction, Option.getD_none, Option.bind_eq_bind,
      Option.bind_some, List.drop_zero, none_, Option.bind_none]
  have missing {first second : Shape} (none_ : first (cs.drop n) = none) :
      andThen first second (cs.drop n) = none := by
    simp only [andThen, none_, Option.bind_eq_bind, Option.bind_none]
  simp only [floatShape, firstOf, List.findSome?_cons, after (absent (missing exponent)),
    after (missing fraction), after suffix, after point, List.findSome?_nil]

theorem run_append {p : Char → Bool} {ds : List Char} (all : ∀ c ∈ cs, p c = true)
    (stop : ds.takeWhile p = []) : run p (cs ++ ds) = cs.length := by
  rw [run, List.takeWhile_append_of_pos all, stop, List.append_nil]

/-- The digits of an integer, which the lexer takes behind the mark of their system. -/
def digitsShape : Shape :=
  firstOf
    [prefixedShape 'x' Literal.isHexDigit,
      prefixedShape 'o' fun d => '0' ≤ d && d ≤ '7',
      prefixedShape 'b' fun d => d == '0' || d == '1',
      decimalShape]

theorem intShape_eq (digits : digitsShape cs = some n) :
    intShape cs = some (n + Literal.suffixLength (cs.drop n)) := by
  change andThen digitsShape _ cs = _
  simp only [andThen, digits, Option.bind_eq_bind, Option.bind_some]
  rfl

theorem prefixedShape_other {mark d : Char} {isDigit : Char → Bool} (zero : Char)
    (ne : d ≠ mark) (rest : List Char) : prefixedShape mark isDigit (zero :: d :: rest) = none := by
  rw [prefixedShape_cons, if_neg fun h => ne h.2.1]

/-- The digits of a system are all taken behind its mark. -/
theorem digitsShape_mark {radix : Radix} (marked : radix ≠ .decimal)
    (some_ : run (fun c => c == '_' || radix.takes c) cs ≠ 0) :
    digitsShape (radix.mark ++ cs)
      = some (radix.mark.length + run (fun c => c == '_' || radix.takes c) cs) := by
  have taken {mark : Char} {isDigit : Char → Bool}
      (some_ : run (fun d => d == '_' || isDigit d) cs ≠ 0) :
      prefixedShape mark isDigit ('0' :: mark :: cs)
        = some (2 + run (fun d => d == '_' || isDigit d) cs) := by
    rw [prefixedShape_cons, if_pos ⟨rfl, rfl, some_⟩, Nat.add_comm]
  have other {mark d : Char} {isDigit : Char → Bool} (ne : d ≠ mark) :
      prefixedShape mark isDigit ('0' :: d :: cs) = none :=
    prefixedShape_other '0' ne cs
  unfold digitsShape firstOf
  cases radix
  case decimal => exact absurd rfl marked
  all_goals
    simp only [Radix.mark, List.cons_append, List.nil_append, List.findSome?_cons, Radix.takes,
      List.length_cons, List.length_nil] at some_ ⊢
  case hexadecimal => rw [taken some_]
  case octal => rw [other (by decide), taken some_]
  case binary => rw [other (by decide), other (by decide), taken some_]

/-- Digits that no mark follows are decimal. -/
theorem digitsShape_decimal {c : Char} {rest : List Char} (digit : Text.isDecimal c = true)
    (plain : ∀ d ∈ rest.head?, d ∉ ['x', 'o', 'b']) :
    digitsShape (c :: rest) = some (1 + run isDigitOrUnderscore rest) := by
  have unmarked (mark : Char) (isDigit : Char → Bool) (mem : mark ∈ ['x', 'o', 'b']) :
      prefixedShape mark isDigit (c :: rest) = none := by
    match rest with
    | [] => exact prefixedShape_short c
    | d :: rest =>
      refine prefixedShape_other c ?_ rest
      rintro rfl
      exact plain d rfl mem
  unfold digitsShape firstOf
  simp only [List.findSome?_cons, unmarked 'x' _ (by decide), unmarked 'o' _ (by decide),
    unmarked 'b' _ (by decide), decimalShape, digit, if_true]

theorem first?_int {c : Char} {rest : List Char} (digit : Text.isDecimal c = true)
    (float : floatShape (c :: rest) = none) (int : intShape (c :: rest) = some n) :
    first? (c :: rest) = some (.int, n) := by
  have ne {d : Char} (other : Text.isDecimal d = false) : c ≠ d := by
    rintro rfl
    cases digit.symm.trans other
  have blank : Text.isBlank c = false := by
    refine Bool.eq_false_iff.mpr fun blank => ?_
    cases (Text.isWordChar_of_isDecimal digit).symm.trans (Text.isWordChar_of_isBlank blank)
  obtain ⟨rawString, string, char⟩ := noQuoted_decimal digit rest
  rw [first?_visible blank (noComment_of_ne (ne (by decide)) rest)]
  simp only [visibleShapes, List.findSome?_cons, rawString, string, char,
    lifetimeShape_none (ne (d := '\'') (by decide)), float, int, Option.map_none, Option.map_some]

end Lexeme

namespace IntegerSpelling

variable (s : IntegerSpelling)

theorem body_taken : ∀ c ∈ s.body, (c == '_' || s.radix.takes c) = true := by
  intro c mem
  obtain rfl | ⟨d, digit⟩ := s.body_digits c mem
  · rfl
  · rw [(Radix.isDigit_of_digit? digit).taken, Bool.or_true]

/-- A type suffix is apart from the digits before it, and no part of a floating point literal. -/
theorem suffix_apart : s.suffix.takeWhile (fun c => c == '_' || s.radix.takes c) = []
    ∧ (∀ c ∈ s.suffix.head?, c ∉ ['.', 'e', 'E', 'f'])
    ∧ (∀ c ∈ s.suffix, c ∉ ['x', 'o', 'b'])
    ∧ Literal.suffixLength s.suffix = s.suffix.length := by
  have digits : ∀ suffix ∈ Literal.typeSuffixes,
      ∀ radix ∈ [.binary, .octal, .decimal, .hexadecimal],
      suffix.takeWhile (fun c => c == '_' || Radix.takes radix c) = [] := by
    decide +kernel
  have others : ∀ suffix ∈ Literal.typeSuffixes,
      suffix.head?.toList.any ['.', 'e', 'E', 'f'].contains = false
        ∧ suffix.any ['x', 'o', 'b'].contains = false
        ∧ Literal.suffixLength suffix = suffix.length := by
    decide +kernel
  obtain ⟨float, mark, length⟩ := others _ s.suffix_known
  refine ⟨digits _ s.suffix_known _ ?_, fun c first => ?_, apart_of_any mark, length⟩
  · cases s.radix <;> decide
  · exact apart_of_any float c (Option.mem_toList.mpr first)

theorem run_body :
    run (fun c => c == '_' || s.radix.takes c) (s.body ++ s.suffix) = s.body.length :=
  run_append s.body_taken s.suffix_apart.1

/-- A decimal numeral starts with a digit, and all others with their mark. -/
theorem text_cases :
    (s.radix = .decimal ∧ ∃ c rest, s.body = c :: rest ∧ Text.isDecimal c = true)
      ∨ (s.radix ≠ .decimal ∧ ∃ mark ∈ ['b', 'o', 'x'], s.radix.mark = ['0', mark]) := by
  cases radix : s.radix with
  | decimal =>
    obtain ⟨d, mem, -⟩ := s.some_digit
    obtain ⟨c, rest, body⟩ := List.exists_cons_of_ne_nil (List.ne_nil_of_mem mem)
    obtain rfl | ⟨d, digit⟩ := s.body_digits c (body ▸ List.mem_cons_self)
    · exact absurd (body ▸ rfl) (s.start radix)
    · rw [radix] at digit
      exact .inl ⟨rfl, c, rest, body, (Radix.isDigit_of_digit? digit).taken⟩
  | binary => exact .inr ⟨nofun, 'b', by decide, rfl⟩
  | octal => exact .inr ⟨nofun, 'o', by decide, rfl⟩
  | hexadecimal => exact .inr ⟨nofun, 'x', by decide, rfl⟩

/-- Where the decimal digits at the front end, no floating point literal goes on. -/
theorem floatShape_text : floatShape s.text = none := by
  obtain ⟨radix, c, rest, body, digit⟩ | ⟨-, mark, mem, marked⟩ := s.text_cases
  · have taken := s.body_taken
    have apart := s.suffix_apart
    rw [radix, body, List.forall_mem_cons] at taken
    rw [radix] at apart
    have length : decimalShape s.text = some (1 + rest.length) := by
      rw [text, radix, body]
      simp only [Radix.mark, List.nil_append, List.cons_append, decimalShape, digit, if_true]
      exact congrArg some (congrArg (1 + ·) (run_append taken.2 apart.1))
    refine floatShape_none_behind length ?_
    have behind : s.text.drop (1 + rest.length) = s.suffix := by
      rw [text, radix, body, Nat.add_comm]
      exact List.drop_left
    rw [behind]
    exact apart.2.1
  · have noDigit : ∀ mark ∈ ['b', 'o', 'x'], isDigitOrUnderscore mark = false :=
      none_of_any (by decide)
    have noFloat : ∀ mark ∈ ['b', 'o', 'x'], mark ∉ ['.', 'e', 'E', 'f'] :=
      apart_of_any (by decide)
    have length : decimalShape s.text = some 1 := by
      rw [text, marked]
      change some (1 + run isDigitOrUnderscore (mark :: _)) = _
      rw [run_cons_of_neg (noDigit mark mem)]
    refine floatShape_none_behind length ?_
    rw [text, marked]
    intro c first
    cases first
    exact noFloat mark mem

theorem digitsShape_text : digitsShape s.text = some (s.radix.mark.length + s.body.length) := by
  have length := s.run_body
  obtain ⟨radix, c, rest, body, digit⟩ | ⟨marked, -⟩ := s.text_cases
  · have taken := s.body_taken
    rw [radix, body, List.forall_mem_cons] at taken
    have plain : ∀ d ∈ (rest ++ s.suffix).head?, d ∉ ['x', 'o', 'b'] := by
      intro d first
      rcases List.mem_append.mp (List.mem_of_mem_head? first) with mem | mem
      · intro mark
        have free : ∀ d ∈ ['x', 'o', 'b'], (d == '_' || Radix.takes .decimal d) = false :=
          none_of_any (by decide)
        cases (taken.2 d mem).symm.trans (free d mark)
      · exact s.suffix_apart.2.2.1 d mem
    rw [radix, body, List.cons_append, run_cons_of_pos taken.1] at length
    rw [text, radix, body, List.cons_append]
    refine (digitsShape_decimal digit plain).trans (congrArg some ?_)
    rw [Nat.add_comm, Radix.mark, List.length_nil, Nat.zero_add]
    exact length
  · have some_ : s.body.length ≠ 0 := by
      obtain ⟨c, mem, -⟩ := s.some_digit
      exact List.length_pos_of_mem mem |>.ne'
    rw [text, digitsShape_mark marked (length ▸ some_), length]

theorem intShape_text : intShape s.text = some s.text.length := by
  have behind : s.text.drop (s.radix.mark.length + s.body.length) = s.suffix := by
    rw [text, ← List.append_assoc, ← List.length_append]
    exact List.drop_left
  rw [intShape_eq s.digitsShape_text, behind, s.suffix_apart.2.2.2, text, List.length_append,
    List.length_append, Nat.add_assoc]

theorem first?_text : first? s.text = some (.int, s.text.length) := by
  obtain ⟨c, rest, eq, digit⟩ : ∃ c rest, s.text = c :: rest ∧ Text.isDecimal c = true := by
    obtain ⟨radix, c, rest, body, digit⟩ | ⟨-, mark, -, marked⟩ := s.text_cases
    · exact ⟨c, rest ++ s.suffix, by rw [text, radix, body]; rfl, digit⟩
    · exact ⟨'0', mark :: (s.body ++ s.suffix), by rw [text, marked]; rfl, by decide⟩
  have float := s.floatShape_text
  have int := s.intShape_text
  rw [eq] at float int ⊢
  exact first?_int digit float int

end IntegerSpelling

-- ---------------------------------------------------------------------------
-- The number
-- ---------------------------------------------------------------------------

namespace Literal

theorem dropSuffix_append {cs suffix : List Char} (free : ∀ c ∈ cs, c ≠ 'i' ∧ c ≠ 'u')
    (known : suffix ∈ typeSuffixes) : dropSuffix (cs ++ suffix) = cs := by
  induction cs with
  | nil =>
    have dropped : ∀ suffix ∈ typeSuffixes, dropSuffix suffix = [] := by decide
    exact dropped suffix known
  | cons c cs ih =>
    rw [List.forall_mem_cons] at free
    have none_ : suffixLength (c :: (cs ++ suffix)) = 0 := by
      rw [suffixLength, if_neg]
      rw [Bool.or_eq_true, beq_iff_eq, beq_iff_eq, not_or]
      exact free.1
    rw [List.cons_append, dropSuffix, none_, if_neg (by simp), ih free.2]

end Literal

namespace Radix

variable {radix : Radix} {cs : List Char}

theorem base_eq_ten (radix : Radix) : radix.base = 10 ↔ radix = .decimal := by
  cases radix <;> decide

theorem digit?_underscore (radix : Radix) : radix.digit? '_' = none := by
  cases radix <;> decide

/-- Digits of a system are read as their positional value. -/
theorem readDigits_eq (digits : ∀ c ∈ cs, ∃ d, radix.digit? c = some d) (value : Nat) :
    Text.readDigits radix.base value cs
      = some ((cs.filterMap radix.digit?).foldl (fun value d => d + radix.base * value) value) := by
  induction cs generalizing value with
  | nil => rfl
  | cons c cs ih =>
    rw [List.forall_mem_cons] at digits
    obtain ⟨⟨d, digit⟩, digits⟩ := digits
    have reads := isDigit_of_digit? digit
    rw [Text.readDigits.eq_def, List.filterMap_cons_some digit, List.foldl_cons, ← ih digits]
    simp only [reads.value, if_pos reads.lt, Nat.mul_comm, Nat.add_comm]

/-- Neither blanks, nor a sign, nor a second mark is found among digits. -/
theorem readInteger_eq (ne : cs ≠ []) (digits : ∀ c ∈ cs, ∃ d, radix.digit? c = some d) :
    Text.readInteger radix.base cs
      = some (Int.ofNat (Nat.ofDigits radix.base (cs.filterMap radix.digit?).reverse)) := by
  have isDigit : ∀ c ∈ cs, ∃ d, IsDigit radix c d := fun c mem =>
    (digits c mem).imp fun _ => isDigit_of_digit?
  have trimmed {ds : List Char} (sub : ds ⊆ cs) : ds.dropWhile Text.isNumeralBlank = ds := by
    refine List.dropWhile_eq_self_iff.mpr fun _ blank => ?_
    obtain ⟨d, reads⟩ := isDigit _ (sub (List.getElem_mem _))
    cases reads.blank.symm.trans blank
  have ne_head {d : Char} (mem : d ∈ ['_', '-', '+', 'i', 'u']) (rest : List Char) :
      cs ≠ d :: rest := by
    rintro rfl
    obtain ⟨n, reads⟩ := isDigit d List.mem_cons_self
    exact reads.ne mem rfl
  have unmarked : Text.dropBaseMark radix.base cs = cs := by
    unfold Text.dropBaseMark
    split
    · next zero mark rest =>
      obtain ⟨d, reads⟩ := isDigit mark (List.mem_cons_of_mem _ List.mem_cons_self)
      exact if_neg fun h => reads.unmarked h.2
    · rfl
  have natural : Text.readNatural radix.base cs
      = some (Nat.ofDigits radix.base (cs.filterMap radix.digit?).reverse) := by
    rw [Nat.ofDigits_eq_foldr, List.foldr_reverse]
    refine Eq.trans ?_ (readDigits_eq digits 0)
    unfold Text.readNatural
    split
    · exact absurd rfl ne
    · next rest => exact absurd rfl (ne_head (by decide) rest)
    · rfl
  rw [Text.readInteger, trimmed (List.Subset.refl _),
    trimmed (List.reverse_subset.mpr fun _ h => h), List.reverse_reverse]
  split
  · next rest => exact absurd rfl (ne_head (by decide) rest)
  · next rest => exact absurd rfl (ne_head (by decide) rest)
  · rw [unmarked, natural]
    rfl

end Radix

namespace IntegerSpelling

variable (s : IntegerSpelling)

/-- What is left when the underscores, the suffix and the mark are dropped. -/
def digitChars : List Char :=
  s.body.filter (· != '_')

theorem digitChars_digit : ∀ c ∈ s.digitChars, ∃ d, s.radix.digit? c = some d := by
  intro c mem
  obtain ⟨mem, other⟩ := List.mem_filter.mp mem
  exact (s.body_digits c mem).resolve_left (bne_iff_ne.mp other)

theorem digitChars_value :
    s.digitChars.filterMap s.radix.digit? = s.body.filterMap s.radix.digit? := by
  rw [digitChars, List.filterMap_filter]
  refine List.filterMap_congr fun c _ => ?_
  by_cases underscore : c = '_'
  · rw [underscore, s.radix.digit?_underscore]
    rfl
  · rw [if_pos (bne_iff_ne.mpr underscore)]

theorem dropSuffix_text :
    Literal.dropSuffix (s.text.filter (· != '_')) = s.radix.mark ++ s.digitChars := by
  have mark : s.radix.mark.filter (· != '_') = s.radix.mark := by cases s.radix <;> decide
  have suffix : ∀ suffix ∈ Literal.typeSuffixes, suffix.filter (· != '_') = suffix := by decide
  rw [text, List.filter_append, List.filter_append, mark, suffix _ s.suffix_known,
    ← List.append_assoc]
  refine Literal.dropSuffix_append (List.forall_mem_append.mpr ⟨?_, ?_⟩) s.suffix_known
  · cases s.radix <;> simp [Radix.mark]
  · intro c mem
    obtain ⟨d, digit⟩ := s.digitChars_digit c mem
    have reads := Radix.isDigit_of_digit? digit
    exact ⟨reads.ne (by decide), reads.ne (by decide)⟩

theorem digitChars_ne_nil : s.digitChars ≠ [] := by
  obtain ⟨c, mem, other⟩ := s.some_digit
  exact List.ne_nil_of_mem (List.mem_filter.mpr ⟨mem, bne_iff_ne.mpr other⟩)

theorem readInteger_digitChars :
    Text.readInteger s.radix.base s.digitChars = some (s.number : Int) := by
  rw [Radix.readInteger_eq s.digitChars_ne_nil s.digitChars_digit, s.digitChars_value]
  rfl

/-- The number of decimal digits that are converted: in the decimal system the written ones, zeros
    at the front among them, and in the other systems those of the number. -/
def decimalDigits : Nat :=
  if s.radix = .decimal then s.digitChars.length else (Nat.toDigits 10 s.number).length

theorem decimalLength_digitChars (decimal : s.radix = .decimal) :
    Text.decimalLength s.digitChars = s.digitChars.length := by
  refine Text.decimalLength_eq fun c mem => ?_
  obtain ⟨d, digit⟩ := s.digitChars_digit c mem
  have reads := Radix.isDigit_of_digit? digit
  refine ⟨?_, reads.blank, fun other => reads.other (List.Sublist.subset (by decide) other)⟩
  have taken := reads.taken
  rwa [decimal] at taken

theorem number_lt : s.number < s.radix.base ^ s.digitChars.length := by
  have two : 1 < s.radix.base := by cases s.radix <;> decide
  have digits : ∀ d ∈ (s.digitChars.filterMap s.radix.digit?).reverse, d < s.radix.base := by
    intro d mem
    obtain ⟨c, -, digit⟩ := List.mem_filterMap.mp (List.mem_reverse.mp mem)
    exact (Radix.isDigit_of_digit? digit).lt
  have below := Nat.ofDigits_lt_base_pow_length two digits
  rw [List.length_reverse, s.digitChars_value] at below
  refine Nat.lt_of_lt_of_le below (Nat.pow_le_pow_right (Nat.zero_lt_of_lt two) ?_)
  rw [← s.digitChars_value]
  exact List.length_filterMap_le _ _

/-- In the decimal system a number is written with no more digits than it is read from. -/
theorem length_toDigits_number_le : (Nat.toDigits 10 s.number).length ≤ s.decimalDigits := by
  rw [decimalDigits]
  split
  · next decimal =>
    have below := s.number_lt
    rw [decimal] at below
    exact (Nat.length_toDigits_le_iff (by decide)
      (List.length_pos_iff.mpr s.digitChars_ne_nil)).mpr below
  · exact Nat.le_refl _

/-- The digits are read in their system, and the number is written in the decimal one. -/
theorem digits_text_eq (span : Span) :
    Literal.digits { kind := .int, text := String.ofList s.text, span }
      = Literal.readBase s.radix.base s.digitChars >>= Literal.writeDecimal := by
  have digits := s.digitChars_digit
  rw [Literal.digits, if_pos rfl]
  dsimp only
  rw [String.toList_ofList, dropSuffix_text]
  cases radix : s.radix with
  | decimal =>
    rw [radix] at digits
    have marked {mark : Char} (other : Text.isDecimal mark = false) (rest : List Char) :
        s.digitChars ≠ '0' :: mark :: rest := by
      intro eq
      obtain ⟨d, digit⟩ := digits mark (eq ▸ List.mem_cons_of_mem _ List.mem_cons_self)
      cases other.symm.trans (Radix.isDigit_of_digit? digit).taken
    rw [Radix.mark, List.nil_append]
    split
    · next eq => exact absurd eq (marked (by decide) _)
    · next eq => exact absurd eq (marked (by decide) _)
    · next eq => exact absurd eq (marked (by decide) _)
    · rfl
  | binary | octal | hexadecimal => rfl

theorem readBase_digitChars (short : s.radix = .decimal → s.digitChars.length ≤ Text.digitLimit) :
    Literal.readBase s.radix.base s.digitChars = .ok (s.number : Int) := by
  refine Literal.readBase_eq_ok.mpr ⟨fun ten => ?_, s.readInteger_digitChars⟩
  have decimal := s.radix.base_eq_ten.mp ten
  exact s.decimalLength_digitChars decimal ▸ short decimal

theorem digits_text (span : Span) (short : s.decimalDigits ≤ Text.digitLimit) :
    Literal.digits { kind := .int, text := String.ofList s.text, span }
      = .ok (toString s.number) := by
  have read := s.readBase_digitChars fun decimal => by
    rwa [decimalDigits, if_pos decimal] at short
  rw [digits_text_eq, read, Outcome.ok_bind, Literal.writeDecimal_eq_ok, Int.natAbs_natCast]
  exact ⟨Nat.le_trans s.length_toDigits_number_le short, rfl⟩

/-- Beyond the limit there is no value: a decimal numeral is not read, and the number of any other
    is not written. -/
theorem digits_text_tooLong (span : Span) (long : Text.digitLimit < s.decimalDigits) :
    Literal.digits { kind := .int, text := String.ofList s.text, span }
      = .error (if s.radix = .decimal then .numeralTooLong s.decimalDigits else .numberTooLong) := by
  rw [digits_text_eq]
  rw [decimalDigits] at long ⊢
  split at long
  · next decimal =>
    rw [if_pos decimal, if_pos decimal, s.radix.base_eq_ten.mpr decimal]
    rw [← s.decimalLength_digitChars decimal] at long ⊢
    rw [Literal.readBase_tooLong long]
    rfl
  · next other =>
    rw [if_neg other, s.readBase_digitChars fun decimal => absurd decimal other, Outcome.ok_bind,
      Literal.writeDecimal, Int.natAbs_natCast, if_pos long]

/-- Every number can be written in every system. -/
theorem exists_number (radix : Radix) (n : Nat) :
    ∃ s : IntegerSpelling, s.radix = radix ∧ s.number = n := by
  have digit : ∀ d < radix.base, radix.digit? d.digitChar = some d := by
    cases radix <;> decide
  have small : ∀ d ∈ (radix.base.digits n).reverse, d < radix.base := fun d mem =>
    Nat.digits_lt_base (by cases radix <;> decide) (List.mem_reverse.mp mem)
  have zero : radix.digit? '0' = some 0 := by cases radix <;> decide
  have values : ((radix.base.digits n).reverse.map Nat.digitChar).filterMap radix.digit?
      = (radix.base.digits n).reverse := by
    rw [List.filterMap_map]
    exact (List.filterMap_congr fun d mem => digit d (small d mem)).trans List.filterMap_some
  -- A zero in front makes the digits of zero the same case as all others.
  refine ⟨⟨radix, '0' :: (radix.base.digits n).reverse.map Nat.digitChar, [], ?_, ?_, nofun, ?_⟩,
    rfl, ?_⟩
  · refine List.forall_mem_cons.mpr ⟨.inr ⟨0, zero⟩, List.forall_mem_map.mpr fun d mem => ?_⟩
    exact .inr ⟨d, digit d (small d mem)⟩
  · exact ⟨'0', List.mem_cons_self, by decide⟩
  · exact List.mem_cons_self
  · rw [number, List.filterMap_cons_some zero, values, List.reverse_cons, List.reverse_reverse,
      Nat.ofDigits_append, Nat.ofDigits_digits, Nat.ofDigits_singleton, Nat.mul_zero, Nat.add_zero]

/-- An integer, however it is written, is one token. It reads as the number that it spells if the
    decimal digits of its spelling, or for the other systems those of its number, are within the
    limit, and has no value otherwise. -/
theorem read_integer :
    Token.read (String.ofList s.text)
        = .ok [.literal { kind := .int, text := String.ofList s.text }]
      ∧ (s.decimalDigits ≤ Text.digitLimit →
        Literal.digits { kind := .int, text := String.ofList s.text } = .ok (toString s.number))
      ∧ (Text.digitLimit < s.decimalDigits →
        Literal.digits { kind := .int, text := String.ofList s.text }
          = .error (if s.radix = .decimal then .numeralTooLong s.decimalDigits
            else .numberTooLong)) := by
  obtain ⟨joint, read⟩ := Token.read_lexeme s.first?_text fun _ => ⟨nofun, nofun⟩
  exact ⟨read, s.digits_text {}, s.digits_text_tooLong {}⟩

/-- Underscores, a mark, either case of letters and a suffix. -/
theorem read_integer_marked :
    Token.read "0x_fF__0u8" = .ok [.literal { kind := .int, text := "0x_fF__0u8" }]
      ∧ Literal.digits { kind := .int, text := "0x_fF__0u8" } = .ok "4080" := by
  let s : IntegerSpelling :=
    { radix := .hexadecimal, body := "_fF__0".toList, suffix := "u8".toList
      body_digits := by
        have digits : "_fF__0".toList.all (fun c =>
            c == '_' || (Radix.hexadecimal.digit? c).isSome) = true := by
          decide
        intro c mem
        have digit := List.all_eq_true.mp digits c mem
        rwa [Bool.or_eq_true, beq_iff_eq, Option.isSome_iff_exists] at digit
      some_digit := ⟨'f', by decide, by decide⟩
      start := nofun
      suffix_known := by decide }
  have text : String.ofList s.text = "0x_fF__0u8" := by decide
  obtain ⟨read, value, -⟩ := s.read_integer
  have number : toString s.number = "4080" := by decide
  rw [text] at read value
  rw [number] at value
  exact ⟨read, value (by decide)⟩

/-- Ones, more than the limit allows, are one token without a value. -/
theorem digits_ones :
    let ones := String.ofList (List.replicate 4301 '1')
    ∃ s : IntegerSpelling, s.radix = .decimal ∧ String.ofList s.text = ones ∧
      Literal.digits { kind := .int, text := ones } = .error (.numeralTooLong 4301) := by
  intro ones
  let s : IntegerSpelling :=
    { radix := .decimal, body := List.replicate 4301 '1', suffix := []
      body_digits := fun c mem => .inr ⟨1, List.eq_of_mem_replicate mem ▸ rfl⟩
      some_digit := ⟨'1', List.mem_replicate.mpr ⟨by decide, rfl⟩, by decide⟩
      start := fun _ => by decide
      suffix_known := by decide }
  have text : s.text = List.replicate 4301 '1' := List.append_nil _
  have digits : s.decimalDigits = 4301 := by
    have plain : s.digitChars = List.replicate 4301 '1' :=
      List.filter_eq_self.mpr fun c mem => by rw [List.eq_of_mem_replicate mem]; rfl
    rw [decimalDigits, if_pos rfl, plain, List.length_replicate]
  have long := s.digits_text_tooLong {} (by rw [digits]; decide)
  rw [if_pos rfl, digits, text] at long
  exact ⟨s, rfl, congrArg String.ofList text, long⟩

end IntegerSpelling

end AliasExpansion
