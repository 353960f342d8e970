-- SUMMARY: Literals made from a content or from digits have a value again.
import AliasExpansion.Proofs.Lexing.Quoted
import AliasExpansion.Proofs.Outcome
import AliasExpansion.Token.Literal
import Mathlib.Data.List.TakeWhile

/-!
# Literals and their values

Escaping a content and resolving the escapes gives the content back, so a string literal made from
a content has this content. A numeral of decimal digits is read whatever zeros it begins with, so
an integer literal made from digits has a value, unless the digits, zeros among them, are more than
the limit allows; and the value of a literal whose text has no minus sign is written in digits only.
-/

namespace AliasExpansion

-- ---------------------------------------------------------------------------
-- Escapes
-- ---------------------------------------------------------------------------

/-- The number of a character leads back to it. -/
theorem CodePoint.ofNumber_toNat (c : Char) : ofNumber c.toNat = .ok (.char c) := by
  have valid : c.toNat < 0xD800 ∨ 0xDFFF < c.toNat ∧ c.toNat < 0x110000 := c.valid
  have scalar :
      ¬ ((decide (0xD800 ≤ (c.toNat : Int)) && decide ((c.toNat : Int) < 0xE000)) = true) := by
    simp only [Bool.and_eq_true, decide_eq_true_eq]
    omega
  rw [ofNumber, if_pos (by omega), if_neg scalar, Int.toNat_natCast, Char.ofNat_toNat]

namespace Literal

theorem unescapeAfter_skip (skipped rest : List Char) :
    unescapeAfter skipped.length (skipped ++ rest) = unescapeAfter 0 rest := by
  induction skipped with
  | nil => rfl
  | cons c skipped ih => rw [List.length_cons, List.cons_append, unescapeAfter, ih]

theorem unescapeAfter_plain {c : Char} (plain : c ≠ '\\') (rest : List Char) :
    unescapeAfter 0 (c :: rest) = (.char c :: ·) <$> unescapeAfter 0 rest := by
  rw [unescapeAfter, if_neg (by simpa using plain)]
  cases unescapeAfter 0 rest <;> rfl

theorem unescapeAfter_escape {body rest : List Char} {text : List CodePoint}
    (h : readEscape (body ++ rest) = .ok (body.length, text)) :
    unescapeAfter 0 ('\\' :: (body ++ rest)) = (text ++ ·) <$> unescapeAfter 0 rest := by
  rw [unescapeAfter, if_pos (beq_self_eq_true _), h]
  simp only [Outcome.ok_bind, unescapeAfter_skip]
  cases unescapeAfter 0 rest <;> rfl

/-- Control characters are written with digits that are read as their code points. -/
theorem control_digits : ∀ n ∈ List.range 0x20 ++ [0x7F],
    ((Nat.toDigits 16 n).all fun c => isHexDigit c && c != '_') = true ∧
      (Nat.toDigits 16 n).length ≤ 6 ∧ readBase 16 (Nat.toDigits 16 n) = .ok n := by
  decide +kernel

/-- Hexadecimal digits in braces stand for the character with their code point. -/
theorem readEscape_braced {digits : List Char} {c : Char}
    (hex : ∀ d ∈ digits, (isHexDigit d && d != '_') = true) (some_ : 0 < digits.length)
    (short : digits.length ≤ 6) (value : readBase 16 digits = .ok c.toNat) (rest : List Char) :
    readEscape ('u' :: '\x7b' :: (digits ++ '\x7d' :: rest)) = .ok (digits.length + 3, [.char c]) := by
  have braced : bracedDigits? ('\x7b' :: (digits ++ '\x7d' :: rest)) = some digits :=
    Lexeme.bracedDigits?_eq_some.mpr ⟨rest, rfl, fun d mem => by
      rw [(Bool.and_eq_true_iff.mp (hex d mem)).1, Bool.true_or], some_, short⟩
  have kept : digits.filter (· != '_') = digits :=
    List.filter_eq_self.mpr fun d mem => (Bool.and_eq_true_iff.mp (hex d mem)).2
  rw [readEscape, braced]
  refine Outcome.bind_eq_ok.mpr ⟨c.toNat, by rw [kept, value], ?_⟩
  exact Outcome.bind_eq_ok.mpr ⟨.char c, CodePoint.ofNumber_toNat c, rfl⟩

/-- The escape of a character is the character, or a backslash and what is read as it. -/
theorem escapeChar_cases (c : Char) :
    (c ≠ '\\' ∧ escapeChar c = [c]) ∨ ∃ body, escapeChar c = '\\' :: body ∧
      ∀ rest, readEscape (body ++ rest) = .ok (body.length, [.char c]) := by
  by_cases quote : c = '"'
  · subst quote; exact .inr ⟨['"'], rfl, fun _ => rfl⟩
  by_cases backslash : c = '\\'
  · subst backslash; exact .inr ⟨['\\'], rfl, fun _ => rfl⟩
  by_cases newline : c = '\n'
  · subst newline; exact .inr ⟨['n'], rfl, fun _ => rfl⟩
  by_cases return_ : c = '\r'
  · subst return_; exact .inr ⟨['r'], rfl, fun _ => rfl⟩
  by_cases tab : c = '\t'
  · subst tab; exact .inr ⟨['t'], rfl, fun _ => rfl⟩
  by_cases null : c = '\x00'
  · subst null; exact .inr ⟨['0'], rfl, fun _ => rfl⟩
  simp only [escapeChar, beq_iff_eq, quote, backslash, newline, return_, tab, null, if_false]
  split
  · next control =>
    refine .inr ⟨'u' :: '\x7b' :: (Nat.toDigits 16 c.toNat ++ ['\x7d']), rfl, fun rest => ?_⟩
    have mem : c.toNat ∈ List.range 0x20 ++ [0x7F] := by simpa using control
    obtain ⟨hex, short, value⟩ := control_digits c.toNat mem
    simpa using readEscape_braced (List.all_eq_true.mp hex) Nat.length_toDigits_pos short value rest
  · exact .inl ⟨backslash, rfl⟩

/-- The escapes of a character are resolved to the character. -/
theorem unescapeAfter_escapeChar (c : Char) (rest : List Char) :
    unescapeAfter 0 (escapeChar c ++ rest) = (.char c :: ·) <$> unescapeAfter 0 rest := by
  obtain ⟨plain, eq⟩ | ⟨body, eq, read⟩ := escapeChar_cases c
  · rw [eq, List.singleton_append, unescapeAfter_plain plain]
  · rw [eq, List.cons_append, unescapeAfter_escape (read rest)]
    rfl

/-- Escaping loses nothing. -/
theorem unescape_escape (cs : List Char) : unescape (escape cs) = .ok (cs.map .char) := by
  induction cs with
  | nil => rfl
  | cons c cs ih =>
    rw [unescape] at ih ⊢
    rw [escape, List.flatMap_cons, unescapeAfter_escapeChar]
    rw [escape] at ih
    rw [ih]
    rfl

theorem map_shown_char (cs : List Char) : (cs.map .char).map CodePoint.shown = cs := by
  rw [List.map_map]
  exact List.map_id cs

theorem codePoints_ofContent (content : String) (span : Span) :
    (ofContent content span).codePoints = .ok (content.toList.map .char) := by
  have inner : (('"' :: escape content.toList ++ ['"']).drop 1).dropLast =
      escape content.toList := by
    rw [List.cons_append, List.drop_succ_cons, List.drop_zero, List.dropLast_concat]
  simp only [codePoints, ofContent, String.toList_ofList, inner, unescape_escape]

/-- A literal made from a content has this content. -/
theorem content_ofContent (content : String) (span : Span) :
    (ofContent content span).content = .ok content := by
  rw [Literal.content, codePoints_ofContent, Outcome.ok_bind, map_shown_char, String.ofList_toList,
    Outcome.pure_eq_ok]

/-- Whether a literal made from a content is lone is all that there is to know of its surrogates. -/
theorem holdsSurrogate_ofContent (content : String) (span : Span) (lone : Bool) :
    { ofContent content span with lone }.holdsSurrogate = lone := by
  have points : { ofContent content span with lone }.codePoints = .ok (content.toList.map .char) :=
    codePoints_ofContent content span
  rw [holdsSurrogate, points]
  simp

end Literal

-- ---------------------------------------------------------------------------
-- Numerals
-- ---------------------------------------------------------------------------

namespace Text

/-- The text is a numeral of decimal digits and nothing else. -/
structure IsDecimalNumeral (cs : List Char) : Prop where
  ne_nil : cs ≠ []
  digits : ∀ c ∈ cs, c.isDigit = true

/-- The characters that the texts of integers are made of. -/
def isNumeralChar (c : Char) : Bool :=
  c.isDigit || c == '-'

/-- A numeral without the zeros at its front that do not count. -/
def withoutZeros : List Char → List Char
  | '0' :: c :: rest => withoutZeros (c :: rest)
  | cs => cs

theorem isDigit_bounds {c : Char} (h : c.isDigit = true) : 48 ≤ c.toNat ∧ c.toNat ≤ 57 := by
  simpa [Char.isDigit, UInt32.le_iff_toNat_le] using h

theorem ne_of_isDigit {c d : Char} (h : c.isDigit = true) (other : d.isDigit = false) : c ≠ d := by
  rintro rfl
  rw [h] at other
  cases other

theorem isNumeralChar_of_isDigit {c : Char} (h : c.isDigit = true) : isNumeralChar c = true := by
  rw [isNumeralChar, h, Bool.true_or]

theorem isDigit_of_isNumeralChar {c : Char} (h : isNumeralChar c = true) (unsigned : c ≠ '-') :
    c.isDigit = true := by
  rw [isNumeralChar, Bool.or_eq_true, beq_iff_eq] at h
  exact h.resolve_right unsigned

theorem numeralChars_minus {cs : List Char} (plain : ∀ c ∈ cs, isNumeralChar c = true) :
    ∀ c ∈ '-' :: cs, isNumeralChar c = true :=
  List.forall_mem_cons.mpr ⟨by decide, plain⟩

theorem ne_of_isNumeralChar {c d : Char} (h : isNumeralChar c = true)
    (other : isNumeralChar d = false) : c ≠ d := by
  rintro rfl
  rw [h] at other
  cases other

/-- What holds of the ten digits holds of every digit. -/
theorem forall_isDigit {P : Char → Prop} (h : ∀ n ∈ List.range' 48 10, P (Char.ofNat n)) {c : Char}
    (digit : c.isDigit = true) : P c := by
  have bounds := isDigit_bounds digit
  have holds := h c.toNat (List.mem_range'_1.mpr (by omega))
  rwa [Char.ofNat_toNat] at holds

theorem digitValue?_of_isDigit {c : Char} (h : c.isDigit = true) :
    digitValue? c = some (c.toNat - '0'.toNat) :=
  forall_isDigit (P := fun c => digitValue? c = some (c.toNat - '0'.toNat)) (by decide) h

theorem isDecimal_of_isDigit {c : Char} (h : c.isDigit = true) : isDecimal c = true :=
  forall_isDigit (P := fun c => isDecimal c = true) (by decide) h

theorem toDigits_of_isDigit {c : Char} (h : c.isDigit = true) :
    Nat.toDigits 10 (c.toNat - '0'.toNat) = [c] :=
  forall_isDigit (P := fun c => Nat.toDigits 10 (c.toNat - '0'.toNat) = [c]) (by decide) h

theorem not_isNumeralBlank {c : Char} (h : isNumeralChar c = true) : isNumeralBlank c = false := by
  rw [isNumeralChar, Bool.or_eq_true, beq_iff_eq] at h
  obtain digit | rfl := h
  · exact forall_isDigit (P := fun c => isNumeralBlank c = false) (by decide) digit
  · decide

/-- Digits are read as the number that they spell. -/
theorem readDigits_append {cs : List Char} (h : ∀ c ∈ cs, c.isDigit = true) (value : Nat)
    (rest : List Char) :
    readDigits 10 value (cs ++ rest) = readDigits 10 (Nat.ofDigitChars 10 cs value) rest := by
  induction cs generalizing value with
  | nil => rfl
  | cons c cs ih =>
    rw [List.forall_mem_cons] at h
    have bounds := isDigit_bounds h.1
    have zero : '0'.toNat = 48 := rfl
    have small : c.toNat - '0'.toNat < 10 := by omega
    rw [List.cons_append, readDigits.eq_def]
    simp only [digitValue?_of_isDigit h.1, if_pos small]
    rw [ih h.2, Nat.ofDigitChars_cons, Nat.mul_comm]

/-- There is no minus sign inside a run of digits. -/
theorem readDigits_minus (value : Nat) (rest : List Char) :
    readDigits 10 value ('-' :: rest) = none := by
  have sign : digitValue? '-' = none := rfl
  rw [readDigits.eq_def]
  simp [sign]

theorem dropBaseMark_ten (cs : List Char) : dropBaseMark 10 cs = cs := by
  have none_ (mark : Char) : baseOfMark? mark ≠ some 10 := by
    rw [baseOfMark?]
    split <;> decide
  match cs with
  | [] | [_] => rfl
  | zero :: mark :: rest =>
    rw [dropBaseMark.eq_def]
    exact if_neg fun h => none_ mark h.2

theorem dropWhile_numeral {cs : List Char} (h : ∀ c ∈ cs, isNumeralChar c = true) :
    cs.dropWhile isNumeralBlank = cs := by
  cases cs with
  | nil => rfl
  | cons c rest =>
    rw [List.dropWhile_cons_of_neg]
    rw [not_isNumeralBlank (h c List.mem_cons_self)]
    exact Bool.false_ne_true

theorem trim_numeral {cs : List Char} (h : ∀ c ∈ cs, isNumeralChar c = true) :
    ((cs.dropWhile isNumeralBlank).reverse.dropWhile isNumeralBlank).reverse = cs := by
  rw [dropWhile_numeral h, dropWhile_numeral fun c mem => h c (List.mem_reverse.mp mem),
    List.reverse_reverse]

-- ---------------------------------------------------------------------------
-- The length of a numeral
-- ---------------------------------------------------------------------------

theorem countedDigits_eq {cs : List Char} (digits : ∀ c ∈ cs, isDecimal c = true ∧ c ≠ '_') :
    (cs.takeWhile fun c => c == '_' || isDecimal c).filter (· != '_') = cs := by
  rw [List.takeWhile_eq_self_iff.mpr, List.filter_eq_self.mpr]
  · exact fun c mem => bne_iff_ne.mpr (digits c mem).2
  · intro c mem
    rw [(digits c mem).1, Bool.or_true]

/-- Every digit of a numeral counts. -/
theorem decimalLength_eq {cs : List Char} (digits : ∀ c ∈ cs,
    isDecimal c = true ∧ isNumeralBlank c = false ∧ c ∉ ['_', '-', '+']) :
    decimalLength cs = cs.length := by
  have whole := countedDigits_eq fun c mem =>
    ⟨(digits c mem).1, fun eq => (digits c mem).2.2 (eq ▸ List.mem_cons_self)⟩
  cases cs with
  | nil => rfl
  | cons c cs =>
    obtain ⟨-, solid, other⟩ := digits c List.mem_cons_self
    rw [decimalLength, List.dropWhile_cons_of_neg (Bool.eq_false_iff.mp solid)]
    split
    · next eq => exact absurd (by simp [(List.cons.inj eq).1]) other
    · next eq => exact absurd (by simp [(List.cons.inj eq).1]) other
    · exact congrArg List.length whole

namespace IsDecimalNumeral

variable {cs cs' rest : List Char}

theorem append_digits (h : IsDecimalNumeral cs) (digits : ∀ c ∈ rest, c.isDigit = true) :
    IsDecimalNumeral (cs ++ rest) where
  ne_nil := List.append_ne_nil_of_left_ne_nil h.ne_nil _
  digits := List.forall_mem_append.mpr ⟨h.digits, digits⟩

theorem append (h : IsDecimalNumeral cs) (h' : IsDecimalNumeral cs') :
    IsDecimalNumeral (cs ++ cs') :=
  h.append_digits h'.digits

theorem numeralChars (h : IsDecimalNumeral cs) : ∀ c ∈ cs, isNumeralChar c = true :=
  fun c mem => isNumeralChar_of_isDigit (h.digits c mem)

theorem toDigits (n : Nat) : IsDecimalNumeral (Nat.toDigits 10 n) where
  ne_nil := Nat.toDigits_ne_nil
  digits := fun _ => Nat.isDigit_of_mem_toDigits (by decide) (by decide)

/-- A numeral is read from its front, and what follows it goes on the number. -/
theorem readNatural_append (h : IsDecimalNumeral cs) (rest : List Char) :
    readNatural 10 (dropBaseMark 10 (cs ++ rest))
      = readDigits 10 (Nat.ofDigitChars 10 cs 0) rest := by
  rw [dropBaseMark_ten, ← readDigits_append h.digits]
  obtain ⟨c, cs, rfl⟩ := List.exists_cons_of_ne_nil h.ne_nil
  rw [List.cons_append, readNatural]
  · nofun
  · intro rest eq
    exact ne_of_isDigit (h.digits c List.mem_cons_self) rfl (List.cons.inj eq).1

theorem readInteger_append (h : IsDecimalNumeral cs) (plain : ∀ c ∈ rest, isNumeralChar c = true) :
    readInteger 10 (cs ++ rest)
      = (readDigits 10 (Nat.ofDigitChars 10 cs 0) rest).map Int.ofNat := by
  rw [readInteger, trim_numeral (List.forall_mem_append.mpr ⟨h.numeralChars, plain⟩),
    ← h.readNatural_append]
  obtain ⟨c, cs, rfl⟩ := List.exists_cons_of_ne_nil h.ne_nil
  have digit := h.digits c List.mem_cons_self
  rw [List.cons_append]
  split
  · next eq => exact absurd (List.cons.inj eq).1 (ne_of_isDigit digit rfl)
  · next eq => exact absurd (List.cons.inj eq).1 (ne_of_isDigit digit rfl)
  · rfl

theorem readInteger_minus (h : IsDecimalNumeral cs) (plain : ∀ c ∈ rest, isNumeralChar c = true) :
    readInteger 10 ('-' :: (cs ++ rest))
      = (readDigits 10 (Nat.ofDigitChars 10 cs 0) rest).map fun (n : Nat) => -(n : Int) := by
  have plainAll := List.forall_mem_append.mpr ⟨h.numeralChars, plain⟩
  rw [readInteger, trim_numeral (numeralChars_minus plainAll), ← h.readNatural_append]
  cases number : readNatural 10 (dropBaseMark 10 (cs ++ rest)) <;> simp [number]

/-- Digits are read as a number, zeros at the front included. -/
theorem readInteger (h : IsDecimalNumeral cs) :
    readInteger 10 cs = some (Nat.ofDigitChars 10 cs 0 : Int) := by
  have read := h.readInteger_append (List.forall_mem_nil _)
  rwa [List.append_nil] at read

theorem decimalLength (h : IsDecimalNumeral cs) : Text.decimalLength cs = cs.length :=
  decimalLength_eq fun c mem =>
    ⟨isDecimal_of_isDigit (h.digits c mem), not_isNumeralBlank (h.numeralChars c mem),
      fun mark => Bool.eq_false_iff.mp (Lexeme.none_of_any (by decide) c mark) (h.digits c mem)⟩

theorem decimalLength_minus (h : IsDecimalNumeral cs) :
    Text.decimalLength ('-' :: cs) = cs.length := by
  rw [Text.decimalLength, dropWhile_numeral (numeralChars_minus h.numeralChars)]
  refine congrArg List.length (countedDigits_eq fun c mem => ?_)
  exact ⟨isDecimal_of_isDigit (h.digits c mem), ne_of_isDigit (h.digits c mem) rfl⟩

end IsDecimalNumeral

-- ---------------------------------------------------------------------------
-- Zeros at the front
-- ---------------------------------------------------------------------------

/-- Digits behind a positive number are its last digits. -/
theorem toDigits_ofDigitChars {cs : List Char} (h : ∀ c ∈ cs, c.isDigit = true) {n : Nat}
    (positive : 0 < n) :
    Nat.toDigits 10 (Nat.ofDigitChars 10 cs n) = Nat.toDigits 10 n ++ cs := by
  induction cs generalizing n with
  | nil => rw [Nat.ofDigitChars_nil, List.append_nil]
  | cons c cs ih =>
    rw [List.forall_mem_cons] at h
    have bounds := isDigit_bounds h.1
    have zero : '0'.toNat = 48 := rfl
    rw [Nat.ofDigitChars_cons, ih h.2 (by omega),
      ← Nat.toDigits_append_toDigits (by decide) positive (by omega), toDigits_of_isDigit h.1,
      List.append_assoc, List.singleton_append]

theorem le_ofDigitChars (cs : List Char) (n : Nat) : n ≤ Nat.ofDigitChars 10 cs n := by
  induction cs generalizing n with
  | nil => exact Nat.le_refl n
  | cons c cs ih =>
    rw [Nat.ofDigitChars_cons]
    exact Nat.le_trans (by omega) (ih _)

theorem withoutZeros_of_ne {c : Char} (other : c ≠ '0') (cs : List Char) :
    withoutZeros (c :: cs) = c :: cs := by
  rw [withoutZeros]
  rintro _ _ ⟨⟩
  exact other rfl

theorem withoutZeros_zero {cs : List Char} (ne : cs ≠ []) :
    withoutZeros ('0' :: cs) = withoutZeros cs := by
  obtain ⟨c, cs, rfl⟩ := List.exists_cons_of_ne_nil ne
  rw [withoutZeros]

theorem withoutZeros_ne_nil {cs : List Char} (ne : cs ≠ []) : withoutZeros cs ≠ [] := by
  fun_induction withoutZeros cs with
  | case1 c rest ih => exact ih (List.cons_ne_nil c rest)
  | case2 => exact ne

theorem withoutZeros_suffix (cs : List Char) : withoutZeros cs <:+ cs := by
  fun_induction withoutZeros cs with
  | case1 c rest ih => exact ih.trans (List.suffix_cons _ _)
  | case2 => exact List.suffix_refl _

/-- A number is written without zeros at its front. -/
theorem IsDecimalNumeral.toDigits_ofDigitChars {cs : List Char} (h : IsDecimalNumeral cs) :
    Nat.toDigits 10 (Nat.ofDigitChars 10 cs 0) = withoutZeros cs := by
  obtain ⟨ne, digits⟩ := h
  induction cs with
  | nil => exact absurd rfl ne
  | cons c cs ih =>
    rw [List.forall_mem_cons] at digits
    rw [Nat.ofDigitChars_cons, Nat.mul_zero, Nat.zero_add]
    by_cases zero : c = '0'
    · subst zero
      by_cases last : cs = []
      · subst last
        decide
      · rw [withoutZeros_zero last, ← ih last digits.2]
        rfl
    · have positive : 0 < c.toNat - '0'.toNat := by
        have bounds := isDigit_bounds digits.1
        have zeroCode : '0'.toNat = 48 := rfl
        have other : c.toNat ≠ '0'.toNat := fun eq => zero (Char.toNat_inj.mp eq)
        omega
      rw [Text.toDigits_ofDigitChars digits.2 positive, toDigits_of_isDigit digits.1,
        withoutZeros_of_ne zero, List.singleton_append]

theorem toString_ofNat (n : Nat) :
    toString (Int.ofNat n) = String.ofList (Nat.toDigits 10 n) := rfl

theorem toString_negSucc (n : Nat) :
    toString (Int.negSucc n) = String.ofList ('-' :: Nat.toDigits 10 (n + 1)) := by
  rw [← List.singleton_append, String.ofList_append]
  rfl

theorem toString_ne_nil (i : Int) : (toString i).toList ≠ [] := by
  cases i with
  | ofNat n =>
    rw [toString_ofNat, String.toList_ofList]
    exact Nat.toDigits_ne_nil
  | negSucc n =>
    rw [toString_negSucc, String.toList_ofList]
    exact List.cons_ne_nil _ _

theorem isNumeralChar_toString (i : Int) : ∀ c ∈ (toString i).toList, isNumeralChar c = true := by
  cases i with
  | ofNat n =>
    rw [toString_ofNat, String.toList_ofList]
    exact (IsDecimalNumeral.toDigits n).numeralChars
  | negSucc n =>
    rw [toString_negSucc, String.toList_ofList]
    exact numeralChars_minus (IsDecimalNumeral.toDigits (n + 1)).numeralChars

theorem readNumeral_eq_ok {base : Nat} {cs : List Char} {i : Int} : readNumeral base cs = .ok i ↔
    (base = 10 → decimalLength cs ≤ digitLimit) ∧ readInteger base cs = some i := by
  rw [readNumeral]
  split
  · next long => simpa using fun short => absurd (short long.1) (Nat.not_le.mpr long.2)
  · next short =>
    rw [and_iff_right fun decimal => Nat.not_lt.mp fun long => short ⟨decimal, long⟩]
    cases readInteger base cs <;> simp

/-- Without a minus sign the number is not negative. -/
theorem readInteger_nonneg {base : Nat} {cs : List Char} {i : Int} (unsigned : '-' ∉ cs)
    (h : readInteger base cs = some i) : ∃ n : Nat, i = n := by
  have sub : ((cs.dropWhile isNumeralBlank).reverse.dropWhile isNumeralBlank).reverse ⊆ cs := by
    intro c mem
    rw [List.mem_reverse] at mem
    have mem := List.dropWhile_subset _ mem
    exact List.dropWhile_subset _ (List.mem_reverse.mp mem)
  rw [readInteger] at h
  split at h
  · next eq => exact absurd (sub (eq ▸ List.mem_cons_self)) unsigned
  · obtain ⟨n, -, rfl⟩ := Option.map_eq_some_iff.mp h
    exact ⟨n, rfl⟩
  · obtain ⟨n, -, rfl⟩ := Option.map_eq_some_iff.mp h
    exact ⟨n, rfl⟩

end Text

namespace Literal

open Text

theorem dropSuffix_numeral {cs : List Char} (h : ∀ c ∈ cs, isNumeralChar c = true) :
    dropSuffix cs = cs := by
  induction cs with
  | nil => rfl
  | cons c rest ih =>
    have plain := h c List.mem_cons_self
    have none_ : suffixLength (c :: rest) = 0 := by
      rw [suffixLength, if_neg]
      rw [Bool.or_eq_true, beq_iff_eq, beq_iff_eq, not_or]
      exact ⟨ne_of_isNumeralChar plain rfl, ne_of_isNumeralChar plain rfl⟩
    rw [dropSuffix, none_, if_neg (by simp), ih fun c mem => h c (List.mem_cons_of_mem _ mem)]

theorem dropSuffix_subset (cs : List Char) : dropSuffix cs ⊆ cs := by
  induction cs with
  | nil => exact fun _ h => h
  | cons c rest ih =>
    rw [dropSuffix]
    split
    · exact List.drop_subset _ _
    · exact List.cons_subset_cons c ih

theorem readBase_eq_ok {base : Nat} {cs : List Char} {i : Int} : readBase base cs = .ok i ↔
    (base = 10 → decimalLength cs ≤ digitLimit) ∧ readInteger base cs = some i := by
  rw [← readNumeral_eq_ok, readBase]
  split <;> simp_all

theorem readBase_tooLong {cs : List Char} (long : digitLimit < decimalLength cs) :
    readBase 10 cs = .error (.numeralTooLong (decimalLength cs)) := by
  rw [readBase, readNumeral, if_pos ⟨rfl, long⟩]

theorem writeDecimal_eq_ok {i : Int} {value : String} : writeDecimal i = .ok value ↔
    (Nat.toDigits 10 i.natAbs).length ≤ digitLimit ∧ value = toString i := by
  rw [writeDecimal]
  split
  · next long => simpa using fun short => absurd short (Nat.not_le.mpr long)
  · next short => simp [Nat.not_lt.mp short, eq_comm]

/-- An integer literal made from digits and signs is read in base ten. -/
theorem digits_ofDigits_eq {text : String} (plain : ∀ c ∈ text.toList, isNumeralChar c = true)
    (span : Span) : (ofDigits text span).digits = readBase 10 text.toList >>= writeDecimal := by
  have kept : text.toList.filter (· != '_') = text.toList :=
    List.filter_eq_self.mpr fun c mem => bne_iff_ne.mpr (ne_of_isNumeralChar (plain c mem) rfl)
  have whole : dropSuffix ((ofDigits text span).text.toList.filter (· != '_')) = text.toList := by
    rw [ofDigits, kept, dropSuffix_numeral plain]
  have mark (c : Char) (other : isNumeralChar c = false) (rest : List Char) :
      text.toList ≠ '0' :: c :: rest := fun eq =>
    ne_of_isNumeralChar (plain c (eq ▸ List.mem_cons_of_mem _ List.mem_cons_self)) other rfl
  rw [digits, if_pos (show (ofDigits text span).kind = .int from rfl)]
  dsimp only
  rw [whole]
  split
  · next eq => exact absurd eq (mark 'x' rfl _)
  · next eq => exact absurd eq (mark 'o' rfl _)
  · next eq => exact absurd eq (mark 'b' rfl _)
  · rfl

/-- An integer literal made from more digits than the limit allows is not read. -/
theorem digits_ofDigits_tooLong {text : String}
    (plain : ∀ c ∈ text.toList, isNumeralChar c = true)
    (long : digitLimit < decimalLength text.toList) (span : Span) :
    (ofDigits text span).digits = .error (.numeralTooLong (decimalLength text.toList)) := by
  rw [digits_ofDigits_eq plain, readBase_tooLong long]
  rfl

/-- The value of an integer literal made from digits has no zeros at its front. -/
theorem digits_ofDigits {text : String} (h : IsDecimalNumeral text.toList)
    (short : text.toList.length ≤ digitLimit) (span : Span) :
    (ofDigits text span).digits = .ok (String.ofList (withoutZeros text.toList)) := by
  rw [digits_ofDigits_eq h.numeralChars]
  refine Outcome.bind_eq_ok.mpr ⟨_, readBase_eq_ok.mpr ⟨fun _ => ?_, h.readInteger⟩, ?_⟩
  · rwa [h.decimalLength]
  · rw [writeDecimal_eq_ok, Int.natAbs_natCast, h.toDigits_ofDigitChars]
    refine ⟨Nat.le_trans (withoutZeros_suffix _).length_le short, ?_⟩
    rw [← h.toDigits_ofDigitChars]
    rfl

/-- Digits behind a negative number are its last digits. -/
theorem digits_ofDigits_negative {n : Nat} {rest : List Char}
    (digits : ∀ c ∈ rest, c.isDigit = true)
    (short : (Nat.toDigits 10 (n + 1) ++ rest).length ≤ digitLimit) (span : Span) :
    (ofDigits (String.ofList ('-' :: (Nat.toDigits 10 (n + 1) ++ rest))) span).digits
      = .ok (String.ofList ('-' :: (Nat.toDigits 10 (n + 1) ++ rest))) := by
  have numeral := (IsDecimalNumeral.toDigits (n + 1)).append_digits digits
  have read := numeral.readInteger_minus (List.forall_mem_nil _)
  rw [List.append_nil, Nat.ofDigitChars_append, Nat.ofDigitChars_ten_toDigits] at read
  have plain := numeralChars_minus numeral.numeralChars
  have written := toDigits_ofDigitChars digits (Nat.succ_pos n)
  obtain ⟨m, eq⟩ := Nat.exists_eq_add_of_le' (le_ofDigitChars rest (n + 1))
  rw [← Nat.add_assoc] at eq
  rw [Nat.succ_eq_add_one, eq] at written
  rw [digits_ofDigits_eq (by rwa [String.toList_ofList]), String.toList_ofList]
  refine Outcome.bind_eq_ok.mpr ⟨Int.negSucc (m + n), readBase_eq_ok.mpr ⟨fun _ => ?_, ?_⟩, ?_⟩
  · rwa [numeral.decimalLength_minus]
  · rw [read, eq]
    rfl
  · rw [writeDecimal_eq_ok, toString_negSucc, Int.natAbs_negSucc, Nat.succ_eq_add_one, written]
    exact ⟨short, rfl⟩

/-- A minus sign inside a numeral, which may have its own sign, makes it unreadable. -/
theorem digits_ofDigits_refused {cs rest : List Char} (h : IsDecimalNumeral cs)
    (plain : ∀ c ∈ rest, isNumeralChar c = true) {text : String} (span : Span)
    (spelled : text.toList = cs ++ '-' :: rest ∨ text.toList = '-' :: (cs ++ '-' :: rest)) :
    ∃ error, (ofDigits text span).digits = .error error := by
  have plainRest := numeralChars_minus plain
  have plainAll := List.forall_mem_append.mpr ⟨h.numeralChars, plainRest⟩
  have unread : readInteger 10 text.toList = none := by
    obtain spelled | spelled := spelled
    · rw [spelled, h.readInteger_append plainRest, readDigits_minus]
      rfl
    · rw [spelled, h.readInteger_minus plainRest, readDigits_minus]
      rfl
  have plainText : ∀ c ∈ text.toList, isNumeralChar c = true := by
    obtain spelled | spelled := spelled
    · rwa [spelled]
    · rw [spelled]
      exact numeralChars_minus plainAll
  rw [digits_ofDigits_eq plainText]
  cases read : readBase 10 text.toList with
  | error error => exact ⟨error, rfl⟩
  | ok i => cases unread.symm.trans (readBase_eq_ok.mp read).2

section

variable (i : Int) {rest : List Char} (span : Span)

/-- The digits that are counted when an integer with further digits behind it is read. -/
theorem decimalLength_joined (digits : ∀ c ∈ rest, c.isDigit = true) :
    decimalLength ((toString i).toList ++ rest)
      = ((toString i).toList ++ rest).countP Char.isDigit := by
  cases i with
  | ofNat n =>
    have numeral := (IsDecimalNumeral.toDigits n).append_digits digits
    rw [toString_ofNat, String.toList_ofList, numeral.decimalLength]
    exact (List.countP_eq_length.mpr numeral.digits).symm
  | negSucc n =>
    have numeral := (IsDecimalNumeral.toDigits (n + 1)).append_digits digits
    rw [toString_negSucc, String.toList_ofList, List.cons_append, numeral.decimalLength_minus,
      List.countP_cons_of_neg (by decide)]
    exact (List.countP_eq_length.mpr numeral.digits).symm

/-- The literal that is spelled by an integer and digits behind it has the value that it spells, if
    its digits are within the limit. -/
theorem digits_ofDigits_joined (digits : ∀ c ∈ rest, c.isDigit = true)
    (short : ((toString i).toList ++ rest).countP Char.isDigit ≤ digitLimit) :
    (ofDigits (String.ofList ((toString i).toList ++ rest)) span).digits
      = .ok (String.ofList (withoutZeros ((toString i).toList ++ rest))) := by
  rw [← decimalLength_joined i digits] at short
  cases i with
  | ofNat n =>
    have numeral := (IsDecimalNumeral.toDigits n).append_digits digits
    rw [toString_ofNat, String.toList_ofList] at short ⊢
    rw [numeral.decimalLength] at short
    rw [digits_ofDigits (by rwa [String.toList_ofList]) (by rwa [String.toList_ofList]),
      String.toList_ofList]
  | negSucc n =>
    have numeral := (IsDecimalNumeral.toDigits (n + 1)).append_digits digits
    rw [toString_negSucc, String.toList_ofList, List.cons_append] at short ⊢
    rw [numeral.decimalLength_minus] at short
    rw [digits_ofDigits_negative digits short, withoutZeros_of_ne (by decide)]

/-- Beyond the limit it is not read. -/
theorem digits_ofDigits_joined_tooLong (digits : ∀ c ∈ rest, c.isDigit = true)
    (long : digitLimit < ((toString i).toList ++ rest).countP Char.isDigit) :
    (ofDigits (String.ofList ((toString i).toList ++ rest)) span).digits
      = .error (.numeralTooLong (((toString i).toList ++ rest).countP Char.isDigit)) := by
  have plain : ∀ c ∈ (toString i).toList ++ rest, isNumeralChar c = true :=
    List.forall_mem_append.mpr ⟨isNumeralChar_toString i, fun c mem =>
      isNumeralChar_of_isDigit (digits c mem)⟩
  rw [← decimalLength_joined i digits] at long ⊢
  rw [digits_ofDigits_tooLong (by rwa [String.toList_ofList]) (by rwa [String.toList_ofList]),
    String.toList_ofList]

/-- With a minus sign behind the integer there is no value. -/
theorem digits_ofDigits_joined_signed (plain : ∀ c ∈ rest, isNumeralChar c = true)
    (signed : '-' ∈ rest) : ∃ error,
    (ofDigits (String.ofList ((toString i).toList ++ rest)) span).digits = .error error := by
  obtain ⟨inner, outer, rfl, free⟩ := List.eq_append_cons_of_mem signed
  rw [List.forall_mem_append, List.forall_mem_cons] at plain
  have digits := fun c mem => isDigit_of_isNumeralChar (plain.1 c mem) fun eq => free (eq ▸ mem)
  cases i with
  | ofNat n =>
    refine digits_ofDigits_refused ((IsDecimalNumeral.toDigits n).append_digits digits)
      plain.2.2 span (.inl ?_)
    rw [String.toList_ofList, toString_ofNat, String.toList_ofList, List.append_assoc]
  | negSucc n =>
    refine digits_ofDigits_refused ((IsDecimalNumeral.toDigits (n + 1)).append_digits digits)
      plain.2.2 span (.inr ?_)
    rw [String.toList_ofList, toString_negSucc, String.toList_ofList, List.append_assoc,
      List.cons_append]

end

/-- The value of an integer literal is written as an integer. -/
theorem digits_eq_toString {lit : Literal} {value : String} (h : lit.digits = .ok value) :
    ∃ i : Int, value = toString i := by
  rw [digits] at h
  split at h
  · obtain ⟨i, -, h⟩ := Outcome.bind_eq_ok.mp h
    exact ⟨i, (writeDecimal_eq_ok.mp h).2⟩
  · cases h

/-- The value of a literal without a minus sign is written in digits only. -/
theorem digits_unsigned {lit : Literal} (unsigned : '-' ∉ lit.text.toList) {value : String}
    (h : lit.digits = .ok value) : IsDecimalNumeral value.toList := by
  have sub : dropSuffix (lit.text.toList.filter (· != '_')) ⊆ lit.text.toList :=
    List.Subset.trans (dropSuffix_subset _) ((List.filter_sublist).subset)
  rw [digits] at h
  split at h
  · dsimp only at h
    generalize dropSuffix (lit.text.toList.filter (· != '_')) = text at h sub
    obtain ⟨i, hi, h⟩ := Outcome.bind_eq_ok.mp h
    obtain ⟨-, rfl⟩ := writeDecimal_eq_ok.mp h
    have unsigned : '-' ∉ text := fun mem => unsigned (sub mem)
    obtain ⟨n, rfl⟩ : ∃ n : Nat, i = n := by
      split at hi
      all_goals
        refine readInteger_nonneg ?_ (readBase_eq_ok.mp hi).2
        first
        | exact unsigned
        | exact fun mem => unsigned (List.mem_cons_of_mem _ (List.mem_cons_of_mem _ mem))
    rw [show toString (n : Int) = String.ofList (Nat.toDigits 10 n) from rfl, String.toList_ofList]
    exact .toDigits n
  · cases h

end Literal

end AliasExpansion
