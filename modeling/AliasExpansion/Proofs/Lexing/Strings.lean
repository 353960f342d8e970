-- SUMMARY: A string literal with another content is one lexeme, and has this content.
import AliasExpansion.Proofs.Lexing.Comments
import AliasExpansion.Proofs.Token.Literals
import Mathlib.Data.List.Infix

/-!
# String literals

A content is written as a plain string with escapes, or as a raw string inside a fence. Both texts
are one lexeme: every escape keeps its quotes and backslashes in pairs, and the end of a raw string
is the first quote that its fence follows, which a content without this terminator cannot bring
forward. So the content of a literal that was read may be replaced by any other, and the new text
is read as the new literal (`Literal.withContent_lossless`).
-/

namespace AliasExpansion

open Lexeme

-- ---------------------------------------------------------------------------
-- Escaped contents
-- ---------------------------------------------------------------------------

namespace Lexeme

variable {cs rest fence : List Char}

theorem stringLength_append_plain (plain : ∀ c ∈ cs, c ≠ '"' ∧ c ≠ '\\') (rest : List Char) :
    stringLength (cs ++ rest) = (stringLength rest).map (· + cs.length) := by
  induction cs with
  | nil => simp
  | cons c cs ih =>
    rw [List.forall_mem_cons] at plain
    rw [List.cons_append, stringLength_plain plain.1.1 plain.1.2, ih plain.2, Option.map_map]
    rfl

/-- The escape of a character does not end a string. -/
theorem stringLength_escapeChar (c : Char) (rest : List Char) :
    stringLength (Literal.escapeChar c ++ rest)
      = (stringLength rest).map (· + (Literal.escapeChar c).length) := by
  by_cases quote : c = '"'
  · subst quote; rfl
  by_cases backslash : c = '\\'
  · subst backslash; rfl
  by_cases newline : c = '\n'
  · subst newline; rfl
  by_cases return_ : c = '\r'
  · subst return_; rfl
  by_cases tab : c = '\t'
  · subst tab; rfl
  by_cases null : c = '\x00'
  · subst null; rfl
  simp only [Literal.escapeChar, beq_iff_eq, quote, backslash, newline, return_, tab, null,
    if_false]
  split
  · next control =>
    have mem : c.toNat ∈ List.range 0x20 ++ [0x7F] := by simpa using control
    obtain ⟨hex, -, -⟩ := Literal.control_digits c.toNat mem
    have digits : ∀ d ∈ Nat.toDigits 16 c.toNat, d ≠ '"' ∧ d ≠ '\\' := by
      intro d mem
      have digit := (Bool.and_eq_true_iff.mp (List.all_eq_true.mp hex d mem)).1
      constructor <;>
      · rintro rfl
        revert digit
        decide
    have braced : ∀ d ∈ '\x7b' :: (Nat.toDigits 16 c.toNat ++ ['\x7d']), d ≠ '"' ∧ d ≠ '\\' := by
      rw [List.forall_mem_cons, List.forall_mem_append, List.forall_mem_singleton]
      exact ⟨by decide, digits, by decide⟩
    have inner := stringLength_append_plain braced rest
    simp only [List.cons_append, List.append_assoc, List.nil_append, List.length_cons,
      List.length_append, List.length_nil] at inner ⊢
    rw [stringLength, inner, Option.map_map]
    rfl
  · exact stringLength_plain quote backslash rest

/-- The end of an escaped content is the quote behind it. -/
theorem stringLength_escape (cs rest : List Char) :
    stringLength (Literal.escape cs ++ '"' :: rest) = some ((Literal.escape cs).length + 1) := by
  induction cs with
  | nil => rfl
  | cons c cs ih =>
    rw [Literal.escape] at ih ⊢
    rw [List.flatMap_cons, List.append_assoc, stringLength_escapeChar, ih, List.length_append,
      Option.map_some]
    congr 1
    omega

-- ---------------------------------------------------------------------------
-- Fenced contents
-- ---------------------------------------------------------------------------

theorem holdsTerminator_iff :
    Literal.holdsTerminator fence cs = true ↔ '"' :: fence <:+: cs := by
  induction cs with
  | nil => simp [Literal.holdsTerminator]
  | cons c cs ih =>
    rw [Literal.holdsTerminator, Bool.or_eq_true, ih, List.infix_cons_iff, List.cons_prefix_cons,
      Bool.and_eq_true, beq_iff_eq, List.isPrefixOf_iff_prefix]
    simp only [eq_comm]

/-- A content without its terminator ends at the quote behind it: a fence that started inside the
    content would have to go on past this quote. -/
theorem rawStringLength_fenced (hashes : ∀ c ∈ fence, (c == '#') = true)
    (free : ¬ '"' :: fence <:+: cs) :
    rawStringLength fence (cs ++ '"' :: fence) = some (cs.length + (fence.length + 1)) := by
  have noQuote : '"' ∉ fence := fun mem => Bool.false_ne_true (hashes '"' mem)
  induction cs with
  | nil =>
    have closes : ('"' == '"' && fence.isPrefixOf fence) = true :=
      Bool.and_eq_true_iff.mpr ⟨rfl, List.isPrefixOf_iff_prefix.mpr (List.prefix_refl fence)⟩
    rw [List.nil_append, rawStringLength, if_pos closes, List.length_nil, Nat.zero_add]
  | cons c cs ih =>
    rw [List.infix_cons_iff, not_or] at free
    have open_ : ¬ (c == '"' && fence.isPrefixOf (cs ++ '"' :: fence)) = true := by
      intro closes
      obtain ⟨quote, inside⟩ := Bool.and_eq_true_iff.mp closes
      have inside := prefix_of_free (List.isPrefixOf_iff_prefix.mp inside) noQuote
      exact free.1 (List.cons_prefix_cons.mpr ⟨(beq_iff_eq.mp quote).symm, inside⟩)
    rw [List.cons_append, rawStringLength, if_neg open_, ih free.2, Option.map_some,
      List.length_cons]
    congr 1
    omega

-- ---------------------------------------------------------------------------
-- Texts that are one string
-- ---------------------------------------------------------------------------

theorem first?_string {n : Nat} (taken : stringLength rest = some n) :
    first? ('"' :: rest) = some (.string, n + 1) := by
  have string : stringShape ('"' :: rest) = some (n + 1) := by rw [stringShape, taken]; rfl
  rw [first?_visible (by decide) (noComment_of_ne (by decide) rest)]
  simp only [visibleShapes, List.findSome?_cons, afterByteMark_cons (c := '"') (by decide),
    rawStringShape_none (c := '"') (by decide), string, Option.map_none, Option.map_some]

theorem first?_rawString {n : Nat} (taken : rawStringShape ('r' :: rest) = some n) :
    first? ('r' :: rest) = some (.rawString, n) := by
  rw [first?_visible (by decide) (noComment_of_ne (by decide) rest)]
  simp only [visibleShapes, List.findSome?_cons, afterByteMark_cons (c := 'r') (by decide), taken,
    Option.map_some]

end Lexeme

/-- A text that is one lexeme other than a delimiter is read as what the lexeme stands for. -/
theorem Token.read_lexeme {cs : List Char} {kind : LexemeKind}
    (first : first? cs = some (kind, cs.length))
    (plain : ∀ delimiter, kind ≠ .opening delimiter ∧ kind ≠ .closing delimiter) :
    ∃ joint, read (String.ofList cs) = .ok (tokens ⟨kind, cs, {}, joint⟩) := by
  obtain ⟨joint, taken⟩ : ∃ joint, take kind cs.length {} (cs ++ []) = ⟨kind, cs, {}, joint⟩ :=
    ⟨_, take_eq kind {} cs []⟩
  have first : first? (cs ++ []) = some (kind, cs.length) := by rwa [List.append_nil]
  have scanned := scanAfter_lexeme first {}
  rw [scanAfter, taken, List.append_nil] at scanned
  refine ⟨joint, ?_⟩
  rw [read, scan, String.toList_ofList, scanned]
  refine (assemble_plain plain).trans ?_
  rw [assemble, List.append_nil, List.reverse_reverse]

-- ---------------------------------------------------------------------------
-- Literals with another content
-- ---------------------------------------------------------------------------

namespace Literal

variable {lit : Literal}

/-- The hashes in front of the first quote of a raw string. -/
def fence (literal : Literal) : List Char :=
  (literal.text.toList.drop 1).takeWhile (· == '#')

/-- The literal, if it is raw, is written as one: a mark, its fence, and a quote. -/
def Fenced (literal : Literal) : Prop :=
  literal.kind = .rawStr → ∃ body, literal.text.toList = 'r' :: (literal.fence ++ '"' :: body)

/-- The text of a raw string. -/
def rawText (fence content : List Char) : List Char :=
  'r' :: fence ++ '"' :: content ++ '"' :: fence

theorem fence_hashes (lit : Literal) : ∀ c ∈ lit.fence, (c == '#') = true :=
  List.all_eq_true.mp List.all_takeWhile

theorem takeWhile_fence {fence : List Char} (hashes : ∀ c ∈ fence, (c == '#') = true)
    (rest : List Char) : (fence ++ '"' :: rest).takeWhile (· == '#') = fence := by
  rw [List.takeWhile_append_of_pos hashes, List.takeWhile_cons_of_neg (by decide),
    List.append_nil]

theorem takeWhile_unquoted {fence : List Char} (hashes : ∀ c ∈ fence, (c == '#') = true)
    (rest : List Char) : (fence ++ '"' :: rest).takeWhile (· != '"') = fence := by
  have unquoted : ∀ c ∈ fence, (c != '"') = true := by
    intro c mem
    rw [beq_iff_eq.mp (hashes c mem)]
    rfl
  rw [List.takeWhile_append_of_pos unquoted, List.takeWhile_cons_of_neg (by decide),
    List.append_nil]

/-- A raw string stays raw where its content leaves the terminator out, and all else becomes a
    plain string. -/
theorem withContent_eq (fenced : lit.Fenced) (value : String) :
    lit.withContent value =
      if lit.kind = .rawStr ∧ ¬ '"' :: lit.fence <:+: value.toList then
        { kind := .rawStr, text := String.ofList (rawText lit.fence value.toList), span := lit.span }
      else ofContent value lit.span := by
  by_cases raw : lit.kind = .rawStr
  · obtain ⟨body, text⟩ := fenced raw
    have read : (lit.text.toList.drop 1).takeWhile (· != '"') = lit.fence := by
      rw [text, List.drop_succ_cons, List.drop_zero, takeWhile_unquoted lit.fence_hashes]
    simp only [withContent, read, raw, beq_self_eq_true, Bool.true_and, Bool.not_eq_true',
      ← holdsTerminator_iff, Bool.not_eq_true, true_and, rawText]
  · rw [withContent, if_neg fun cond => raw (beq_iff_eq.mp (Bool.and_eq_true_iff.mp cond).1),
      if_neg fun cond => raw cond.1]

section

variable {fence content : List Char}

theorem fenceLength_rawText (hashes : ∀ c ∈ fence, (c == '#') = true) :
    fenceLength (rawText fence content) = fence.length := by
  have mark : (rawText fence content).takeWhile (· == 'r') = ['r'] := by
    rw [rawText, List.append_assoc, List.cons_append, List.takeWhile_cons_of_pos rfl]
    cases fence with
    | nil => rfl
    | cons c fence =>
      rw [beq_iff_eq.mp (hashes c List.mem_cons_self)]
      rfl
  have hashes : ((rawText fence content).drop 1).takeWhile (· == '#') = fence := by
    rw [rawText, List.append_assoc, List.cons_append, List.drop_succ_cons, List.drop_zero,
      List.cons_append, takeWhile_fence hashes]
  rw [fenceLength, mark, List.length_singleton, hashes]
  simp

/-- What stands inside the fence is the content. -/
theorem content_rawText (hashes : ∀ c ∈ fence, (c == '#') = true) (span : Span) :
    (Literal.content { kind := .rawStr, text := String.ofList (rawText fence content), span })
      = .ok (String.ofList content) := by
  have parts : rawText fence content = ('r' :: fence ++ ['"']) ++ content ++ '"' :: fence := by
    simp [rawText]
  have inside : ((rawText fence content).take
      ((rawText fence content).length - 1 - fence.length)).drop (2 + fence.length) = content := by
    have upTo : (rawText fence content).length - 1 - fence.length
        = (('r' :: fence ++ ['"']) ++ content).length := by
      simp only [parts, List.length_append, List.length_cons, List.length_nil]
      omega
    have opening : 2 + fence.length = ('r' :: fence ++ ['"']).length := by
      simp only [List.length_append, List.length_cons, List.length_nil]
      omega
    rw [upTo, parts, List.take_left, opening, List.drop_left]
  have points : Literal.codePoints
      { kind := .rawStr, text := String.ofList (rawText fence content), span }
        = .ok (content.map .char) := by
    simp only [codePoints, String.toList_ofList, fenceLength_rawText hashes, inside]
  rw [Literal.content, points, Outcome.ok_bind, map_shown_char, Outcome.pure_eq_ok]

theorem fence_rawText (content : List Char) (hashes : ∀ c ∈ fence, (c == '#') = true)
    (span : Span) :
    Literal.fence { kind := .rawStr, text := String.ofList (rawText fence content), span }
      = fence := by
  simp only [Literal.fence, String.toList_ofList, rawText, List.append_assoc, List.cons_append,
    List.drop_succ_cons, List.drop_zero, takeWhile_fence hashes]

/-- A raw string is read as itself if its content leaves the terminator out. -/
theorem read_rawText (hashes : ∀ c ∈ fence, (c == '#') = true)
    (free : ¬ '"' :: fence <:+: content) :
    Token.read (String.ofList (rawText fence content))
      = .ok [.literal { kind := .rawStr, text := String.ofList (rawText fence content) }] := by
  have first : first? (rawText fence content)
      = some (.rawString, (rawText fence content).length) := by
    refine first?_rawString (rawStringShape_eq_some.mpr
      ⟨fence, content ++ '"' :: fence, _, ?_, hashes, rawStringLength_fenced hashes free, ?_⟩)
    · simp
    · simp only [rawText, List.length_append, List.length_cons]
      omega
  obtain ⟨joint, read⟩ := Token.read_lexeme first fun _ => ⟨nofun, nofun⟩
  exact read

end

/-- A plain string with escapes is read as itself. -/
theorem read_ofContent (value : String) (span : Span) :
    Token.read (ofContent value span).text = .ok [.literal (ofContent value)] := by
  have first : first? ('"' :: escape value.toList ++ ['"'])
      = some (.string, ('"' :: escape value.toList ++ ['"']).length) := by
    rw [List.cons_append, first?_string (stringLength_escape value.toList [])]
    simp
  obtain ⟨joint, read⟩ := Token.read_lexeme first fun _ => ⟨nofun, nofun⟩
  exact read

end Literal

-- ---------------------------------------------------------------------------
-- Literals of a source
-- ---------------------------------------------------------------------------

/-- What the raw string shape takes begins with its mark and its fence. -/
theorem Lexeme.rawString_opens {cs : List Char} {n : Nat} (h : rawStringShape cs = some n) :
    ∃ fence body, cs.take n = 'r' :: (fence ++ '"' :: body) ∧ ∀ c ∈ fence, (c == '#') = true := by
  obtain ⟨fence, content, k, rfl, hashes, -, rfl⟩ := rawStringShape_eq_some.mp h
  refine ⟨fence, content.take k, ?_, hashes⟩
  have reach : k + (fence.length + 2) = (fence.length + (k + 1)) + 1 := by omega
  rw [reach, List.take_succ_cons, List.take_length_add_append, List.take_succ_cons]

/-- The raw strings that a lexeme stands for are written as such. -/
theorem Lexeme.fenced_tokens {lexeme : Lexeme} {cs : List Char} {n : Nat}
    (first : first? cs = some (lexeme.kind, n)) (text : lexeme.text = cs.take n) {lit : Literal}
    (mem : .literal lit ∈ Token.atomsAll lexeme.tokens) : lit.Fenced := by
  intro raw
  obtain ⟨kind, _, span, joint⟩ := lexeme
  dsimp only at text first
  subst text
  cases kind with
  | rawString =>
    simp only [tokens, literal, Token.atomsAll, Token.atoms, List.append_nil,
      List.mem_singleton] at mem
    cases mem
    rcases afterByteMark_eq_some (atomShape_of_first? first (by decide)) with
      plain | ⟨rest, k, rfl, -, rfl⟩
    · obtain ⟨fence, body, taken, hashes⟩ := rawString_opens plain
      refine ⟨body, ?_⟩
      simp only [Literal.fence, String.toList_ofList, taken, List.drop_succ_cons, List.drop_zero,
        Literal.takeWhile_fence hashes]
    · cases raw
  | comment | blank | opening | closing => cases mem
  | ident | lifetime => simp [tokens, Token.atomsAll, Token.atoms] at mem
  | int | float =>
    simp only [tokens, Token.atomsAll, Token.atoms, List.append_nil, List.mem_singleton] at mem
    cases mem
    cases raw
  | char | string =>
    simp only [tokens, literal, Token.atomsAll, Token.atoms, List.append_nil,
      List.mem_singleton] at mem
    cases mem
    dsimp only at raw
    split at raw <;> cases raw
  | outerDoc | innerDoc =>
    simp [tokens, Token.docGroup, Token.atomsAll, Token.atoms] at mem
    rw [mem] at raw
    cases raw
  | punct =>
    generalize cs.take n = taken at mem
    cases taken with
    | nil => cases mem
    | cons c rest => simp [tokens, Token.atomsAll, Token.atoms] at mem

/-- The raw strings of a source are written as such. -/
theorem Literal.fenced_of_read {source : String} {tokens : List Token}
    (h : Token.read source = .ok tokens) {lit : Literal}
    (mem : .literal lit ∈ Token.atomsAll tokens) : lit.Fenced := by
  obtain ⟨lexemes, hscan, hassemble⟩ := Outcome.bind_eq_ok.mp h
  have atoms := Token.assemble_atoms hassemble
  simp only [Token.stackAtoms, List.reverse_nil, Token.atomsAll_nil, List.nil_append] at atoms
  rw [atoms] at mem
  obtain ⟨lexeme, hlexeme, mem⟩ := List.mem_flatMap.mp mem
  obtain ⟨cs, n, first, text⟩ := first?_of_mem_scanAfter hscan lexeme hlexeme
  exact Lexeme.fenced_tokens first text mem

/-- Replacing the content of a string literal loses nothing. The new literal has the new content;
    its text is read as this literal and no more; and it is raw, with the fence of the old one, just
    if the old one is and the content leaves the terminator out. A plain string made from a content
    has this content and is read as itself, too. -/
theorem Literal.withContent_lossless :
    (∀ (source : String) (tokens : List Token), Token.read source = .ok tokens →
      ∀ lit : Literal, .literal lit ∈ Token.atomsAll tokens → lit.isString = true →
      ∀ value : String,
        (lit.withContent value).content = .ok value
        ∧ Token.read (lit.withContent value).text
            = .ok [.literal { lit.withContent value with span := {} }]
        ∧ ((lit.withContent value).kind = .rawStr ∧ (lit.withContent value).fence = lit.fence
            ↔ lit.kind = .rawStr ∧ ¬ '"' :: lit.fence <:+: value.toList))
    ∧ ∀ (value : String) (span : Span),
        (ofContent value span).kind = .str
        ∧ (ofContent value span).content = .ok value
        ∧ Token.read (ofContent value span).text = .ok [.literal (ofContent value)] := by
  have plain (value : String) (span : Span) :
      (ofContent value span).kind = .str ∧ (ofContent value span).content = .ok value
        ∧ Token.read (ofContent value span).text = .ok [.literal (ofContent value)] :=
    ⟨rfl, content_ofContent value span, read_ofContent value span⟩
  refine ⟨fun source tokens read lit mem _ value => ?_, plain⟩
  have hashes := lit.fence_hashes
  rw [withContent_eq (fenced_of_read read mem)]
  by_cases raw : lit.kind = .rawStr ∧ ¬ '"' :: lit.fence <:+: value.toList
  · rw [if_pos raw]
    have fenced : Literal.fence { kind := .rawStr, text := _, span := lit.span } = lit.fence :=
      fence_rawText value.toList hashes lit.span
    refine ⟨?_, read_rawText hashes raw.2, iff_of_true ⟨rfl, fenced⟩ raw⟩
    rw [content_rawText hashes, String.ofList_toList]
  · rw [if_neg raw]
    refine ⟨(plain value lit.span).2.1, (plain value lit.span).2.2, iff_of_false ?_ raw⟩
    rintro ⟨kind, -⟩
    cases kind

/-- A raw string whose fence is two hashes takes a content with a partial fence as it is, and a
    content with its terminator in escapes. -/
theorem Literal.withContent_lossless_fence :
    ∃ lit : Literal, lit.text = "r##\"\"##"
      ∧ (lit.withContent "\"#").text = "r##\"\"#\"##" ∧ (lit.withContent "\"#").content = .ok "\"#"
      ∧ (lit.withContent "\"##").text = "\"\\\"##\""
      ∧ (lit.withContent "\"##").content = .ok "\"##" := by
  have read : Token.read "r##\"\"##" = .ok [.literal { kind := .rawStr, text := "r##\"\"##" }] := by
    decide +kernel
  have lossless := fun value => withContent_lossless.1 _ _ read
    { kind := .rawStr, text := "r##\"\"##" } (List.mem_singleton.mpr rfl) rfl value
  exact ⟨_, rfl, by decide +kernel, (lossless _).1, by decide +kernel, (lossless _).1⟩

end AliasExpansion
