-- SUMMARY: A space in place of a dropped comment leaves the token trees of a source as they are.
import AliasExpansion.Proofs.Lexing.Comments

/-!
# Comments are white space

A comment stands for no tokens and separates its neighbours, as white space does. With a single
space in its place the scan finds the same lexemes in front (`Lexeme.first?_kept`) and behind, and
the trees assembled from them are the same up to their spans (`Token.read_blanked`). A quote on its
own in front and a quote behind are left out: with a space between them they are a character literal
(`Lexeme.QuotesMeet`). The joint flag of a punctuation character is about the character that
follows, so the flag of one directly in front of the comment is left open; every other flag stays.
-/

namespace AliasExpansion

namespace Lexeme

variable {cs : List Char} {kind : LexemeKind} {n : Nat}

-- ---------------------------------------------------------------------------
-- Lexemes that are the same
-- ---------------------------------------------------------------------------

/-- The lexeme stands for no tokens and separates its neighbours. -/
def isSpace (lexeme : Lexeme) : Bool :=
  lexeme.kind == .comment || lexeme.kind == .blank

/-- The lexemes without comments and white space. -/
def solid (lexemes : List Lexeme) : List Lexeme :=
  lexemes.filter (!·.isSpace)

/-- The same lexeme, wherever it stands. The joint flag of punctuation at `place` is left open. -/
structure SameAt (place : Option Span) (lexeme lexeme' : Lexeme) : Prop where
  kind : lexeme'.kind = lexeme.kind
  text : lexeme'.text = lexeme.text
  joint : lexeme.kind = .punct →
    lexeme'.joint = lexeme.joint ∨ some lexeme.span = place ∧ some lexeme'.span = place

variable {place : Option Span} {lexeme lexeme' : Lexeme}
  {front back lexemes lexemes' others : List Lexeme} {skip : Nat} {span : Span}

theorem SameAt.isSpace_eq (h : SameAt place lexeme lexeme') : lexeme'.isSpace = lexeme.isSpace := by
  simp only [isSpace, h.kind]

theorem solid_cons (same : SameAt place lexeme lexeme')
    (h : List.Forall₂ (SameAt place) (solid others) (solid lexemes')) :
    List.Forall₂ (SameAt place) (solid (lexeme :: others)) (solid (lexeme' :: lexemes')) := by
  unfold solid at h ⊢
  cases space : lexeme.isSpace with
  | true =>
    rw [List.filter_cons_of_neg (by simp [space]),
      List.filter_cons_of_neg (by simp [same.isSpace_eq, space])]
    exact h
  | false =>
    rw [List.filter_cons_of_pos (by simp [space]),
      List.filter_cons_of_pos (by simp [same.isSpace_eq, space])]
    exact .cons same h

theorem solid_space (space : lexeme.isSpace = true) (lexemes : List Lexeme) :
    solid (lexeme :: lexemes) = solid lexemes := by
  simp [solid, space]

-- ---------------------------------------------------------------------------
-- Scanning with a space in place of a comment
-- ---------------------------------------------------------------------------

theorem scanAfter_drop (skip : Nat) (span : Span) (cs : List Char) :
    ∃ span', scanAfter skip span cs = scanAfter 0 span' (cs.drop skip) := by
  induction cs generalizing skip span with
  | nil => exact ⟨span, by simp [scanAfter]⟩
  | cons c rest ih =>
    cases skip with
    | zero => exact ⟨span, rfl⟩
    | succ skip =>
      rw [scanAfter, List.drop_succ_cons]
      exact ih skip _

/-- What a scan says of the first of its lexemes. -/
theorem scanAfter_eq_cons (h : scanAfter 0 span cs = .ok (lexeme :: others)) :
    ∃ n span', first? cs = some (lexeme.kind, n) ∧ lexeme = take lexeme.kind n span cs
      ∧ scanAfter 0 span' (cs.drop n) = .ok others := by
  cases cs with
  | nil =>
    rw [scanAfter] at h
    cases h
  | cons c rest =>
    cases first : first? (c :: rest) with
    | none =>
      rw [scanAfter, first] at h
      cases h
    | some entry =>
      obtain ⟨kind, n⟩ := entry
      obtain ⟨span', drop⟩ := scanAfter_drop (n - 1) (span.advance c) rest
      rw [scanAfter_cons first, drop] at h
      obtain ⟨others', later, eq⟩ := Outcome.map_eq_ok.mp h
      cases eq
      have behind : (c :: rest).drop n = rest.drop (n - 1) := by
        cases n with
        | zero => exact absurd (first?_positive first) (Nat.lt_irrefl 0)
        | succ n => rfl
      exact ⟨n, span', rfl, rfl, behind ▸ later⟩

theorem scanAfter_shift (h : scanAfter skip span cs = .ok lexemes) (span' : Span) :
    ∃ lexemes', scanAfter skip span' cs = .ok lexemes'
      ∧ ∀ place, List.Forall₂ (SameAt place) (solid lexemes) (solid lexemes') := by
  induction cs generalizing skip span span' lexemes with
  | nil =>
    rw [scanAfter] at h ⊢
    cases h
    exact ⟨[], rfl, fun _ => .nil⟩
  | cons c rest ih =>
    cases skip with
    | succ skip =>
      rw [scanAfter] at h ⊢
      exact ih h _
    | zero =>
      cases first : first? (c :: rest) with
      | none =>
        rw [scanAfter, first] at h
        cases h
      | some entry =>
        rw [scanAfter_cons first] at h ⊢
        obtain ⟨others, later, rfl⟩ := Outcome.map_eq_ok.mp h
        obtain ⟨others', later', same⟩ := ih later (span'.advance c)
        rw [later']
        exact ⟨_, rfl, fun place => solid_cons ⟨rfl, rfl, fun _ => .inl rfl⟩ (same place)⟩

/-- The text is scanned as `reference` wherever it stands, up to comments and white space. -/
def ScansAs (reference : List Lexeme) (cs : List Char) : Prop :=
  ∀ span, ∃ lexemes, scanAfter 0 span cs = .ok lexemes
    ∧ ∀ place, List.Forall₂ (SameAt place) (solid reference) (solid lexemes)

theorem scansAs_of_ok (h : scanAfter 0 span cs = .ok lexemes) : ScansAs lexemes cs :=
  scanAfter_shift h

/-- A blank in front is not seen: it becomes part of the white space that follows, if there is
    any. -/
theorem ScansAs.blank {c : Char} (h : ScansAs lexemes cs) (blank : Text.isBlank c = true) :
    ScansAs lexemes (c :: cs) := by
  intro span
  have first := first?_blank blank cs
  have space : (take .blank (1 + run Text.isBlank cs) span (c :: cs)).isSpace = true := rfl
  obtain ⟨scanned, ok, same⟩ := h (span.advance c)
  rw [scanAfter_cons first, Nat.add_sub_cancel_left]
  cases cs with
  | nil =>
    rw [scanAfter] at ok ⊢
    cases ok
    exact ⟨_, rfl, fun place => by rw [solid_space space]; exact same place⟩
  | cons d rest =>
    cases more : Text.isBlank d with
    | false =>
      rw [run_cons_of_neg more, ok]
      exact ⟨_, rfl, fun place => by rw [solid_space rfl]; exact same place⟩
    | true =>
      rw [scanAfter_cons (first?_blank more rest), Nat.add_sub_cancel_left] at ok
      obtain ⟨others, later, rfl⟩ := Outcome.map_eq_ok.mp ok
      rw [run_cons_of_pos more, scanAfter, later]
      refine ⟨_, rfl, fun place => ?_⟩
      rw [solid_space rfl]
      have same := same place
      rwa [solid_space rfl] at same

theorem ScansAs.blanks {blanks : List Char} (h : ScansAs lexemes cs)
    (all : ∀ c ∈ blanks, Text.isBlank c = true) : ScansAs lexemes (blanks ++ cs) := by
  induction blanks with
  | nil => exact h
  | cons c blanks ih =>
    rw [List.forall_mem_cons] at all
    exact (ih all.2).blank all.1

/-- Nor is a blank missed that stood in front. -/
theorem scansAs_of_blank {c : Char} (h : scanAfter 0 span (c :: cs) = .ok lexemes)
    (blank : Text.isBlank c = true) : ScansAs lexemes cs := by
  rw [scanAfter_cons (first?_blank blank cs), Nat.add_sub_cancel_left] at h
  obtain ⟨others, later, rfl⟩ := Outcome.map_eq_ok.mp h
  obtain ⟨span', drop⟩ := scanAfter_drop (run Text.isBlank cs) (span.advance c) cs
  rw [drop, drop_run] at later
  have blanks : ∀ d ∈ cs.takeWhile Text.isBlank, Text.isBlank d = true :=
    fun d mem => List.all_eq_true.mp List.all_takeWhile d mem
  have whole := (scansAs_of_ok later).blanks blanks
  rw [List.takeWhile_append_dropWhile] at whole
  intro span'
  obtain ⟨lexemes', scanned, same⟩ := whole span'
  refine ⟨lexemes', scanned, fun place => ?_⟩
  rw [solid_space rfl]
  exact same place

/-- The characters of some lexemes. -/
abbrev spelled (lexemes : List Lexeme) : List Char :=
  lexemes.flatMap Lexeme.text

/-- What the scan of a text with a comment in it says of its first lexeme: it takes its own text,
    and the rest is the other lexemes'. -/
theorem scanAfter_eq_cons_append {comment : Lexeme}
    (h : scanAfter 0 span cs = .ok (lexeme :: (front ++ comment :: back))) :
    cs = lexeme.text ++ (spelled front ++ (comment.text ++ spelled back))
      ∧ first? cs = some (lexeme.kind, lexeme.text.length)
      ∧ lexeme = take lexeme.kind lexeme.text.length span cs
      ∧ scanAfter 0 (lexeme.text.foldl Span.advance span)
          (spelled front ++ (comment.text ++ spelled back)) = .ok (front ++ comment :: back) := by
  obtain ⟨spells, ne⟩ := scanAfter_spells h
  have text : cs = lexeme.text ++ (spelled front ++ (comment.text ++ spelled back)) := by
    simpa using spells.symm
  obtain ⟨n, span', first, eq, -⟩ := scanAfter_eq_cons h
  have taken : lexeme.text = cs.take n := congrArg Lexeme.text eq
  have short : lexeme.text.length < cs.length := by
    have solid := List.length_pos_of_ne_nil (ne comment (by simp))
    rw [text]
    simp only [List.length_append]
    omega
  have length : n = lexeme.text.length := by
    have := congrArg List.length taken
    rw [List.length_take] at this
    omega
  subst length
  refine ⟨text, first, eq, ?_⟩
  have scanned := scanAfter_lexeme (text ▸ first) span
  rw [← text, h] at scanned
  obtain ⟨others, later, eq'⟩ := Outcome.map_eq_ok.mp scanned.symm
  rw [later, (List.cons.inj eq').2]

/-- A comment that a scan comes to, and what the scan makes of the text behind it. -/
theorem comment_of_scanAfter {comment : Lexeme}
    (h : scanAfter 0 span cs = .ok (front ++ comment :: back)) (dropped : comment.kind = .comment) :
    Comment comment.text (spelled back) ∧ ScansAs back (spelled back) := by
  induction front generalizing span cs with
  | nil =>
    obtain ⟨n, span', first, eq, later⟩ := scanAfter_eq_cons h
    have spells : spelled back = cs.drop n := (scanAfter_spells later).1
    have text : comment.text = cs.take n := congrArg Lexeme.text eq
    rw [dropped] at first
    rw [text, spells]
    exact ⟨comment_of_first? first, scansAs_of_ok later⟩
  | cons lexeme front ih => exact ih (scanAfter_eq_cons_append h).2.2.2

/-- A quote on its own stands in front, and a quote behind: with a space between them, they are the
    character literal of the space. -/
def QuotesMeet (front back : List Lexeme) : Prop :=
  (∃ quote ∈ front.getLast?, quote.text = ['\'']) ∧ (spelled back).head? = some '\''

theorem le_run {p : Char → Bool} (all : ∀ c ∈ cs, p c = true) (tail : List Char) :
    cs.length ≤ run p (cs ++ tail) := by
  rw [run, List.takeWhile_append_of_pos all]
  simp

theorem lineLength_of_free (free : '\n' ∉ cs) (tail : List Char) :
    cs.length ≤ lineLength (cs ++ tail) := by
  refine le_run (fun c mem => ?_) tail
  simp only [bne_iff_ne]
  rintro rfl
  exact free mem

theorem first?_byteQuote {mark : Char} (ne : mark = '/' ∨ mark = '*') (rest : List Char) :
    first? ('b' :: '\'' :: '/' :: mark :: rest) = some (.ident, 1) := by
  have unclosed : charShape ('\'' :: '/' :: mark :: rest) = none := by
    refine charShape_unclosed (by decide) fun c mem => ?_
    cases mem
    rcases ne with rfl | rfl <;> decide
  have ident : identShape ('b' :: '\'' :: '/' :: mark :: rest) = some 1 := by
    have start : Text.isNameStart 'b' = true := by decide +kernel
    have stop : Text.isWordChar '\'' = false := by decide +kernel
    simp [identShape, nameShape, start, run, stop]
  have digit : Text.isDecimal 'b' = false := by decide
  rw [first?_visible (by decide) (noComment_of_ne (by decide) _)]
  simp only [visibleShapes, List.findSome?_cons, afterByteMark,
    rawStringShape_none (c := '\'') (by decide), stringShape_none (c := '\'') (by decide), unclosed,
    lifetimeShape_none (c := 'b') (by decide), floatShape_none digit, intShape_none digit, ident,
    Option.map_none, Option.map_some]

/-- One character is spelled by one lexeme. -/
theorem spelled_eq_singleton {c : Char} (ne : ∀ lexeme ∈ lexemes, lexeme.text ≠ [])
    (h : spelled lexemes = [c]) : ∃ lexeme, lexemes = [lexeme] ∧ lexeme.text = [c] := by
  cases lexemes with
  | nil => cases h
  | cons lexeme others =>
    rw [List.forall_mem_cons] at ne
    rw [spelled, List.flatMap_cons] at h
    rcases List.append_eq_singleton_iff.mp h with ⟨empty, -⟩ | ⟨text, none⟩
    · exact absurd empty ne.1
    · cases others with
      | nil => exact ⟨lexeme, rfl, text⟩
      | cons other others =>
        rw [List.flatMap_cons, List.append_eq_nil_iff] at none
        exact absurd none.1 (ne.2 other List.mem_cons_self)

/-- What a scan finds in front of a comment, up to the first blank, stands apart from it. -/
theorem apart_of_scanAfter {comment : Lexeme}
    (h : scanAfter 0 span cs = .ok (lexeme :: (front ++ comment :: back)))
    (dropped : comment.kind = .comment) (apart : ¬ QuotesMeet (lexeme :: front) back)
    (visible : ∃ c ∈ spelled (lexeme :: front), Text.isBlank c = false) :
    Apart (spelled (lexeme :: front)) (spelled back) := by
  obtain ⟨text, first, -, later⟩ := scanAfter_eq_cons_append h
  obtain ⟨mark, tail, opens, isMark⟩ := (comment_of_scanAfter later dropped).1.opens
  have ne : ∀ l ∈ lexeme :: front, l.text ≠ [] :=
    fun l mem => (scanAfter_spells h).2 l (List.mem_append_left (comment :: back) mem)
  refine ⟨visible, ?_, ?_⟩
  · intro rest eq
    by_contra free
    have whole : cs = '/' :: '/' :: (rest ++ (mark :: tail ++ spelled back)) := by
      have parts : cs = spelled (lexeme :: front) ++ ['/'] ++ (mark :: tail ++ spelled back) := by
        rw [text, opens]
        simp
      rw [parts, eq]
      rfl
    rw [whole] at first
    have taken := first?_line first
    have long := lineLength_of_free free (mark :: tail ++ spelled back)
    have inside := congrArg List.length eq
    simp only [List.flatMap_cons, List.length_append, List.length_cons, List.length_nil] at inside
    omega
  · intro quote head
    refine apart ⟨?_, head⟩
    cases quote with
    | inl alone =>
      obtain ⟨quote, eq, isQuote⟩ := spelled_eq_singleton ne alone
      exact ⟨quote, by rw [eq]; rfl, isQuote⟩
    | inr byte =>
      -- the `b` is a name, since no literal starts here
      have whole : cs = 'b' :: '\'' :: '/' :: mark :: (tail ++ spelled back) := by
        have parts : cs = spelled (lexeme :: front) ++ ('/' :: mark :: tail ++ spelled back) := by
          rw [text, opens]
          simp
        rw [parts, byte]
        rfl
      rw [whole, first?_byteQuote isMark] at first
      have length := (Prod.mk.inj (Option.some.inj first)).2
      obtain ⟨c, one⟩ := List.length_eq_one_iff.mp length.symm
      rw [spelled, List.flatMap_cons, one] at byte
      obtain ⟨quote, eq, isQuote⟩ := spelled_eq_singleton
        (fun l mem => ne l (List.mem_cons_of_mem _ mem)) (List.cons.inj byte).2
      exact ⟨quote, by rw [eq]; rfl, isQuote⟩

/-- The text of `front` is white space, so it is one lexeme. -/
theorem front_eq_nil {comment : Lexeme}
    (h : scanAfter 0 span cs = .ok (lexeme :: (front ++ comment :: back)))
    (blank : ∀ c ∈ spelled (lexeme :: front), Text.isBlank c = true) :
    lexeme.isSpace = true ∧ front = [] := by
  obtain ⟨text, first, -, -⟩ := scanAfter_eq_cons_append h
  have ne := (scanAfter_spells h).2
  have solid := ne lexeme List.mem_cons_self
  replace blank : ∀ c ∈ lexeme.text ++ spelled front, Text.isBlank c = true := blank
  cases opens : lexeme.text with
  | nil => exact absurd opens solid
  | cons c rest =>
    rw [opens, List.cons_append, List.forall_mem_cons] at blank
    rw [text, opens, List.cons_append, first?_blank blank.1] at first
    cases kind : lexeme.kind with
    | blank =>
      refine ⟨by simp [isSpace, kind], ?_⟩
      have length := (Prod.mk.inj (Option.some.inj first)).2
      have long := le_run blank.2 (comment.text ++ spelled back)
      rw [List.append_assoc] at long
      simp only [List.length_append, List.length_cons] at long length
      have empty : spelled front = [] := List.length_eq_zero_iff.mp (by omega)
      cases front with
      | nil => rfl
      | cons other front =>
        rw [spelled, List.flatMap_cons, List.append_eq_nil_iff] at empty
        exact absurd empty.1 (ne other (by simp))
    | _ => simp [kind] at first

/-- The scan with a space in place of the comment. -/
theorem scanAfter_blanked {comment : Lexeme}
    (h : scanAfter 0 span cs = .ok (front ++ comment :: back)) (dropped : comment.kind = .comment)
    (apart : ¬ QuotesMeet front back)
    (placed : ∀ last ∈ front.getLast?, last.kind = .punct → some last.span = place) :
    ∃ lexemes', scanAfter 0 span (spelled front ++ ' ' :: spelled back) = .ok lexemes'
      ∧ List.Forall₂ (SameAt place) (solid (front ++ comment :: back)) (solid lexemes') := by
  have space : comment.isSpace = true := by simp [isSpace, dropped]
  obtain ⟨isComment, scansAs⟩ := comment_of_scanAfter h dropped
  induction front generalizing span cs with
  | nil =>
    obtain ⟨lexemes', scanned, same⟩ := scansAs.blank (c := ' ') (by decide) span
    refine ⟨lexemes', scanned, ?_⟩
    rw [List.nil_append, solid_space space]
    exact same place
  | cons lexeme front ih =>
    obtain ⟨text, first, eq, later⟩ := scanAfter_eq_cons_append h
    by_cases visible : ∃ c ∈ spelled (lexeme :: front), Text.isBlank c = false
    · obtain ⟨lexemes', scanned, same⟩ := ih later
        (fun ⟨⟨quote, mem, isQuote⟩, meet⟩ =>
          apart ⟨⟨quote, List.mem_getLast?_cons mem, isQuote⟩, meet⟩)
        fun last mem => placed last (List.mem_getLast?_cons mem)
      have first' : first? (lexeme.text ++ (spelled front ++ ' ' :: spelled back))
          = some (lexeme.kind, lexeme.text.length) := by
        have before : first? (spelled (lexeme :: front) ++ (comment.text ++ spelled back))
            = some (lexeme.kind, lexeme.text.length) := by simpa [text] using first
        have apart := apart_of_scanAfter h dropped apart visible
        simpa using first?_kept isComment apart before (by simp)
      have scanned' := scanAfter_lexeme first' span
      rw [scanned] at scanned'
      refine ⟨_, (by simpa using scanned'), solid_cons ?_ same⟩
      rw [text, take_eq] at eq
      rw [take_eq]
      refine ⟨rfl, rfl, fun punct => ?_⟩
      -- only the last lexeme in front has another character behind it
      cases front with
      | nil =>
        have here : some lexeme.span = place := placed lexeme rfl punct
        exact .inr ⟨here, by rw [← here, eq]⟩
      | cons other front =>
        have solid := (scanAfter_spells later).2 other List.mem_cons_self
        refine .inl ?_
        rw [eq]
        cases opens : other.text with
        | nil => exact absurd opens solid
        | cons c rest => simp [spelled, opens]
    · have blank : ∀ c ∈ spelled (lexeme :: front), Text.isBlank c = true := by
        intro c mem
        by_contra not
        exact visible ⟨c, mem, Bool.eq_false_iff.mpr not⟩
      obtain ⟨space', rfl⟩ := front_eq_nil h blank
      obtain ⟨lexemes', scanned, same⟩ := (scansAs.blank (c := ' ') (by decide)).blanks blank span
      refine ⟨lexemes', scanned, ?_⟩
      rw [List.cons_append, List.nil_append, solid_space space', solid_space space]
      exact same place

end Lexeme

-- ---------------------------------------------------------------------------
-- Trees that are the same
-- ---------------------------------------------------------------------------

namespace Token

open Lexeme

/-- The same token, wherever it stands. The joint flag of punctuation at `place` is left open. -/
inductive Reglued (place : Option Span) : Token → Token → Prop where
  | ident {name span span'} : Reglued place (.ident name span) (.ident name span')
  | punct {c joint joint' span span'}
      (flag : joint' = joint ∨ some span = place ∧ some span' = place) :
      Reglued place (.punct c joint span) (.punct c joint' span')
  | literal {lit lit' : Literal} (kind : lit'.kind = lit.kind) (text : lit'.text = lit.text)
      (lone : lit'.lone = lit.lone) : Reglued place (.literal lit) (.literal lit')
  | group {delimiter content content' span span'}
      (inside : List.Forall₂ (Reglued place) content content') :
      Reglued place (.group delimiter content span) (.group delimiter content' span')

mutual

/-- With no flag left open, the tokens differ in their spans only. -/
theorem Reglued.bare_eq {token token' : Token} (h : Reglued none token token') :
    token'.bare = token.bare := by
  match token, h with
  | .ident _ _, .ident => rfl
  | .punct _ _ _, .punct flag =>
    obtain rfl := flag.resolve_right fun open_ => nomatch open_.1
    rfl
  | .literal _, .literal kind text lone => simp [bare, kind, text, lone]
  | .group _ _ _, .group inside => rw [bare, bare, bareAll_eq_of_reglued inside]

theorem bareAll_eq_of_reglued {tokens tokens' : List Token}
    (h : List.Forall₂ (Reglued none) tokens tokens') : bareAll tokens' = bareAll tokens := by
  match tokens, h with
  | [], .nil => rfl
  | _ :: _, .cons head tail => rw [bareAll, bareAll, head.bare_eq, bareAll_eq_of_reglued tail]

end

variable {place : Option Span} {stack stack' : List OpenGroup}
  {content content' tokens : List Token} {lexeme lexeme' : Lexeme} {lexemes lexemes' : List Lexeme}

theorem reglued_docGroup (text : String) (span span' : Span) :
    Reglued place (docGroup text span) (docGroup text span') :=
  .group (.cons .ident (.cons (.punct (.inl rfl)) (.cons (.literal rfl rfl rfl) .nil)))

/-- The same lexeme stands for the same tokens. -/
theorem reglued_tokens (same : SameAt place lexeme lexeme') :
    List.Forall₂ (Reglued place) lexeme.tokens lexeme'.tokens := by
  obtain ⟨kind, text, span, joint⟩ := lexeme
  obtain ⟨kind', text', span', joint'⟩ := lexeme'
  obtain rfl : kind' = kind := same.kind
  obtain rfl : text' = text := same.text
  cases kind' with
  | comment | blank | opening | closing => exact .nil
  | ident => exact .cons .ident .nil
  | punct =>
    cases text' with
    | nil => exact .nil
    | cons c text' => exact .cons (.punct (same.joint rfl)) .nil
  | lifetime => exact .cons (.punct (.inl rfl)) (.cons .ident .nil)
  | int | float | char | string | rawString => exact .cons (.literal rfl rfl rfl) .nil
  | outerDoc => exact .cons (.punct (.inl rfl)) (.cons (reglued_docGroup _ _ _) .nil)
  | innerDoc =>
    refine .cons (.punct (.inl rfl)) (.cons (.punct (.inl rfl)) ?_)
    exact .cons (reglued_docGroup _ _ _) .nil

theorem assemble_solid (lexemes : List Lexeme) :
    assemble stack content (solid lexemes) = assemble stack content lexemes := by
  induction lexemes generalizing stack content with
  | nil => rfl
  | cons lexeme rest ih =>
    cases space : lexeme.isSpace with
    | true =>
      have nothing : lexeme.tokens = [] := by
        simp only [isSpace, Bool.or_eq_true, beq_iff_eq] at space
        cases space <;> simp_all [Lexeme.tokens]
      have plain : ∀ delimiter,
          lexeme.kind ≠ .opening delimiter ∧ lexeme.kind ≠ .closing delimiter := by
        intro delimiter
        constructor <;>
        · intro kind
          simp [isSpace, kind] at space
      rw [solid_space space, assemble_plain plain, nothing, ih]
      rfl
    | false =>
      have stays : solid (lexeme :: rest) = lexeme :: solid rest := by simp [solid, space]
      rw [stays, assemble.eq_def, assemble.eq_def stack content (lexeme :: rest)]
      simp only [ih]

/-- An open group of one assembly and the same one of another. -/
structure OpenSame (place : Option Span) (opened opened' : OpenGroup) : Prop where
  delimiter : opened'.delimiter = opened.delimiter
  before : List.Forall₂ (Reglued place) opened.before opened'.before

/-- Assembling the same lexemes gives the same trees. -/
theorem assemble_reglued (same : List.Forall₂ (SameAt place) lexemes lexemes')
    (hstack : List.Forall₂ (OpenSame place) stack stack')
    (hcontent : List.Forall₂ (Reglued place) content content')
    (h : assemble stack content lexemes = .ok tokens) :
    ∃ tokens', assemble stack' content' lexemes' = .ok tokens'
      ∧ List.Forall₂ (Reglued place) tokens tokens' := by
  induction same generalizing stack stack' content content' with
  | nil =>
    cases hstack with
    | nil =>
      rw [assemble] at h ⊢
      cases h
      exact ⟨_, rfl, List.rel_reverse hcontent⟩
    | cons => cases h
  | @cons lexeme lexeme' _ _ head tail ih =>
    by_cases opening : ∃ delimiter, lexeme.kind = .opening delimiter
    · obtain ⟨delimiter, kind⟩ := opening
      rw [assemble_opening kind] at h
      rw [assemble_opening (head.kind.trans kind)]
      have opened : OpenSame place ⟨delimiter, lexeme.span, content⟩
          ⟨delimiter, lexeme'.span, content'⟩ := ⟨rfl, hcontent⟩
      exact ih (.cons opened hstack) .nil h
    by_cases closing : ∃ delimiter, lexeme.kind = .closing delimiter
    · obtain ⟨delimiter, kind⟩ := closing
      cases hstack with
      | nil =>
        rw [assemble, kind] at h
        cases h
      | cons opened hstack =>
        rw [assemble, kind] at h
        rw [assemble, head.kind.trans kind]
        simp only at h ⊢
        split at h
        · next fits =>
          rw [if_pos (opened.delimiter.trans fits)]
          exact ih hstack (.cons (.group (List.rel_reverse hcontent)) opened.before) h
        · cases h
    · have plain : ∀ delimiter,
          lexeme.kind ≠ .opening delimiter ∧ lexeme.kind ≠ .closing delimiter :=
        fun delimiter => ⟨fun kind => opening ⟨_, kind⟩, fun kind => closing ⟨_, kind⟩⟩
      rw [assemble_plain plain] at h
      rw [assemble_plain (by simpa only [head.kind] using plain)]
      exact ih hstack (List.rel_append (List.rel_reverse (reglued_tokens head)) hcontent) h

-- ---------------------------------------------------------------------------
-- Reading with a space in place of a comment
-- ---------------------------------------------------------------------------

/-- The source with a single space in place of what stands between `front` and `back`. -/
def blanked (front back : List Lexeme) : String :=
  String.ofList (spelled front ++ ' ' :: spelled back)

/-- Where the punctuation character directly in front of a comment stands, if there is one. -/
def gluePlace (front : List Lexeme) : Option Span :=
  (front.getLast?.filter (·.kind == .punct)).map Lexeme.span

/-- A comment is white space: with a single space in its place, a source has the same token trees,
    spans ignored, unless a quote on its own stands directly in front of the comment and a quote
    directly behind. The joint flags are the same, too; only the one of a punctuation character
    directly in front of the comment is left open. -/
theorem read_blanked {source : String} {front back : List Lexeme} {comment : Lexeme}
    {tokens : List Token} (scanned : scan source = .ok (front ++ comment :: back))
    (dropped : comment.kind = .comment) (hread : read source = .ok tokens)
    (apart : ¬ QuotesMeet front back) :
    source.toList = spelled front ++ (comment.text ++ spelled back)
      ∧ ∃ tokens', read (blanked front back) = .ok tokens'
        ∧ List.Forall₂ (Reglued (gluePlace front)) tokens tokens'
        ∧ ((∀ last ∈ front.getLast?, last.kind ≠ .punct) → bareAll tokens' = bareAll tokens) := by
  have placed : ∀ last ∈ front.getLast?, last.kind = .punct → some last.span = gluePlace front := by
    intro last mem punct
    simp [gluePlace, Option.mem_def.mp mem, Option.filter, punct]
  obtain ⟨lexemes', scanned', same⟩ := scanAfter_blanked scanned dropped apart placed
  rw [read, scanned, Outcome.ok_bind, ofLexemes, ← assemble_solid] at hread
  obtain ⟨tokens', assembled, reglued⟩ := assemble_reglued same .nil .nil hread
  refine ⟨?_, tokens', ?_, reglued, fun other => ?_⟩
  · have spells := (scanAfter_spells scanned).1
    simpa using spells.symm
  · rw [read, scan, blanked, String.toList_ofList, scanned', Outcome.ok_bind, ofLexemes,
      ← assemble_solid, assembled]
  · have open_ : gluePlace front = none := by
      cases last : front.getLast? with
      | none => simp [gluePlace, last]
      | some lexeme => simp [gluePlace, last, Option.filter, other lexeme last]
    rw [open_] at reglued
    exact bareAll_eq_of_reglued reglued

/-- The comment of `&/*m*/'a x` stands directly behind punctuation, whose flag is left open. -/
theorem read_blanked_lifetime :
    ∃ front comment back tokens, scan "&/*m*/'a x" = .ok (front ++ comment :: back)
      ∧ comment.kind = .comment ∧ read "&/*m*/'a x" = .ok tokens ∧ ¬ QuotesMeet front back
      ∧ ∃ tokens', read (blanked front back) = .ok tokens'
        ∧ List.Forall₂ (Reglued (some { line := 1, column := 1 })) tokens tokens' := by
  let front : List Lexeme := [⟨.punct, ['&'], { line := 1, column := 1 }, true⟩]
  let comment : Lexeme := ⟨.comment, "/*m*/".toList, { line := 1, column := 2 }, false⟩
  let back : List Lexeme :=
    [⟨.lifetime, "'a".toList, { line := 1, column := 7 }, false⟩,
      ⟨.blank, [' '], { line := 1, column := 9 }, false⟩,
      ⟨.ident, ['x'], { line := 1, column := 10 }, false⟩]
  let tokens : List Token :=
    [.punct '&' true { line := 1, column := 1 }, .punct '\'' true { line := 1, column := 7 },
      .ident "a" { line := 1, column := 7 }, .ident "x" { line := 1, column := 10 }]
  have scanned : scan "&/*m*/'a x" = .ok (front ++ comment :: back) := by decide +kernel
  have hread : read "&/*m*/'a x" = .ok tokens := by rfl
  have apart : ¬ QuotesMeet front back := by
    rintro ⟨⟨quote, mem, text⟩, -⟩
    cases mem
    cases text
  obtain ⟨-, tokens', hread', reglued, -⟩ := read_blanked scanned rfl hread apart
  exact ⟨front, comment, back, tokens, scanned, rfl, hread, apart, tokens', hread', reglued⟩

/-- The two quotes of `'/**/'` stand apart, and with a space between them they are one literal. -/
theorem quotes_meet :
    ∃ front comment back tokens tokens', scan "'/**/'" = .ok (front ++ comment :: back)
      ∧ comment.kind = .comment ∧ read "'/**/'" = .ok tokens
      ∧ read (blanked front back) = .ok tokens' ∧ bareAll tokens' ≠ bareAll tokens := by
  let quote (column : Nat) (joint : Bool) : Lexeme := ⟨.punct, ['\''], { line := 1, column }, joint⟩
  let comment : Lexeme := ⟨.comment, "/**/".toList, { line := 1, column := 2 }, false⟩
  refine ⟨[quote 1 true], comment, [quote 6 false],
    [.punct '\'' true { line := 1, column := 1 }, .punct '\'' false { line := 1, column := 6 }],
    [.literal { kind := .char, text := "' '", span := { line := 1, column := 1 } }],
    ?_, rfl, ?_, ?_, ?_⟩
  · decide +kernel
  · rfl
  · have text : blanked [quote 1 true] [quote 6 false] = "' '" := by decide
    rw [text]
    rfl
  · simp [bareAll, bare]

end Token

end AliasExpansion
