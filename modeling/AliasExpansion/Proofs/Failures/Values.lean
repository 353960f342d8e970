-- SUMMARY: Values whose literals fail to decode for known reasons only, and their texts and casts.
import AliasExpansion.Proofs.Outcome
import AliasExpansion.Proofs.Token.Atoms
import AliasExpansion.Proofs.Token.Literals
import AliasExpansion.Value.Cast
import AliasExpansion.Value.Classify

/-!
# Failures and the literals behind them

A literal that the lexer accepts may have no value, and nothing is said about it until the value is
wanted. To find out where such failures come from, `known` is the set of those that are allowed for:
a computation is traced when whatever it fails with is a diagnostic or a known failure to decode.

A value is accounted for when its literals fail for known reasons only, and when it is a literal of
the right kind if its type is that of a literal. Integer literals have no minus sign, so that the
texts of integers are digits, and remain a numeral when they are joined. This numeral may have too
many digits although each of its parts has not.
-/

namespace AliasExpansion

/-- The literal has no value, for the reason `error`, or it has one that has no bytes. -/
def Literal.Fails (lit : Literal) (error : DecodeError) : Prop :=
  (lit.isString = true ∧ lit.content = .error error) ∨
    (lit.kind = .int ∧ lit.digits = .error error) ∨
    (lit.holdsSurrogate = true ∧ error = .unencodable)

/-- It is known that numerals can be joined to one that is too long. -/
def Joins (known : DecodeError → Prop) : Prop :=
  ∀ length, Text.digitLimit < length → known (.numeralTooLong length)

-- ---------------------------------------------------------------------------
-- Computations
-- ---------------------------------------------------------------------------

/-- The result is good; a failure is a diagnostic, or a known failure to decode. -/
def Traced {α : Type} (known : DecodeError → Prop) (good : α → Prop) : Except Error α → Prop
  | .ok a => good a
  | .error e => e.isDiagnostic = true ∨ ∃ error, known error ∧ e = .decode error

namespace Traced

variable {α β : Type} {known : DecodeError → Prop} {good : α → Prop} {good' : β → Prop}

theorem bind {result : Except Error α} {f : α → Except Error β} (h : Traced known good result)
    (hf : ∀ a, result = .ok a → good a → Traced known good' (f a)) :
    Traced known good' (result >>= f) := by
  cases result with
  | ok a => exact hf a rfl h
  | error e => exact h

theorem imp {result : Except Error α} {better : α → Prop} (h : Traced known good result)
    (himp : ∀ a, good a → better a) : Traced known better result := by
  cases result with
  | ok a => exact himp a h
  | error e => exact h

/-- A failure that does not depend on what is good. -/
theorem error {e : Error} (h : e.isDiagnostic = true) :
    Traced known good (.error e : Except Error α) :=
  .inl h

theorem mapM {f : α → Except Error β} {items : List α}
    (h : ∀ item ∈ items, Traced known good' (f item)) :
    Traced known (fun results => ∀ b ∈ results, good' b) (items.mapM f) := by
  induction items with
  | nil => exact (nofun : ∀ b ∈ [], good' b)
  | cons item rest ih =>
    rw [List.mapM_cons]
    refine (h item List.mem_cons_self).bind fun b _ hb => ?_
    refine (ih fun item mem => h item (List.mem_cons_of_mem _ mem)).bind fun bs _ hbs => ?_
    exact List.forall_mem_cons.mpr ⟨hb, hbs⟩

/-- Decoding, when its failures are known. -/
theorem of_decode {result : Except DecodeError α}
    (h : ∀ error, result = .error error → known error) :
    Traced known (fun a => result = .ok a) (result.mapError .decode) := by
  cases result with
  | ok a => exact rfl
  | error e => exact .inr ⟨e, h e rfl, rfl⟩

/-- A refusal that says what is wrong. -/
theorem refuse {result : Except SyntaxError α} {refuse : SyntaxError → Error}
    (hrefuse : ∀ e, (refuse e).isDiagnostic = true) (hok : ∀ a, result = .ok a → good a) :
    Traced known good (result.mapError refuse) := by
  cases result with
  | ok a => exact hok a rfl
  | error e => exact .inl (hrefuse e)

theorem cases_error {result : Except Error α} (h : Traced known good result) {e : Error}
    (he : result = .error e) :
    e.isDiagnostic = true ∨ ∃ error, known error ∧ e = .decode error := by
  rw [he] at h
  exact h

end Traced

-- ---------------------------------------------------------------------------
-- Literals and tokens
-- ---------------------------------------------------------------------------

section

variable (known : DecodeError → Prop)

structure Literal.Accounted (lit : Literal) : Prop where
  fails : ∀ error, lit.Fails error → known error
  unsigned : lit.kind = .int → '-' ∉ lit.text.toList

/-- All literals in the tokens are accounted for. -/
def Token.Accounted (tokens : List Token) : Prop :=
  ∀ lit, .literal lit ∈ atomsAll tokens → lit.Accounted known

structure Value.Accounted (value : Value) : Prop where
  tokens : Token.Accounted known value.tokens
  string : value.type = .str → ∃ lit rest, value.tokens = .literal lit :: rest ∧ lit.isString = true
  integer : value.type = .int → ∃ lit rest, value.tokens = .literal lit :: rest ∧ lit.kind = .int

end

variable {known : DecodeError → Prop}

theorem Literal.accounted_ofContent (content : String) (span : Span) {lone : Bool}
    (hlone : lone = true → known .unencodable) :
    { ofContent content span with lone }.Accounted known where
  fails := by
    rintro error (⟨-, h⟩ | ⟨h, -⟩ | ⟨h, rfl⟩)
    · cases (content_ofContent content span).symm.trans h
    · cases h
    · exact hlone ((holdsSurrogate_ofContent content span lone).symm.trans h)
  unsigned := nofun

theorem Literal.accounted_ofDigits (joins : Joins known) {text : String}
    (h : Text.IsDecimalNumeral text.toList) (span : Span) :
    (ofDigits text span).Accounted known where
  fails := by
    rintro error (⟨h, -⟩ | ⟨-, hfails⟩ | ⟨h, -⟩)
    · cases h
    · by_cases long : Text.digitLimit < Text.decimalLength text.toList
      · rw [digits_ofDigits_tooLong h.numeralChars long] at hfails
        cases hfails
        exact joins _ long
      · rw [h.decimalLength, Nat.not_lt] at long
        rw [digits_ofDigits h long] at hfails
        cases hfails
    · cases h
  unsigned := fun _ mem => Text.ne_of_isDigit (h.digits '-' mem) rfl rfl

namespace Token

theorem accounted_nil : Accounted known [] := nofun

theorem accounted_append {left right : List Token} :
    Accounted known (left ++ right) ↔ Accounted known left ∧ Accounted known right := by
  simp only [Accounted, atomsAll_append, List.mem_append]
  exact ⟨fun h => ⟨fun lit mem => h lit (.inl mem), fun lit mem => h lit (.inr mem)⟩,
    fun h lit mem => mem.elim (h.1 lit) (h.2 lit)⟩

theorem accounted_cons {token : Token} {rest : List Token} :
    Accounted known (token :: rest) ↔ Accounted known [token] ∧ Accounted known rest := by
  rw [← List.singleton_append, accounted_append]

theorem accounted_group {delimiter : Delimiter} {content : List Token} {span : Span} :
    Accounted known [.group delimiter content span] ↔ Accounted known content := by
  simp [Accounted, atomsAll, atoms]

theorem mem_atomsAll_of_head {tokens rest : List Token} {lit : Literal}
    (h : tokens = .literal lit :: rest) : .literal lit ∈ atomsAll tokens := by
  simp [h, atomsAll, atoms]

theorem accounted_literal {lit : Literal} :
    Accounted known [.literal lit] ↔ lit.Accounted known := by
  simp [Accounted, atomsAll, atoms]

mutual

/-- A rendering with a lone surrogate comes from a literal that has one. -/
theorem exists_lone_of_isLone : ∀ {token : Token}, token.isLone = true →
    ∃ lit, .literal lit ∈ atoms token ∧ lit.lone = true
  | .literal lit, h => by
    rw [isLone] at h
    exact ⟨lit, by simp [atoms], h⟩
  | .group _ content _, h => by
    rw [isLone] at h
    rw [atoms]
    exact exists_lone_of_anyLone h

theorem exists_lone_of_anyLone : ∀ {tokens : List Token}, anyLone tokens = true →
    ∃ lit, .literal lit ∈ atomsAll tokens ∧ lit.lone = true
  | token :: rest, h => by
    rw [anyLone, Bool.or_eq_true] at h
    rw [atomsAll]
    obtain h | h := h
    · obtain ⟨lit, mem, lone⟩ := exists_lone_of_isLone h
      exact ⟨lit, List.mem_append_left _ mem, lone⟩
    · obtain ⟨lit, mem, lone⟩ := exists_lone_of_anyLone h
      exact ⟨lit, List.mem_append_right _ mem, lone⟩

end

theorem accounted_flatMap {α : Type} {f : α → List Token} {items : List α}
    (h : ∀ item ∈ items, Accounted known (f item)) : Accounted known (items.flatMap f) := by
  induction items with
  | nil => exact accounted_nil
  | cons item rest ih =>
    rw [List.flatMap_cons, accounted_append]
    exact ⟨h item List.mem_cons_self, ih fun item mem => h item (List.mem_cons_of_mem _ mem)⟩

end Token

-- ---------------------------------------------------------------------------
-- Values
-- ---------------------------------------------------------------------------

namespace Value

theorem accounted_ofName (name : String) (span : Span) : (ofName name span).Accounted known where
  tokens := by
    intro lit mem
    simp [ofName, Token.atomsAll, Token.atoms] at mem
  string := nofun
  integer := nofun

theorem accounted_ofText (text : String) (span : Span) {lone : Bool}
    (hlone : lone = true → known .unencodable) : (ofText text span lone).Accounted known where
  tokens := Token.accounted_literal.mpr (Literal.accounted_ofContent text span hlone)
  string := fun _ => ⟨_, [], rfl, rfl⟩
  integer := nofun

theorem accounted_ofDigits (joins : Joins known) {text : String}
    (h : Text.IsDecimalNumeral text.toList) (span : Span) :
    (ofDigits text span).Accounted known where
  tokens := Token.accounted_literal.mpr (Literal.accounted_ofDigits joins h span)
  string := nofun
  integer := fun _ => ⟨_, [], rfl, rfl⟩

/-- A value of a type that is no literal's. -/
theorem Accounted.of_tokens {value : Value} (h : Token.Accounted known value.tokens)
    (hstring : value.type ≠ .str) (hinteger : value.type ≠ .int) : value.Accounted known :=
  ⟨h, fun eq => absurd eq hstring, fun eq => absurd eq hinteger⟩

variable {value : Value}

/-- The text of a value fails to decode for known reasons only. -/
theorem Accounted.text_error (h : value.Accounted known) {error : DecodeError}
    (hfails : value.text = .error error) : known error := by
  rw [text.eq_def] at hfails
  split at hfails
  · cases hfails
  · next lit rest htype htokens =>
    obtain ⟨lit', rest', heq, hstring⟩ := h.string htype
    rw [htokens] at heq
    cases heq
    exact (h.tokens lit (Token.mem_atomsAll_of_head htokens)).fails error (.inl ⟨hstring, hfails⟩)
  · next lit rest htype htokens =>
    obtain ⟨lit', rest', heq, hkind⟩ := h.integer htype
    rw [htokens] at heq
    cases heq
    exact (h.tokens lit (Token.mem_atomsAll_of_head htokens)).fails error
      (.inr (.inl ⟨hkind, hfails⟩))
  · cases hfails

/-- A lone surrogate in the text of a value comes from one of its literals. -/
theorem Accounted.unencodable (h : value.Accounted known) (lone : value.holdsSurrogate = true) :
    known .unencodable := by
  have known_of_mem {lit : Literal} (mem : .literal lit ∈ Token.atomsAll value.tokens)
      (lone : lit.holdsSurrogate = true) : known .unencodable :=
    (h.tokens lit mem).fails _ (.inr (.inr ⟨lone, rfl⟩))
  rw [holdsSurrogate.eq_def] at lone
  split at lone
  · cases lone
  · next lit rest htype htokens => exact known_of_mem (Token.mem_atomsAll_of_head htokens) lone
  · cases lone
  · obtain ⟨lit, mem, lone⟩ := Token.exists_lone_of_anyLone lone
    exact known_of_mem mem (by rw [Literal.holdsSurrogate, lone, Bool.true_or])

theorem Accounted.display_error (h : value.Accounted known) {error : DecodeError}
    (hfails : value.display = .error error) : known error := by
  rcases Outcome.bind_eq_error.mp hfails with hfails | ⟨text, -, hfails⟩
  · exact h.text_error hfails
  · cases hfails

/-- The text of an integer is a numeral. -/
theorem Accounted.text_numeral (h : value.Accounted known) (htype : value.type = .int)
    {text : String} (htext : value.text = .ok text) : Text.IsDecimalNumeral text.toList := by
  obtain ⟨lit, rest, htokens, hkind⟩ := h.integer htype
  rw [Value.text, htype, htokens] at htext
  exact Literal.digits_unsigned
    ((h.tokens lit (Token.mem_atomsAll_of_head htokens)).unsigned hkind) htext

theorem literal_of_tokenType? {token : Token} {single : ValueType}
    (h : tokenType? token = some single) :
    (single = .str → ∃ lit, token = .literal lit ∧ lit.isString = true) ∧
      (single = .int → ∃ lit, token = .literal lit ∧ lit.kind = .int) := by
  cases token with
  | punct | group => cases h
  | ident name span =>
    rw [tokenType?] at h
    split at h
    · cases h
      exact ⟨nofun, nofun⟩
    · cases h
  | literal lit =>
    rw [tokenType?] at h
    split at h
    · next hkind =>
      cases h
      exact ⟨nofun, fun _ => ⟨lit, rfl, hkind⟩⟩
    · split at h
      · next hstring =>
        cases h
        exact ⟨fun _ => ⟨lit, rfl, hstring⟩, nofun⟩
      · cases h

theorem categoryType_ne (tokens : List Token) :
    categoryType tokens ≠ .str ∧ categoryType tokens ≠ .int := by
  rw [categoryType]
  repeat' split
  all_goals decide

/-- Reading tokens as a value gives the type of a literal to single literals only. -/
theorem accounted_classify {tokens : List Token} (h : Token.Accounted known tokens) :
    (classify tokens).Accounted known := by
  have hcategory (target : ValueType) (htype : (classify tokens).type = target)
      (hne : target ≠ categoryType tokens) :
      ∃ token, tokens = [token] ∧ tokenType? token = some target := by
    rw [classify.eq_def] at htype
    dsimp only at htype
    split at htype
    · next token =>
      cases hsingle : tokenType? token with
      | none => exact absurd (by rw [← htype, hsingle]; rfl) hne
      | some single =>
        rw [hsingle] at htype
        exact ⟨token, rfl, by rw [hsingle, ← htype]; rfl⟩
    · exact absurd htype.symm hne
  obtain ⟨hstr, hint⟩ := categoryType_ne tokens
  refine ⟨h, fun htype => ?_, fun htype => ?_⟩
  · obtain ⟨token, rfl, hsingle⟩ := hcategory .str htype hstr.symm
    obtain ⟨lit, rfl, hstring⟩ := (literal_of_tokenType? hsingle).1 rfl
    exact ⟨lit, [], rfl, hstring⟩
  · obtain ⟨token, rfl, hsingle⟩ := hcategory .int htype hint.symm
    obtain ⟨lit, rfl, hkind⟩ := (literal_of_tokenType? hsingle).2 rfl
    exact ⟨lit, [], rfl, hkind⟩

-- ---------------------------------------------------------------------------
-- Casts
-- ---------------------------------------------------------------------------

theorem accounted_reparse {tokens : List Token} (h : Token.Accounted known tokens)
    {target : ValueType} {value : Value} (hvalue : reparse tokens target = .ok value) :
    value.Accounted known := by
  have hchecked (category : Category) (hcategory : target.category? = some category) :
      category.check tokens = .ok () ∧ value = { type := target, tokens } := by
    rw [reparse, hcategory] at hvalue
    obtain ⟨_, hcheck, hvalue⟩ := Outcome.bind_eq_ok.mp hvalue
    cases hvalue
    exact ⟨hcheck, rfl⟩
  cases target with
  | str =>
    obtain ⟨hcheck, rfl⟩ := hchecked .stringLiteral rfl
    obtain ⟨lit, rfl, hstring⟩ := Category.check_stringLiteral.mp hcheck
    exact ⟨h, fun _ => ⟨lit, [], rfl, hstring⟩, nofun⟩
  | int =>
    obtain ⟨hcheck, rfl⟩ := hchecked .intLiteral rfl
    obtain ⟨lit, rfl, hkind⟩ := Category.check_intLiteral.mp hcheck
    exact ⟨h, nofun, fun _ => ⟨lit, [], rfl, hkind⟩⟩
  | ident | path | type | expr =>
    obtain ⟨-, rfl⟩ := hchecked _ rfl
    exact .of_tokens h nofun nofun
  | tokens | raw =>
    cases hvalue
    exact .of_tokens h nofun nofun

theorem accounted_identOfText {text : String} {span : Span} {value : Value}
    (h : identOfText text span = .ok value) : value.Accounted known := by
  obtain ⟨tokens, -, h⟩ := Outcome.bind_eq_ok.mp h
  obtain ⟨_, -, h⟩ := Outcome.bind_eq_ok.mp h
  split at h
  · cases h
    exact accounted_ofName _ _
  · cases h

theorem stringLiteral?_eq_some {lit : Literal} (h : value.stringLiteral? = some lit) :
    value.tokens = [.literal lit] ∧ lit.isString = true := by
  rw [stringLiteral?] at h
  split at h
  · next htokens =>
    split at h
    · next hstring =>
      cases h
      exact ⟨htokens, hstring⟩
    · cases h
  · cases h

/-- A cast accounts for the literals that it makes. -/
theorem Accounted.cast (h : value.Accounted known) (target : ValueType) :
    Traced known (Value.Accounted known) (value.cast target) := by
  have hreparse (target : ValueType) : Traced known (Value.Accounted known)
      ((reparse value.tokens target).mapError
        fun e => .type (.cast value.type target e.fault) (some value.span)) :=
    .refuse (fun _ => rfl) fun _ => accounted_reparse h.tokens
  unfold Value.cast
  split
  · exact h
  · split
    · split
      · next lit hlit =>
        obtain ⟨htokens, hstring⟩ := stringLiteral?_eq_some hlit
        have haccounted := Token.accounted_literal.mp (htokens ▸ h.tokens)
        refine (Traced.of_decode fun error hfails =>
          haccounted.fails error (.inl ⟨hstring, hfails⟩)).bind fun text _ _ => ?_
        exact .refuse (fun _ => rfl) fun _ => accounted_identOfText
      · exact hreparse .ident
    · split
      · exact accounted_ofText _ _ nofun
      · split
        · exact (Traced.of_decode fun _ => h.text_error).bind fun text _ _ =>
            accounted_ofText _ _ nofun
        · exact hreparse .str
    · exact hreparse _

end Value

end AliasExpansion
