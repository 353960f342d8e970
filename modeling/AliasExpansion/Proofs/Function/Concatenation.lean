-- SUMMARY: What the text of a concatenation is, and when it may be nested.
import AliasExpansion.Proofs.Failures.Functions
import AliasExpansion.Proofs.Value.WellTyped

/-!
# Concatenation of texts

The overloads of `concat` for identifiers, for strings and for integers join the texts of their
arguments. An identifier and a string have the joined text as their own text, so that a run of
arguments may be concatenated first. The text of an integer is its numeral in base ten, which has no
zeros at the front: a concatenation of integers keeps the joined text in its spelling, and a run that
is concatenated first loses the zeros at its front. A spelling with more digits than the limit
allows has no text at all (`Library.concat_textual`).
-/

namespace AliasExpansion

-- ---------------------------------------------------------------------------
-- Zeros inside a concatenation
-- ---------------------------------------------------------------------------

namespace Text

variable {cs : List Char}

theorem withoutZeros_append (ne : cs ≠ []) (rest : List Char) :
    withoutZeros (withoutZeros cs ++ rest) = withoutZeros (cs ++ rest) := by
  induction cs with
  | nil => exact absurd rfl ne
  | cons c cs ih =>
    by_cases zero : c = '0'
    · subst zero
      cases cs with
      | nil => rfl
      | cons c cs =>
        rw [withoutZeros_zero (List.cons_ne_nil c cs), ih (List.cons_ne_nil c cs)]
        rfl
    · rw [withoutZeros_of_ne zero]

/-- The zeros at the front of a part do not count if there are none, or if there are only zeros
    before the part. -/
theorem withoutZeros_part (ne : cs ≠ []) (before after : List Char) :
    withoutZeros (before ++ withoutZeros cs ++ after) = withoutZeros (before ++ cs ++ after)
      ↔ withoutZeros cs = cs ∨ ∀ c ∈ before, c = '0' := by
  induction before with
  | nil => simpa using withoutZeros_append ne after
  | cons c before ih =>
    by_cases zero : c = '0'
    · subst zero
      simp only [List.cons_append]
      rw [withoutZeros_zero (by simp [withoutZeros_ne_nil ne]), withoutZeros_zero (by simp [ne]), ih]
      simp
    · simp only [List.cons_append]
      rw [withoutZeros_of_ne zero, withoutZeros_of_ne zero]
      simp [zero]

end Text

-- ---------------------------------------------------------------------------
-- Joined texts
-- ---------------------------------------------------------------------------

namespace Value

/-- The characters of the texts of the values, one text after the other. -/
def joinedTexts (values : List Value) : Except DecodeError (List Char) :=
  List.flatMap String.toList <$> values.mapM text

/-- The text of the value has no minus sign. -/
def Unsigned (value : Value) : Prop :=
  ∀ text, value.text = .ok text → '-' ∉ text.toList

variable {value : Value} {values front back : List Value} {cs : List Char}

theorem joinedTexts_cons : joinedTexts (value :: values) = .ok cs ↔
    ∃ text rest, value.text = .ok text ∧ joinedTexts values = .ok rest ∧
      cs = text.toList ++ rest := by
  simp only [joinedTexts, List.mapM_cons, Outcome.map_eq_ok, Outcome.bind_eq_ok,
    Outcome.pure_eq_ok, Except.ok.injEq]
  constructor
  · rintro ⟨_, ⟨text, decoded, texts, rest, rfl⟩, rfl⟩
    exact ⟨text, _, decoded, ⟨texts, rest, rfl⟩, rfl⟩
  · rintro ⟨text, _, decoded, ⟨texts, rest, rfl⟩, rfl⟩
    exact ⟨_, ⟨text, decoded, texts, rest, rfl⟩, rfl⟩

theorem joinedTexts_append : joinedTexts (front ++ back) = .ok cs ↔
    ∃ before after, joinedTexts front = .ok before ∧ joinedTexts back = .ok after ∧
      cs = before ++ after := by
  induction front generalizing cs with
  | nil => simp [joinedTexts]
  | cons value front ih =>
    simp only [List.cons_append, joinedTexts_cons, ih]
    constructor
    · rintro ⟨text, _, decoded, ⟨before, after, hbefore, hafter, rfl⟩, rfl⟩
      exact ⟨_, after, ⟨text, before, decoded, hbefore, rfl⟩, hafter, (List.append_assoc ..).symm⟩
    · rintro ⟨_, after, ⟨text, before, decoded, hbefore, rfl⟩, hafter, rfl⟩
      exact ⟨text, _, decoded, ⟨before, after, hbefore, hafter, rfl⟩, List.append_assoc ..⟩

theorem mem_joinedTexts (joined : joinedTexts values = .ok cs) {c : Char} :
    c ∈ cs ↔ ∃ value ∈ values, ∃ text, value.text = .ok text ∧ c ∈ text.toList := by
  induction values generalizing cs with
  | nil =>
    cases joined
    simp
  | cons value values ih =>
    obtain ⟨text, rest, decoded, others, rfl⟩ := joinedTexts_cons.mp joined
    simp [ih others, decoded]

/-- The texts of a run of values stand between those of the values around it. -/
theorem joinedTexts_run {run : List Value} {inner : List Char}
    (joined : joinedTexts (front ++ run ++ back) = .ok cs) (ran : joinedTexts run = .ok inner) :
    ∃ before after, joinedTexts front = .ok before ∧ joinedTexts back = .ok after ∧
      cs = before ++ inner ++ after := by
  obtain ⟨_, after, front_, hafter, rfl⟩ := joinedTexts_append.mp joined
  obtain ⟨before, _, hbefore, ran', rfl⟩ := joinedTexts_append.mp front_
  cases ran.symm.trans ran'
  exact ⟨before, after, hbefore, hafter, rfl⟩

/-- A value in the place of a run of values. -/
theorem joinedTexts_nested {before after other : List Char}
    (hbefore : joinedTexts front = .ok before) (hafter : joinedTexts back = .ok after)
    (text : value.text = .ok (String.ofList other)) :
    joinedTexts (front ++ value :: back) = .ok (before ++ other ++ after) := by
  refine joinedTexts_append.mpr ⟨before, other ++ after, hbefore, ?_, List.append_assoc ..⟩
  exact joinedTexts_cons.mpr ⟨_, after, text, hafter, by rw [String.toList_ofList]⟩

-- ---------------------------------------------------------------------------
-- Texts of integers
-- ---------------------------------------------------------------------------

theorem text_ofDigits (digits : String) (span : Span) :
    (ofDigits digits span).text = (Literal.ofDigits digits span).digits := rfl

theorem render_ofDigits (digits : String) (span : Span) : (ofDigits digits span).render = digits := by
  simp [render, ofDigits, Literal.ofDigits, Token.renderAll, Token.renderAfter, Token.render]

@[simp] theorem wellTyped_ofDigits (digits : String) (span : Span) :
    (ofDigits digits span).WellTyped :=
  ⟨.ofDigits digits span, rfl, rfl⟩

/-- The text of an integer is the one that its number is written with. -/
theorem text_eq_toString (isInt : value.type = .int) (typed : value.WellTyped) {text : String}
    (decoded : value.text = .ok text) : ∃ i : Int, text = toString i := by
  rw [WellTyped, isInt] at typed
  obtain ⟨lit, tokens, -⟩ := typed
  rw [Value.text, isInt, tokens] at decoded
  exact Literal.digits_eq_toString decoded

theorem numeralChars_joinedTexts (typed : ∀ value ∈ values, value.type = .int ∧ value.WellTyped)
    (joined : joinedTexts values = .ok cs) : ∀ c ∈ cs, Text.isNumeralChar c = true := by
  intro c mem
  obtain ⟨value, mem, text, decoded, mem'⟩ := (mem_joinedTexts joined).mp mem
  obtain ⟨i, rfl⟩ := text_eq_toString (typed value mem).1 (typed value mem).2 decoded
  exact Text.isNumeralChar_toString i c mem'

theorem minus_mem_joinedTexts (joined : joinedTexts values = .ok cs) :
    '-' ∉ cs ↔ ∀ value ∈ values, value.Unsigned := by
  rw [mem_joinedTexts joined]
  simp [Unsigned]

theorem joinedTexts_ne_nil (ne : values ≠ [])
    (typed : ∀ value ∈ values, value.type = .int ∧ value.WellTyped)
    (joined : joinedTexts values = .ok cs) : cs ≠ [] := by
  obtain ⟨value, values, rfl⟩ := List.exists_cons_of_ne_nil ne
  obtain ⟨isInt, wellTyped⟩ := typed value List.mem_cons_self
  obtain ⟨text, rest, decoded, -, rfl⟩ := joinedTexts_cons.mp joined
  obtain ⟨i, rfl⟩ := text_eq_toString isInt wellTyped decoded
  exact List.append_ne_nil_of_left_ne_nil (Text.toString_ne_nil i) rest

section

variable (ne : values ≠ []) (typed : ∀ value ∈ values, value.type = .int ∧ value.WellTyped)
  (joined : joinedTexts values = .ok cs) (span : Span)
include ne typed joined

/-- The texts of integers are the numeral of an integer and characters of numerals behind it, which
    are digits just if the texts behind the first one have no minus sign. -/
theorem joinedTexts_shape : ∃ (i : Int) (rest : List Char), cs = (toString i).toList ++ rest ∧
    (∀ c ∈ rest, Text.isNumeralChar c = true) ∧
    ('-' ∉ rest ↔ ∀ value ∈ values.tail, value.Unsigned) := by
  obtain ⟨value, values, rfl⟩ := List.exists_cons_of_ne_nil ne
  rw [List.forall_mem_cons] at typed
  obtain ⟨text, rest, decoded, others, rfl⟩ := joinedTexts_cons.mp joined
  obtain ⟨i, rfl⟩ := text_eq_toString typed.1.1 typed.1.2 decoded
  exact ⟨i, rest, rfl, numeralChars_joinedTexts typed.2 others, minus_mem_joinedTexts others⟩

theorem joinedTexts_unsigned (unsigned : ∀ value ∈ values.tail, value.Unsigned) :
    ∃ (i : Int) (rest : List Char), cs = (toString i).toList ++ rest ∧
      ∀ c ∈ rest, c.isDigit = true := by
  obtain ⟨i, rest, rfl, plain, free⟩ := joinedTexts_shape ne typed joined
  have free : '-' ∉ rest := free.mpr unsigned
  exact ⟨i, rest, rfl, fun c mem =>
    Text.isDigit_of_isNumeralChar (plain c mem) fun minus => free (minus ▸ mem)⟩

/-- The integer that is spelled by the texts of integers. -/
theorem text_ofDigits_joined (unsigned : ∀ value ∈ values.tail, value.Unsigned)
    (short : cs.countP Char.isDigit ≤ Text.digitLimit) :
    (ofDigits (String.ofList cs) span).text = .ok (String.ofList (Text.withoutZeros cs)) := by
  obtain ⟨i, rest, rfl, digits⟩ := joinedTexts_unsigned ne typed joined unsigned
  exact Literal.digits_ofDigits_joined i span digits short

/-- A spelling with too many digits is not read. -/
theorem text_ofDigits_joined_tooLong (unsigned : ∀ value ∈ values.tail, value.Unsigned)
    (long : Text.digitLimit < cs.countP Char.isDigit) :
    (ofDigits (String.ofList cs) span).text
      = .error (.numeralTooLong (cs.countP Char.isDigit)) := by
  obtain ⟨i, rest, rfl, digits⟩ := joinedTexts_unsigned ne typed joined unsigned
  exact Literal.digits_ofDigits_joined_tooLong i span digits long

/-- Where a text behind the first one has a minus sign, the spelling is no numeral. -/
theorem text_ofDigits_joined_signed (signed : ¬ ∀ value ∈ values.tail, value.Unsigned) :
    ∃ error, (ofDigits (String.ofList cs) span).text = .error error := by
  obtain ⟨i, rest, rfl, plain, free⟩ := joinedTexts_shape ne typed joined
  exact Literal.digits_ofDigits_joined_signed i span plain
    (not_not.mp fun free' => signed (free.mp free'))

end

end Value

-- ---------------------------------------------------------------------------
-- The overloads
-- ---------------------------------------------------------------------------

namespace Library

/-- The overload of `concat` for any number of arguments of one type. -/
def IsConcatOf (kind : ValueType) (overload : Overload) : Prop :=
  overload ∈ builtin.find "concat" ∧ overload.signature.params = [.many kind]

/-- What an overload of `concat` makes of the joined texts, which may hold lone surrogates. -/
def ofJoined (kind : ValueType) (text : String) (lone : Bool) (span : Option Span) :
    Except Error Value :=
  match kind with
  | .ident => identifier text .invalidConcatenation span
  | .str => .ok (.ofText text {} lone)
  | _ => .ok (.ofDigits text)

variable {kind : ValueType} {overload : Overload} {key : String} {span place : Option Span}
  {front run back values : List Value} {value result : Value} {cs : List Char}

theorem find_concat : builtin.find "concat" = concatFunctions := by
  simp [find, builtin, textFunction, normalizeFunctions, hashFunctions, concatFunctions,
    castFunction, tokensFunctions, ValueType.name]

theorem concat_eq (texts : List String) :
    concat texts = String.ofList (texts.flatMap String.toList) := by
  rw [← String.toList_inj, toList_concat, String.toList_ofList, List.flatMap_def]

/-- Each of the overloads joins the texts of its arguments and makes a value of its type from them. -/
theorem compute_concat (concat : IsConcatOf kind overload)
    (textual : kind = .ident ∨ kind = .str ∨ kind = .int) :
    overload.compute key span values
      = (Value.joinedTexts values).mapError .decode >>= fun cs =>
          ofJoined kind (String.ofList cs) (values.any Value.holdsSurrogate) span := by
  obtain ⟨mem, params⟩ := concat
  have texts : values.mapM textOf = (values.mapM Value.text).mapError .decode :=
    Outcome.mapM_mapError _ _ _
  have joins (make : String → Except Error Value) :
      (do make (Library.concat (← values.mapM textOf)))
        = (Value.joinedTexts values).mapError .decode >>= fun cs => make (String.ofList cs) := by
    simp only [texts, Value.joinedTexts, concat_eq]
    cases values.mapM Value.text <;> rfl
  rw [find_concat] at mem
  simp only [concatFunctions, List.mem_cons, List.not_mem_nil, or_false] at mem
  obtain rfl | rfl | rfl | rfl | rfl := mem <;> cases params
  · exact joins (ofJoined .ident · _ span)
  · exact joins (ofJoined .str · _ span)
  · exact joins (ofJoined .int · _ span)
  · simp at textual

theorem compute_concat_eq_ok (concat : IsConcatOf kind overload)
    (textual : kind = .ident ∨ kind = .str ∨ kind = .int) :
    overload.compute key span values = .ok result ↔
      ∃ cs, Value.joinedTexts values = .ok cs ∧
        ofJoined kind (String.ofList cs) (values.any Value.holdsSurrogate) span = .ok result := by
  rw [compute_concat concat textual]
  simp only [Outcome.bind_eq_ok, Outcome.mapError_eq_ok]

/-- An identifier and a string have the joined texts as their own text. -/
theorem text_ofJoined {text : String} {lone : Bool} (textual : kind = .ident ∨ kind = .str)
    (h : ofJoined kind text lone span = .ok result) : result.text = .ok text := by
  obtain rfl | rfl := textual
  · rw [ofJoined, identifier] at h
    split at h
    · cases h
      rfl
    · cases h
  · cases h
    exact Literal.content_ofContent text {}

/-- A nested call passes the lone surrogates of its run on. -/
theorem ofJoined_nested {text inner : String} (textual : kind = .ident ∨ kind = .str)
    (h : ofJoined kind inner (run.any Value.holdsSurrogate) place = .ok value) :
    ofJoined kind text ((front ++ value :: back).any Value.holdsSurrogate) span
      = ofJoined kind text ((front ++ run ++ back).any Value.holdsSurrogate) span := by
  obtain rfl | rfl := textual
  · rfl
  · cases h
    have lone : (Value.ofText inner {} (run.any Value.holdsSurrogate)).holdsSurrogate
        = run.any Value.holdsSurrogate := Literal.holdsSurrogate_ofContent _ _ _
    simp only [List.any_append, List.any_cons, lone, Bool.or_assoc]

-- ---------------------------------------------------------------------------
-- Runs of integers
-- ---------------------------------------------------------------------------

theorem mem_tail_of_run {argument : Value} (ne : run ≠ []) (mem : argument ∈ run.tail) :
    argument ∈ (front ++ run ++ back).tail := by
  obtain ⟨first, run, rfl⟩ := List.exists_cons_of_ne_nil ne
  rw [List.tail_cons] at mem
  cases front <;> simp [mem]

/-- Behind the first argument, a list with a nested call holds arguments that were there before, and
    the nested call if there is something before it. -/
theorem mem_tail_nested {argument : Value} (ne : run ≠ [])
    (mem : argument ∈ (front ++ value :: back).tail) :
    argument ∈ (front ++ run ++ back).tail ∨
      argument = value ∧ ∀ inner ∈ run, inner ∈ (front ++ run ++ back).tail := by
  obtain ⟨first, run, rfl⟩ := List.exists_cons_of_ne_nil ne
  cases front with
  | nil =>
    rw [List.nil_append, List.tail_cons] at mem
    simp [mem]
  | cons head front =>
    simp only [List.cons_append, List.tail_cons, List.mem_append, List.mem_cons] at mem ⊢
    tauto

/-- A nested call on integers loses the zeros at the front of the joined texts of its run. -/
theorem text_concat_nested (concat : IsConcatOf .int overload)
    (typed : ∀ argument ∈ front ++ run ++ back, argument.type = .int ∧ argument.WellTyped)
    (unsigned : ∀ argument ∈ (front ++ run ++ back).tail, argument.Unsigned) (ne : run ≠ [])
    (joined : Value.joinedTexts (front ++ run ++ back) = .ok cs)
    (short : cs.countP Char.isDigit ≤ Text.digitLimit)
    (nested : overload.compute key place run = .ok value) :
    ∃ before inner after other, cs = before ++ inner ++ after ∧
      Value.joinedTexts front = .ok before ∧ Value.joinedTexts run = .ok inner ∧
      overload.compute key span (front ++ value :: back) = .ok other ∧
      other.text = .ok (String.ofList (Text.withoutZeros
        (before ++ Text.withoutZeros inner ++ after))) := by
  obtain ⟨inner, ran, made⟩ := (compute_concat_eq_ok concat (by simp)).mp nested
  cases made
  have typedRun : ∀ argument ∈ run, argument.type = .int ∧ argument.WellTyped :=
    fun argument mem => typed argument (by simp [mem])
  obtain ⟨before, after, hbefore, hafter, rfl⟩ := Value.joinedTexts_run joined ran
  have fewer : (Text.withoutZeros inner).countP Char.isDigit ≤ inner.countP Char.isDigit :=
    (Text.withoutZeros_suffix inner).sublist.countP_le
  simp only [List.countP_append] at short
  have text := Value.text_ofDigits_joined ne typedRun ran {}
    (fun argument mem => unsigned argument (mem_tail_of_run ne mem)) (by omega)
  have replaced := Value.joinedTexts_nested hbefore hafter text
  refine ⟨before, inner, after, _, rfl, hbefore, ran,
    (compute_concat_eq_ok concat (by simp)).mpr ⟨_, replaced, rfl⟩, ?_⟩
  refine Value.text_ofDigits_joined (by simp) ?_ replaced {} ?_
    (by simp only [List.countP_append]; omega)
  · intro argument mem
    rw [List.mem_append, List.mem_cons] at mem
    obtain mem | rfl | mem := mem
    · exact typed argument (by simp [mem])
    · exact ⟨rfl, Value.wellTyped_ofDigits _ _⟩
    · exact typed argument (by simp [mem])
  · intro argument mem
    obtain mem | ⟨rfl, inside⟩ := mem_tail_nested ne mem
    · exact unsigned argument mem
    · have free := (Value.minus_mem_joinedTexts ran).mpr fun inner mem =>
        unsigned inner (inside inner mem)
      intro spelled decoded
      cases text.symm.trans decoded
      rw [String.toList_ofList]
      exact fun mem => free ((Text.withoutZeros_suffix inner).subset mem)

-- ---------------------------------------------------------------------------
-- Concatenation
-- ---------------------------------------------------------------------------

/-- Identifiers and strings are concatenated as texts, and a run of arguments may be replaced by a
    nested call that succeeds. Integers are concatenated in their spelling: the text of the result
    is the joined text without the zeros at its front, as long as no text behind the first one has a
    minus sign and the digits, zeros among them, are within the limit, and there is no text
    otherwise. So a nested call keeps the text exactly if the texts of the run have no zeros to lose
    or there is nothing but zeros before them. -/
theorem concat_textual :
    (∀ kind overload, IsConcatOf kind overload → kind = .ident ∨ kind = .str →
      ∀ (key : String) (span : Option Span) (arguments : List Value) (result : Value),
        overload.compute key span arguments = .ok result →
        (∃ cs, Value.joinedTexts arguments = .ok cs ∧ result.text = .ok (String.ofList cs)) ∧
        ∀ (place : Option Span) (front run back : List Value) (nested : Value),
          arguments = front ++ run ++ back → overload.compute key place run = .ok nested →
          overload.compute key span (front ++ nested :: back) = .ok result) ∧
    ∀ overload, IsConcatOf .int overload →
      ∀ (key : String) (span : Option Span) (arguments : List Value) (result : Value),
        arguments ≠ [] →
        (∀ argument ∈ arguments, argument.type = .int ∧ argument.WellTyped) →
        overload.compute key span arguments = .ok result →
        ∃ cs, Value.joinedTexts arguments = .ok cs ∧ result.render = String.ofList cs ∧
          ((¬ ∀ argument ∈ arguments.tail, argument.Unsigned) →
            ∃ error, result.text = .error error) ∧
          ((∀ argument ∈ arguments.tail, argument.Unsigned) →
            Text.digitLimit < cs.countP Char.isDigit →
            result.text = .error (.numeralTooLong (cs.countP Char.isDigit))) ∧
          ((∀ argument ∈ arguments.tail, argument.Unsigned) →
            cs.countP Char.isDigit ≤ Text.digitLimit →
            result.text = .ok (String.ofList (Text.withoutZeros cs)) ∧
            ∀ (place : Option Span) (front run back : List Value) (nested : Value),
              arguments = front ++ run ++ back → run ≠ [] →
              overload.compute key place run = .ok nested →
              ∃ before inner other, Value.joinedTexts front = .ok before ∧
                Value.joinedTexts run = .ok inner ∧
                overload.compute key span (front ++ nested :: back) = .ok other ∧
                (other.text = result.text ↔
                  Text.withoutZeros inner = inner ∨ ∀ c ∈ before, c = '0')) := by
  constructor
  · intro kind overload concat textual key span arguments result h
    have textual' : kind = .ident ∨ kind = .str ∨ kind = .int := by tauto
    obtain ⟨cs, joined, made⟩ := (compute_concat_eq_ok concat textual').mp h
    refine ⟨⟨cs, joined, text_ofJoined textual made⟩, ?_⟩
    rintro place front run back nested rfl ran
    obtain ⟨inner, ran, madeInner⟩ := (compute_concat_eq_ok concat textual').mp ran
    obtain ⟨before, after, hbefore, hafter, rfl⟩ := Value.joinedTexts_run joined ran
    have replaced := Value.joinedTexts_nested hbefore hafter (text_ofJoined textual madeInner)
    rw [← ofJoined_nested textual madeInner] at made
    exact (compute_concat_eq_ok concat textual').mpr ⟨_, replaced, made⟩
  · intro overload concat key span arguments result ne typed h
    obtain ⟨cs, joined, made⟩ := (compute_concat_eq_ok concat (by simp)).mp h
    cases made
    refine ⟨cs, joined, Value.render_ofDigits _ _,
      Value.text_ofDigits_joined_signed ne typed joined {},
      Value.text_ofDigits_joined_tooLong ne typed joined {}, fun unsigned short => ?_⟩
    have text := Value.text_ofDigits_joined ne typed joined {} unsigned short
    refine ⟨text, ?_⟩
    rintro place front run back nested rfl some ran
    obtain ⟨before, inner, after, other, rfl, hbefore, hinner, made, otherText⟩ :=
      text_concat_nested concat typed unsigned some joined short ran
    refine ⟨before, inner, other, hbefore, hinner, made, ?_⟩
    have ne : inner ≠ [] := Value.joinedTexts_ne_nil some (fun argument mem =>
      typed argument (by simp [mem])) hinner
    rw [otherText, text, ← Text.withoutZeros_part ne before after, Except.ok.injEq,
      String.ofList_inj]

/-- The strings `a`, `%` and `b`, and the integers `007`, `0x1F` and `1_000u64`, each with the last two
    arguments as a nested call. -/
theorem concat_textual_runs :
    let concatStrings := concatFunctions.get ⟨2, by decide⟩
    let concatIntegers := concatFunctions.get ⟨3, by decide⟩
    let integer (text : String) : Value :=
      { type := .int, tokens := [.literal { kind := .int, text, span := {} }] }
    let arguments := [integer "007", integer "0x1F", integer "1_000u64"]
    IsConcatOf .str concatStrings ∧ IsConcatOf .int concatIntegers ∧
      (concatStrings.compute "" none [.ofText "a", .ofText "%", .ofText "b"]
          = .ok (.ofText "a%b") ∧
        concatStrings.compute "" none [.ofText "%", .ofText "b"] = .ok (.ofText "%b") ∧
        concatStrings.compute "" none [.ofText "a", .ofText "%b"] = .ok (.ofText "a%b")) ∧
      (∀ argument ∈ arguments, argument.type = .int ∧ argument.WellTyped) ∧
      (∀ argument ∈ arguments.tail, argument.Unsigned) ∧
      concatIntegers.compute "" none arguments = .ok (.ofDigits "7311000") ∧
      concatIntegers.compute "" none arguments.tail = .ok (.ofDigits "311000") ∧
      ∃ other, concatIntegers.compute "" none [integer "007", .ofDigits "311000"] = .ok other ∧
        other.text = .ok "7311000" := by
  intro concatStrings concatIntegers integer arguments
  have strings : IsConcatOf .str concatStrings :=
    ⟨find_concat ▸ List.get_mem _ _, rfl⟩
  have integers : IsConcatOf .int concatIntegers :=
    ⟨find_concat ▸ List.get_mem _ _, rfl⟩
  have three : concatStrings.compute "" none [.ofText "a", .ofText "%", .ofText "b"]
      = .ok (.ofText "a%b") := by decide
  have two : concatStrings.compute "" none [.ofText "%", .ofText "b"] = .ok (.ofText "%b") := by
    decide
  have nested := (concat_textual.1 .str concatStrings strings (.inr rfl) "" none _ _ three).2
    none [.ofText "a"] [.ofText "%", .ofText "b"] [] _ rfl two
  have typed : ∀ argument ∈ arguments, argument.type = .int ∧ argument.WellTyped := by
    intro argument mem
    simp only [arguments, List.mem_cons, List.not_mem_nil, or_false] at mem
    obtain rfl | rfl | rfl := mem <;> exact ⟨rfl, _, rfl, rfl⟩
  have second : (integer "0x1F").text = .ok "31" := by decide
  have third : (integer "1_000u64").text = .ok "1000" := by decide
  have unsigned : ∀ argument ∈ arguments.tail, argument.Unsigned := by
    intro argument mem text decoded
    simp only [arguments, List.tail_cons, List.mem_cons, List.not_mem_nil, or_false] at mem
    obtain rfl | rfl := mem
    · cases second.symm.trans decoded
      decide
    · cases third.symm.trans decoded
      decide
  have joined : concatIntegers.compute "" none arguments = .ok (.ofDigits "7311000") := by
    decide
  have run : concatIntegers.compute "" none arguments.tail = .ok (.ofDigits "311000") := by
    decide
  obtain ⟨cs, spelled, -, -, -, kept⟩ := concat_textual.2 concatIntegers integers "" none arguments _
    (List.cons_ne_nil _ _) typed joined
  have whole : Value.joinedTexts arguments = .ok "7311000".toList := by decide
  cases whole.symm.trans spelled
  obtain ⟨before, inner, other, hbefore, hinner, made, same⟩ := (kept unsigned (by decide)).2 none
    [integer "007"] arguments.tail [] _ rfl (List.cons_ne_nil _ _) run
  have behind : Value.joinedTexts arguments.tail = .ok "311000".toList := by decide
  cases behind.symm.trans hinner
  refine ⟨strings, integers, ⟨three, two, nested⟩, typed, unsigned, joined, run, other, made, ?_⟩
  exact (same.mpr (.inl (by decide))).trans (by decide)

/-- An integer that is written in ones. -/
def ones (length : Nat) : Value :=
  .ofDigits (String.ofList (List.replicate length '1'))

theorem text_ones {length : Nat} (pos : 0 < length) (short : length ≤ Text.digitLimit) :
    (ones length).text = .ok (String.ofList (List.replicate length '1')) := by
  have numeral : Text.IsDecimalNumeral (List.replicate length '1') :=
    { ne_nil := fun eq => Nat.ne_of_gt pos (by simpa using eq)
      digits := fun c mem => List.eq_of_mem_replicate mem ▸ rfl }
  have plain : Text.withoutZeros (List.replicate length '1') = List.replicate length '1' := by
    obtain ⟨rest, rfl⟩ := Nat.exists_eq_add_of_le' pos
    rw [List.replicate_succ, Text.withoutZeros_of_ne (by decide)]
  rw [ones, Value.text_ofDigits, Literal.digits_ofDigits (by rwa [String.toList_ofList])
    (by rwa [String.toList_ofList, List.length_replicate]), String.toList_ofList, plain]

/-- The joined integer may have too many digits although its parts have not. -/
theorem concat_ones {overload : Overload} (concat : IsConcatOf .int overload) {length : Nat}
    (short : length ≤ Text.digitLimit) (long : Text.digitLimit < length + length) :
    ∃ result, overload.compute key span [ones length, ones length] = .ok result ∧
      result.text = .error (.numeralTooLong (length + length)) := by
  have text := text_ones (by omega) short
  have joined : Value.joinedTexts [ones length, ones length]
      = .ok (List.replicate length '1' ++ List.replicate length '1') := by
    refine Value.joinedTexts_cons.mpr ⟨_, _, text, Value.joinedTexts_cons.mpr
      ⟨_, [], text, rfl, rfl⟩, ?_⟩
    rw [String.toList_ofList, List.append_nil]
  have count : (List.replicate length '1' ++ List.replicate length '1').countP Char.isDigit
      = length + length := by
    rw [List.countP_append, List.countP_replicate, if_pos (by decide)]
  refine ⟨_, (compute_concat_eq_ok concat (by simp)).mpr ⟨_, joined, rfl⟩, ?_⟩
  refine (Value.text_ofDigits_joined_tooLong (by simp) ?_ joined {} ?_ (by rwa [count])).trans
    (by rw [count])
  · intro value mem
    obtain rfl : value = ones length := by simpa using mem
    exact ⟨rfl, Value.wellTyped_ofDigits _ _⟩
  · intro value mem spelled decoded minus
    rw [List.tail_cons, List.mem_singleton] at mem
    subst mem
    cases text.symm.trans decoded
    rw [String.toList_ofList] at minus
    cases List.eq_of_mem_replicate minus

/-- The text of `concat(0, 1)` is `1`, and a run that starts with a zero loses it in a nested call.
    Two integers of 2200 digits are joined to one that has no text. -/
theorem concat_not_textual :
    let concatIntegers := concatFunctions.get ⟨3, by decide⟩
    let zero := Value.ofDigits "0"
    let one := Value.ofDigits "1"
    IsConcatOf .int concatIntegers ∧ (zero.WellTyped ∧ zero.text = .ok "0") ∧
      (one.WellTyped ∧ one.text = .ok "1") ∧
      (∃ nested whole other, concatIntegers.compute "" none [zero, one] = .ok nested ∧
        nested.text = .ok "1" ∧
        concatIntegers.compute "" none [one, zero, one] = .ok whole ∧ whole.text = .ok "101" ∧
        concatIntegers.compute "" none [one, nested] = .ok other ∧ other.text = .ok "11") ∧
      ∃ result, concatIntegers.compute "" none [ones 2200, ones 2200] = .ok result ∧
        result.text = .error (.numeralTooLong 4400) := by
  intro concatIntegers zero one
  have integers : IsConcatOf .int concatIntegers := ⟨find_concat ▸ List.get_mem _ _, rfl⟩
  refine ⟨integers, ⟨Value.wellTyped_ofDigits _ _, by decide⟩,
    ⟨Value.wellTyped_ofDigits _ _, by decide⟩, ⟨.ofDigits "01", .ofDigits "101",
    .ofDigits "11", ?_⟩, concat_ones integers (by decide) (by decide)⟩
  decide

end Library

end AliasExpansion
