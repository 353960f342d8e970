-- SUMMARY: An expansion fails with a diagnostic, or because a literal of the source has no value.
import AliasExpansion.Expansion
import AliasExpansion.Proofs.Failures.Evaluation
import AliasExpansion.Proofs.Failures.Reading
import AliasExpansion.Proofs.Failures.Sources
import AliasExpansion.Proofs.Substitution.Stepwise

/-!
# Failures of an expansion

Whatever the source, an expansion gives tokens, or a diagnostic that is no internal error, or it
comes to a literal of the source that has no value, or no bytes, and fails for this reason, or to an
integer that `concat` has joined and that is too long to be read. The stages are followed one by
one: reading, loops, resolution, evaluation and substitution.
-/

namespace AliasExpansion

variable {known : DecodeError → Prop} {key : String}

/-- A failure that tells the author of an invocation what is wrong, or a known failure to decode. -/
structure Told {α : Type} (known : DecodeError → Prop) (result : Except Error α) : Prop where
  traced : TracedAny known result
  ordinary : Ordinary result

namespace Told

variable {α β : Type}

theorem ok (a : α) : Told known (.ok a) :=
  ⟨trivial, .ok a⟩

theorem error {e : Error} (hdiagnostic : e.isDiagnostic = true) (hinternal : e.isInternal = false) :
    Told known (.error e : Except Error α) :=
  ⟨.error hdiagnostic, .error hinternal⟩

theorem decode {error : DecodeError} (h : known error) :
    Told known (.error (.decode error) : Except Error α) :=
  ⟨.inr ⟨error, h, rfl⟩, .error rfl⟩

theorem bind {result : Except Error α} {f : α → Except Error β} (h : Told known result)
    (hf : ∀ a, result = .ok a → Told known (f a)) : Told known (result >>= f) where
  traced := h.traced.bind fun a ha _ => (hf a ha).traced
  ordinary := h.ordinary.bind fun a ha => (hf a ha).ordinary

theorem mapM {f : α → Except Error β} {items : List α} (h : ∀ item ∈ items, Told known (f item)) :
    Told known (items.mapM f) where
  traced := (Traced.mapM fun item mem => (h item mem).traced).any
  ordinary := .mapM fun item mem => (h item mem).ordinary

end Told

-- ---------------------------------------------------------------------------
-- Substitution
-- ---------------------------------------------------------------------------

namespace Placeholder

variable {values : Table String Value}

theorem meaning_error (h : Environment.Accounted known values) {body : List Char}
    {error : DecodeError} (hfails : meaning values body = .error error) : known error := by
  cases body with
  | nil => cases hfails
  | cons c rest =>
    simp only [meaning] at hfails
    split at hfails
    · next value hfind =>
      obtain hfails | ⟨text, -, hfails⟩ := Outcome.bind_eq_error.mp hfails
      · exact (h _ value hfind).text_error hfails
      · cases hfails
    · cases hfails

theorem fillFrom_error (h : Environment.Accounted known values) {body : Option (List Char)}
    {text : List Char} {error : DecodeError} (hfails : fillFrom values body text = .error error) :
    known error := by
  induction text generalizing body with
  | nil => cases body <;> cases hfails
  | cons c rest ih =>
    cases body with
    | none =>
      rw [fillFrom] at hfails
      split at hfails
      · exact ih hfails
      · obtain hfails | ⟨filled, -, hfails⟩ := Outcome.bind_eq_error.mp hfails
        · exact ih hfails
        · cases hfails
    | some body =>
      rw [fillFrom] at hfails
      split at hfails
      · obtain hfails | ⟨named, -, hfails⟩ := Outcome.bind_eq_error.mp hfails
        · exact meaning_error h hfails
        · obtain hfails | ⟨filled, -, hfails⟩ := Outcome.bind_eq_error.mp hfails
          · exact ih hfails
          · cases hfails
      · exact ih hfails

theorem fill_error (h : Environment.Accounted known values) {text : String} {error : DecodeError}
    (hfails : fill values text = .error error) : known error := by
  obtain hfails | ⟨filled, -, hfails⟩ := Outcome.bind_eq_error.mp hfails
  · exact fillFrom_error h hfails
  · cases hfails

end Placeholder

namespace Substitution

variable {values : Table String Value}

/-- Deciding about an atom fails to decode the atom, or a value that stands in it. -/
theorem atom_error (h : Environment.Accounted known values) {token : Token}
    (htoken : Token.Accounted known [token]) {last : Option Replacement} {error : DecodeError}
    (hfails : (atom values token).run last = .error (.decode error)) : known error := by
  cases token with
  | group | punct => cases hfails
  | ident name span =>
    simp only [atom] at hfails
    cases hfind : values.find? name with
    | none => simp [hfind] at hfails
    | some value =>
      rw [hfind] at hfails
      cases hfails
  | literal lit =>
    cases hstring : lit.isString with
    | false => simp [atom, hstring] at hfails
    | true =>
      cases hcontent : lit.content with
      | error e =>
        have heq : e = error := by simpa [atom, hstring, hcontent] using hfails
        exact (Token.accounted_literal.mp htoken).fails error (.inl ⟨hstring, heq ▸ hcontent⟩)
      | ok content =>
        cases hfilled : Placeholder.fill values content with
        | error e =>
          have heq : e = error := by simpa [atom, hstring, hcontent, hfilled] using hfails
          exact heq ▸ Placeholder.fill_error h hfilled
        | ok filled =>
          by_cases hsame : filled = content
          · simp [atom, hstring, hcontent, hfilled, hsame] at hfails
          · simp [atom, hstring, hcontent, hfilled, hsame] at hfails

theorem told_outcome (category : Category) (tokens : List Token) (count : Nat)
    (remaining : List Replacement) :
    Told known (outcome values category tokens count remaining) := by
  induction remaining generalizing count with
  | nil => exact .ok _
  | cons site remaining ih =>
    rw [outcome]
    split
    · exact ih (count + 1)
    · exact .error rfl rfl

theorem told_substitute (h : Environment.Accounted known values) (category : Category)
    {tokens : List Token} (htokens : Token.Accounted known tokens) :
    Told known (substitute values category tokens) := by
  obtain ⟨token, hmem, error, last, hatom, hfails, heq⟩ | heq :=
    substitute_cases values category tokens
  · rw [heq]
    refine .decode (atom_error h ?_ hfails)
    intro lit hlit
    rw [Token.atomsAll_singleton hatom, List.mem_singleton] at hlit
    exact htokens lit (hlit ▸ hmem)
  · rw [heq]
    exact told_outcome category tokens 0 _

end Substitution

-- ---------------------------------------------------------------------------
-- Combinations
-- ---------------------------------------------------------------------------

namespace LoopPattern

mutual

theorem told_bind : ∀ (pattern : LoopPattern) (value : LoopValue), Told known (bind pattern value)
  | .name _ _, .expr e => by
    rw [bind]
    exact .ok _
  | .tuple patterns _, .tuple values span => by
    rw [bind]
    split
    · exact told_bindAll patterns values
    · exact .error rfl rfl
  | .name .., .tuple .. => by
    rw [bind]
    · exact .error rfl rfl
    · nofun
    · nofun
  | .tuple .., .expr _ => by
    rw [bind]
    · exact .error rfl rfl
    · nofun
    · nofun

theorem told_bindAll : ∀ (patterns : List LoopPattern) (values : List LoopValue),
    Told known (bindAll patterns values)
  | pattern :: patterns, value :: values => by
    rw [bindAll]
    split
    · exact (told_bind pattern value).bind fun _ _ =>
        (told_bindAll patterns values).bind fun _ _ => .ok _
    · exact .error rfl rfl
  | [], _ => by
    rw [bindAll]
    · exact .ok _
    · nofun
  | _ :: _, [] => by
    rw [bindAll]
    · exact .ok _
    · nofun

end

end LoopPattern

theorem Invocation.told_combinations (invocation : Invocation) :
    Told known invocation.combinations := by
  refine .mapM fun values _ => ?_
  have hselection : Told known (bindSelection invocation.loops values) :=
    (Told.mapM fun ⟨loop, value⟩ _ => LoopPattern.told_bind loop.pattern value).bind
      fun _ _ => .ok _
  exact hselection.bind fun _ _ => .ok _

namespace Combination

variable {combination : Combination}

theorem traced_evaluate (hkey : ∀ text, ∃ digest, Library.hashText key text = .ok digest)
    (h : ∀ binding ∈ combination.bindings,
      binding.Accounted known ∧ (binding.expr.Calls "concat" → Joins known))
    (hnodup : (Binding.idsAll combination.bindings).Nodup) :
    Traced known (Environment.Accounted known) (combination.evaluate .builtin key) ∧
      Ordinary (combination.evaluate .builtin key) := by
  have hnil : (Binding.idsAll combination.bindings ++ []).Nodup := by simpa using hnodup
  constructor
  · refine (Scope.traced_resolveAll (fun binding mem => (h binding mem).1) .empty).bind
      fun scope hscope _ => ?_
    exact Environment.traced_ofResolved Library.sound_builtin (Library.accounted_builtin hkey)
      (Scope.ready_empty _) hnil Environment.follows_empty hscope (.refl [] _)
      Environment.accounted_empty h
  · refine (Scope.ordinary_resolveAll (Scope.ready_empty _) hnodup).bind fun scope hscope => ?_
    exact (Environment.sound_of_resolveAll key Library.sound_builtin (Scope.ready_empty _) hnil
      Environment.follows_empty hscope (.refl [] _)).1

theorem told_execute (hkey : ∀ text, ∃ digest, Library.hashText key text = .ok digest)
    (h : ∀ binding ∈ combination.bindings,
      binding.Accounted known ∧ (binding.expr.Calls "concat" → Joins known))
    (hblock : Token.Accounted known combination.block)
    (hnodup : (Binding.idsAll combination.bindings).Nodup) :
    Told known (combination.execute .builtin key) := by
  obtain ⟨htraced, hordinary⟩ := traced_evaluate hkey h hnodup
  have hsubstitute {values : Environment} (hvalues : Environment.Accounted known values) :=
    Substitution.told_substitute hvalues .block hblock
  refine ⟨htraced.bind fun values _ hvalues => (hsubstitute hvalues).traced,
    hordinary.bind fun values hvalues => ?_⟩
  rw [hvalues] at htraced
  exact (hsubstitute htraced).ordinary

end Combination

-- ---------------------------------------------------------------------------
-- Expansions
-- ---------------------------------------------------------------------------

/-- Why something has no value when the invocation of the tokens is executed: a literal of the
    tokens has none, or `concat` joins more digits than the limit allows. -/
def Invocation.Failing (tokens : List Token) (invocation : Invocation) (error : DecodeError) :
    Prop :=
  Token.Failing tokens error ∨
    ∃ length, error = .numeralTooLong length ∧ Text.digitLimit < length ∧ invocation.Calls "concat"

theorem told_expand {options : Options}
    (hkey : ∀ text, ∃ digest, Library.hashText options.key text = .ok digest) {source : String}
    {tokens : List Token} (hread : Token.read source = .ok tokens) {invocation : Invocation}
    {state : ReadState} (hofSource : Invocation.ofSource source 0 = .ok (invocation, state)) :
    Told (Invocation.Failing tokens invocation) (expand options source) := by
  have haccounted : Token.Accounted (Invocation.Failing tokens invocation) tokens :=
    Token.accounted_of_read hread fun _ => .inl
  have hnumbered := Invocation.numbered_of_ofSource hofSource
  rw [expand, hofSource]
  obtain ⟨tokens', htokens', hofTokens⟩ := Outcome.bind_eq_ok.mp hofSource
  cases hread.symm.trans htokens'
  have hinvocation := Invocation.accounted_of_ofTokens haccounted hofTokens
  refine invocation.told_combinations.bind fun combinations hcombinations => ?_
  refine (Told.mapM fun combination hmem => ?_).bind fun blocks _ => .ok _
  obtain ⟨hexprs, hblock⟩ := Invocation.mem_exprs_of_combination hcombinations hmem
  have hbindings : ∀ binding ∈ combination.bindings,
      binding.Accounted (Invocation.Failing tokens invocation) ∧
        (binding.expr.Calls "concat" → Joins (Invocation.Failing tokens invocation)) :=
    fun binding mem => ⟨hinvocation.exprs _ (hexprs binding mem), fun calls length long =>
      .inr ⟨length, rfl, long, _, hexprs binding mem, calls⟩⟩
  have hnodup := (Invocation.ids_combination_sublist hcombinations hmem).nodup hnumbered.nodup
  exact (Combination.told_execute hkey hbindings (hblock ▸ hinvocation.block) hnodup).bind
    fun _ _ => .ok _

/-- Whatever the source, an expansion whose key is an integer of at most 64 characters gives tokens,
    or fails with a diagnostic that is no internal error, or fails to decode something: for the
    reason for which some literal of the source has no value or no bytes, or because a `concat` in
    it has joined more digits than the limit allows. -/
theorem expand_failure {options : Options} {seed : Int} (hkey : options.key = toString seed)
    (hseed : (toString seed).length ≤ 64) {source : String} {e : Error}
    (h : expand options source = .error e) :
    (e.isDiagnostic = true ∧ e.isInternal = false) ∨
      ∃ tokens error, Token.read source = .ok tokens ∧ e = .decode error ∧
        ((∃ lit, .literal lit ∈ Token.atomsAll tokens ∧ lit.Fails error) ∨
          ∃ length invocation state, error = .numeralTooLong length ∧ Text.digitLimit < length ∧
            Invocation.ofSource source 0 = .ok (invocation, state) ∧
            invocation.Calls "concat") := by
  cases hsource : Invocation.ofSource source 0 with
  | error syntaxError =>
    rw [expand, hsource] at h
    cases h
    exact .inl ⟨rfl, rfl⟩
  | ok result =>
    obtain ⟨invocation, state⟩ := result
    obtain ⟨tokens, hread, -⟩ := Outcome.bind_eq_ok.mp hsource
    have htold : Told _ (expand options source) :=
      told_expand (hkey ▸ Library.hashText_ok hseed) hread hsource
    obtain hdiagnostic | ⟨error, hfailing, rfl⟩ := htold.traced.cases_error h
    · exact .inl ⟨hdiagnostic, htold.ordinary e h⟩
    · refine .inr ⟨tokens, error, hread, rfl, hfailing.imp id ?_⟩
      rintro ⟨length, heq, long, calls⟩
      exact ⟨length, invocation, state, heq, long, rfl, calls⟩

/-- An escape beyond the last character is behind the failure of the expansion that meets it. -/
theorem expand_failure_escape :
    let options : Options := { key := toString (1 : Int) }
    let source := "\x7b \"\\u\x7b110000\x7d\" \x7d"
    (toString (1 : Int)).length ≤ 64 ∧
      expand options source = .error (.decode .codePointTooLarge) ∧
      ∃ tokens lit, Token.read source = .ok tokens ∧ .literal lit ∈ Token.atomsAll tokens ∧
        lit.Fails .codePointTooLarge := by
  intro options source
  have hseed : (toString (1 : Int)).length ≤ 64 := by decide
  have hfails : expand options source = .error (.decode .codePointTooLarge) := by decide +kernel
  obtain ⟨hdiagnostic, -⟩ | ⟨tokens, error, hread, heq, ⟨lit, hlit, hliteral⟩ | hjoined⟩ :=
    expand_failure rfl hseed hfails
  · cases hdiagnostic
  · cases heq
    exact ⟨hseed, hfails, tokens, lit, hread, hlit, hliteral⟩
  · obtain ⟨length, -, -, rfl, -⟩ := hjoined
    cases heq

/-- Such a failure is no diagnostic. -/
theorem expand_undiagnosed :
    ∃ e, expand { key := toString (1 : Int) } "\x7b \"\\u\x7b110000\x7d\" \x7d" = .error e ∧
      e.isDiagnostic = false :=
  ⟨.decode .codePointTooLarge, by decide +kernel, rfl⟩

-- A lone surrogate is read, and has no bytes when it comes to a digest.
example : expand { key := "1" } "a = hash(\"\\u\x7bD800\x7d\"), \x7b a \x7d"
    = .error (.decode .unencodable) := by
  decide +kernel

end AliasExpansion
