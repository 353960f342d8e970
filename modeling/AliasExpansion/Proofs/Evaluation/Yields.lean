-- SUMMARY: Casts and built-in functions give values of the types that they promise.
import AliasExpansion.Function.Library
import AliasExpansion.Proofs.Outcome
import AliasExpansion.Proofs.Resolution.Assignment

/-!
# Results and their types

A computation yields a type when its result has that type and its failures are not internal errors.
A cast always gives the type it casts to, and cannot fail when it only forgets what is known about
the value. Every built-in overload yields its declared output type.
-/

namespace AliasExpansion

/-- The result has the type, and a failure is no internal error. -/
def Yields (target : ValueType) : Except Error Value → Prop
  | .ok value => value.type = target
  | .error e => e.isInternal = false

/-- A failure is no internal error. -/
def Ordinary {α : Type} (result : Except Error α) : Prop :=
  ∀ e, result = .error e → e.isInternal = false

section

variable {α β : Type} {target : ValueType}

theorem Ordinary.ok (a : α) : Ordinary (.ok a) := by
  intro e h
  cases h

theorem Ordinary.error {e : Error} (h : e.isInternal = false) :
    Ordinary (.error e : Except Error α) := by
  rintro _ ⟨⟩
  exact h

theorem Ordinary.bind {result : Except Error α} {f : α → Except Error β} (h : Ordinary result)
    (hf : ∀ a, result = .ok a → Ordinary (f a)) : Ordinary (result >>= f) := by
  cases result with
  | ok a => exact hf a rfl
  | error e => exact .error (h e rfl)

theorem Ordinary.mapM {f : α → Except Error β} {items : List α}
    (h : ∀ item ∈ items, Ordinary (f item)) : Ordinary (items.mapM f) := by
  induction items with
  | nil => exact .ok []
  | cons item rest ih =>
    rw [List.mapM_cons]
    have hrest := ih fun item hitem => h item (List.mem_cons_of_mem _ hitem)
    exact (h item List.mem_cons_self).bind fun a _ => hrest.bind fun as _ => .ok _

theorem Yields.bind {result : Except Error α} {f : α → Except Error Value} (h : Ordinary result)
    (hf : ∀ a, result = .ok a → Yields target (f a)) : Yields target (result >>= f) := by
  cases result with
  | ok a => exact hf a rfl
  | error e => exact h e rfl

theorem Yields.ordinary {result : Except Error Value} (h : Yields target result) :
    Ordinary result := by
  rintro e rfl
  exact h

theorem ordinary_decode (result : Except DecodeError α) : Ordinary (result.mapError .decode) := by
  cases result with
  | ok a => exact .ok a
  | error e => exact .error rfl

end

-- ---------------------------------------------------------------------------
-- Casts
-- ---------------------------------------------------------------------------

/-- A coercion that keeps the tokens and checks nothing: the type stays, or it is forgotten. -/
def ValueType.Widens (source target : ValueType) : Prop :=
  source = target ∨ target = .tokens ∨ target = .raw

/-- Types into which nothing else coerces, except by widening. -/
def ValueType.Plain (target : ValueType) : Prop :=
  target ≠ .path ∧ target ≠ .type ∧ target ≠ .expr
deriving Decidable

theorem ValueType.Plain.widens {source target : ValueType} (hplain : target.Plain) {cost : Nat}
    (h : source.coercionCost target = some cost) : source.Widens target := by
  unfold Plain at hplain
  unfold Widens
  cases source <;> cases target <;> simp_all [coercionCost]

namespace Value

theorem type_reparse {tokens : List Token} {target : ValueType} {value : Value}
    (h : reparse tokens target = .ok value) : value.type = target := by
  unfold reparse at h
  split at h
  · obtain ⟨_, -, h⟩ := Outcome.bind_eq_ok.1 h
    cases h
    rfl
  · cases h
    rfl

theorem type_identOfText {text : String} {span : Span} {value : Value}
    (h : identOfText text span = .ok value) : value.type = .ident := by
  obtain ⟨tokens, -, h⟩ := Outcome.bind_eq_ok.1 h
  obtain ⟨_, -, h⟩ := Outcome.bind_eq_ok.1 h
  split at h
  · cases h
    rfl
  · cases h

/-- A refusal for the form of the tokens is no internal error. -/
theorem yields_mapError {result : Except SyntaxError Value} {refuse : SyntaxError → Error}
    {target : ValueType} (hrefuse : ∀ e, (refuse e).isInternal = false)
    (h : ∀ value, result = .ok value → value.type = target) :
    Yields target (result.mapError refuse) := by
  cases result with
  | ok value => exact h value rfl
  | error e => exact hrefuse e

theorem yields_cast (value : Value) (target : ValueType) : Yields target (value.cast target) := by
  have hreparse (target : ValueType) : Yields target ((reparse value.tokens target).mapError
      fun e => .type (.cast value.type target e.fault) (some value.span)) :=
    yields_mapError (fun _ => rfl) fun _ => type_reparse
  unfold cast
  split
  · next heq => exact heq
  · split
    · split
      · refine .bind (ordinary_decode _) fun text _ => ?_
        exact yields_mapError (fun _ => rfl) fun _ => type_identOfText
      · exact hreparse .ident
    · split
      · exact rfl
      · split
        · exact .bind (ordinary_decode _) fun text _ => rfl
        · exact hreparse .str
    · exact hreparse _

theorem exists_cast {value : Value} {target : ValueType} (h : value.type.Widens target) :
    ∃ result, value.cast target = .ok result := by
  unfold cast
  split
  · exact ⟨value, rfl⟩
  · next hne =>
    obtain heq | rfl | rfl := h
    · exact absurd heq hne
    · exact ⟨_, rfl⟩
    · exact ⟨_, rfl⟩

end Value

-- ---------------------------------------------------------------------------
-- Overloads
-- ---------------------------------------------------------------------------

/-- The overload takes at least one argument, nothing coerces to a parameter of it except by
    widening, and from arguments of its parameter types it yields what its signature says. -/
structure Overload.Sound (overload : Overload) : Prop where
  takes_some : overload.signature.fixed ++ overload.signature.variadic.toList ≠ []
  plain : ∀ target ∈ overload.signature.fixed ++ overload.signature.variadic.toList, target.Plain
  yields : ∀ key span values, values ≠ [] →
    values.map Value.type = overload.signature.parameterTypes values.length →
    Yields overload.signature.output (overload.compute key span values)

/-- An overload that computes its result from one argument. -/
theorem Overload.Sound.of_first {overload : Overload} {parameter : ValueType}
    (hfixed : overload.signature.fixed = [parameter]) (hvariadic : overload.signature.variadic = none)
    (hplain : parameter.Plain) {f : String → Option Span → Value → Except Error Value}
    (hcompute : overload.compute = Library.onFirst f)
    (hf : ∀ key span value, value.type = parameter →
      Yields overload.signature.output (f key span value)) : overload.Sound where
  takes_some := by simp [hfixed]
  plain := by simpa [hfixed, hvariadic] using hplain
  yields := by
    intro key span values hvalues htypes
    rw [hcompute]
    cases values with
    | nil => exact absurd rfl hvalues
    | cons value rest =>
      rw [Signature.parameterTypes, hfixed, List.map_cons] at htypes
      exact hf key span value (List.cons.inj htypes).1

namespace Library

def Sound (library : Library) : Prop :=
  ∀ overload ∈ library.overloads, overload.Sound

theorem ordinary_textOf (value : Value) : Ordinary (textOf value) :=
  ordinary_decode _

theorem ordinary_textsOf (values : List Value) : Ordinary (values.mapM textOf) :=
  .mapM fun value _ => ordinary_textOf value

theorem yields_identifier (text : String) (fault : String → EvaluationFault)
    (span : Option Span) : Yields .ident (identifier text fault span) := by
  unfold identifier
  split
  · rfl
  · rfl

theorem ordinary_hashText (key text : String) : Ordinary (hashText key text) := by
  unfold hashText
  extract_lets
  split
  · exact .error rfl
  · split
    · exact .error rfl
    · exact .ok _

theorem ordinary_hashValue (key : String) (value : Value) : Ordinary (hashValue key value) := by
  refine .bind (ordinary_textOf value) fun text _ => ?_
  dsimp only
  split
  · exact .error rfl
  · exact ordinary_hashText key text

theorem sound_textFunction (name : String) (transform : List Char → List Char) :
    ∀ overload ∈ textFunction name transform, overload.Sound := by
  refine List.forall_mem_cons.2 ⟨.of_first rfl rfl (by decide) rfl fun key span value _ => ?_,
    List.forall_mem_singleton.2 (.of_first rfl rfl (by decide) rfl fun key span value _ => ?_)⟩
  · exact .bind (ordinary_textOf _) fun text _ => by rfl
  · exact .bind (ordinary_textOf _) fun text _ => yields_identifier _ _ _

theorem sound_normalizeFunctions : ∀ overload ∈ normalizeFunctions, overload.Sound := by
  refine List.forall_mem_cons.2 ⟨.of_first rfl rfl (by decide) rfl fun key span value _ => ?_,
    List.forall_mem_cons.2 ⟨.of_first rfl rfl (by decide) rfl fun key span value _ => ?_,
    List.forall_mem_singleton.2 (.of_first rfl rfl (by decide) rfl fun key span value _ => ?_)⟩⟩
  · rfl
  · exact .bind (ordinary_textOf _) fun text _ => by rfl
  · rfl

theorem sound_hashFunctions : ∀ overload ∈ hashFunctions, overload.Sound := by
  have hident (key : String) (value : Value) :
      Yields .ident (do return .ofName ("__" ++ (← hashValue key value))) :=
    .bind (ordinary_hashValue _ _) fun digest _ => by rfl
  refine List.forall_mem_cons.2 ⟨.of_first rfl rfl (by decide) rfl fun key span value _ => ?_,
    List.forall_mem_cons.2 ⟨.of_first rfl rfl (by decide) rfl fun key span value _ => ?_,
    List.forall_mem_singleton.2 (.of_first rfl rfl (by decide) rfl fun key span value _ => ?_)⟩⟩
  · exact .bind (ordinary_hashValue _ _) fun digest _ => by rfl
  · exact hident key value
  · exact hident key value

theorem sound_concatFunctions : ∀ overload ∈ concatFunctions, overload.Sound := by
  unfold concatFunctions
  simp only [List.forall_mem_cons]
  refine ⟨⟨by simp, by simp [ValueType.Plain], fun key span values _ _ => ?_⟩,
    ⟨by simp, by simp [ValueType.Plain], fun key span values _ _ => ?_⟩,
    ⟨by simp, by simp [ValueType.Plain], fun key span values _ _ => ?_⟩,
    ⟨by simp, by simp [ValueType.Plain], fun key span values _ _ => ?_⟩,
    ⟨by simp, by simp [ValueType.Plain], fun key span values _ _ => ?_⟩, nofun⟩
  · exact .bind (ordinary_textsOf _) fun texts _ => yields_identifier _ _ _
  · exact .bind (ordinary_textsOf _) fun first _ => yields_identifier _ _ _
  · exact .bind (ordinary_textsOf _) fun texts _ => by rfl
  · exact .bind (ordinary_textsOf _) fun texts _ => by rfl
  · rfl

theorem sound_castFunction (target : ValueType) : (castFunction target).Sound :=
  .of_first rfl rfl (by decide) rfl fun key span value _ => value.yields_cast target

theorem sound_tokensFunctions : ∀ overload ∈ tokensFunctions, overload.Sound :=
  List.forall_mem_cons.2 ⟨.of_first rfl rfl (by decide) rfl fun key span value htype => htype,
    List.forall_mem_singleton.2 (.of_first rfl rfl (by decide) rfl fun key span value _ => by rfl)⟩

theorem sound_builtin : Sound builtin :=
  forall_builtin sound_textFunction sound_normalizeFunctions sound_hashFunctions
    sound_concatFunctions sound_castFunction sound_tokensFunctions

end Library

end AliasExpansion
