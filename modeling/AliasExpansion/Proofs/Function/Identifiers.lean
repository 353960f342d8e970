-- SUMMARY: The identifiers that the functions make are names that the lexer reads back.
import AliasExpansion.Function.Library
import AliasExpansion.Proofs.Value.WellTyped

/-!
# Identifiers that functions make

The functions make identifiers out of texts: checked ones, slugs, digests, and the contents of
strings. A slug is built from the front, and what is done of it is a name at every moment, apart from
an underscore that stands for a dropped run (`Text.Slugged`). So whatever a function returns as an
identifier is read by the lexer as this one identifier (`Library.identifiers_read_back`).
-/

namespace AliasExpansion

-- ---------------------------------------------------------------------------
-- Slugs
-- ---------------------------------------------------------------------------

namespace Text

open Name

variable {done : List Char} {joined : Bool} {c : Char}

/-- What is done of a slug, reversed: nothing, a name, or a name and the underscore of a dropped
    run. -/
inductive Slugged : List Char → Bool → Prop where
  | empty : Slugged [] false
  | name {done : List Char} (shaped : isNameShaped done.reverse = true) : Slugged done false
  | joined {done : List Char} (shaped : isNameShaped done.reverse = true) :
    Slugged ('_' :: done) true

theorem isNameShaped_reverse_cons (shaped : isNameShaped done.reverse = true)
    (word : isWordChar c = true) : isNameShaped (c :: done).reverse = true := by
  rw [List.reverse_cons]
  exact isNameShaped_append shaped (List.forall_mem_singleton.mpr word)

/-- A word character goes behind a name, and at the front if it may start one. -/
theorem Slugged.push (state : Slugged done joined) (word : isWordChar c = true)
    (start : done = [] → isNameStart c = true) : Slugged (c :: done) false := by
  cases state with
  | empty => exact .name (by simp [isNameShaped, start rfl])
  | name shaped => exact .name (isNameShaped_reverse_cons shaped word)
  | joined shaped =>
    exact .name (isNameShaped_reverse_cons (isNameShaped_reverse_cons shaped (by decide)) word)

theorem Slugged.slugFrom (state : Slugged done joined) (cs : List Char) :
    slugFrom done joined cs = [] ∨ isNameShaped (slugFrom done joined cs).reverse = true := by
  induction cs generalizing done joined with
  | nil =>
    cases state with
    | empty => exact .inl rfl
    | name shaped => exact .inr shaped
    | joined shaped => exact .inr shaped
  | cons c rest ih =>
    rw [Text.slugFrom]
    split
    · next word =>
      split
      · exact ih (.name (by simp [isNameShaped, word]; decide))
      · next noDigit =>
        split
        · exact ih state
        · refine ih (state.push word ?_)
          rintro rfl
          cases state with
          | empty => simp_all [isNameStart, isNumeric]
          | name shaped => cases shaped
    · split
      · next gap =>
        cases state with
        | empty => simp at gap
        | name shaped => exact ih (.joined shaped)
        | joined => simp at gap
      · exact ih state

/-- A slug is a name, or an underscore. -/
theorem isNameShaped_slug (cs : List Char) : isNameShaped (slug cs) = true := by
  have finished := Slugged.empty.slugFrom cs
  rw [slug]
  split
  · decide
  · next some => exact finished.resolve_left some

end Text

-- ---------------------------------------------------------------------------
-- Values that are names
-- ---------------------------------------------------------------------------

namespace Value

/-- Every token of the value, at any depth, is a token of some source, up to its place. -/
def Lexed (value : Value) : Prop :=
  ∀ atom ∈ Token.atomsAll value.tokens, ∃ source tokens, Token.read source = .ok tokens ∧
    ∃ original ∈ Token.atomsAll tokens, original.bare = atom.bare

/-- The value is one identifier, and the lexer reads it back from its name. -/
def IsName (value : Value) : Prop :=
  value.type = .ident ∧ ∃ name place, value.tokens = [.ident name place] ∧
    Token.read name = .ok [.ident name {}]

variable {value result : Value} {name : String} {place : Span}

theorem isName_ofName (written : Name.IsWritten name.toList) : (ofName name place).IsName :=
  ⟨rfl, name, place, rfl, Token.read_name written⟩

theorem isWritten_of_lexed (lexed : value.Lexed) (tokens : value.tokens = [.ident name place]) :
    Name.IsWritten name.toList := by
  obtain ⟨source, read, hread, original, mem, same⟩ :=
    lexed (.ident name place) (by simp [tokens, Token.atomsAll, Token.atoms])
  cases original with
  | ident found span =>
    simp only [Token.bare, Token.ident.injEq] at same
    rw [← same.1]
    exact Token.isWritten_of_read hread mem
  | punct | literal | group => simp [Token.bare] at same

/-- A cast to an identifier keeps a token that was lexed, or takes the one that a text spells. -/
theorem isName_of_cast (typed : value.WellTyped) (lexed : value.Lexed)
    (h : value.cast .ident = .ok result) : result.IsName := by
  obtain ⟨type, wellTyped, kept | respelled⟩ := isCast_of_cast typed h
  · rw [WellTyped, type] at wellTyped
    obtain ⟨name, place, tokens⟩ := wellTyped
    have written := isWritten_of_lexed lexed (kept.symm.trans tokens)
    exact ⟨type, name, place, tokens, Token.read_name written⟩
  · obtain ⟨name, place, -, rfl⟩ | ⟨lit, content, name, place, -, -, -, read, rfl⟩ := respelled
    · cases type
    · have mem : .ident name place ∈ Token.atomsAll [.ident name place] := by
        simp [Token.atomsAll, Token.atoms]
      exact isName_ofName (Token.isWritten_of_read read mem)

end Value

-- ---------------------------------------------------------------------------
-- Functions
-- ---------------------------------------------------------------------------

/-- From well-typed arguments out of lexed tokens, an overload for identifiers makes a name. -/
def Overload.MakesNames (overload : Overload) : Prop :=
  overload.signature.output = .ident → ∀ key span arguments result,
    (∀ argument ∈ arguments, argument.WellTyped ∧ argument.Lexed) →
    overload.compute key span arguments = .ok result → result.IsName

/-- An overload that computes its result from one argument. -/
theorem Overload.MakesNames.of_first {overload : Overload}
    {f : String → Option Span → Value → Except Error Value}
    (compute : overload.compute = Library.onFirst f)
    (makes : overload.signature.output = .ident → ∀ key span value result,
      value.WellTyped → value.Lexed → f key span value = .ok result → result.IsName) :
    overload.MakesNames := by
  intro output key span arguments result lexed h
  rw [compute] at h
  cases arguments with
  | nil => cases h
  | cons argument rest =>
    obtain ⟨typed, lexed⟩ := lexed argument List.mem_cons_self
    exact makes output key span argument result typed lexed h

namespace Library

theorem isName_identifier {text : String} {fault : String → EvaluationFault} {span : Option Span}
    {result : Value} (h : identifier text fault span = .ok result) : result.IsName := by
  rw [identifier] at h
  split at h
  · next usable =>
    cases h
    exact Value.isName_ofName (Name.isWritten_of_isIdentifier usable)
  · cases h

theorem isName_slugOf (text : String) : (slugOf text).IsName := by
  apply Value.isName_ofName
  rw [String.toList_ofList]
  exact .inl (Text.isNameShaped_slug text.toList)

/-- Digits behind underscores are a name. -/
theorem isName_hashed (digest : Nat) : (Value.ofName ("__" ++ toString digest)).IsName := by
  have spelled : (toString digest).toList = Nat.toDigits 10 digest := String.toList_ofList
  apply Value.isName_ofName
  rw [String.toList_append, spelled]
  refine .inl (Name.isNameShaped_append (by decide) fun c mem => ?_)
  exact Text.forall_isDigit (P := fun c => Text.isWordChar c = true) (by decide)
    ((Text.IsDecimalNumeral.toDigits digest).digits c mem)

theorem makesNames_textFunction (name : String) (transform : List Char → List Char) :
    ∀ overload ∈ textFunction name transform, overload.MakesNames := by
  refine List.forall_mem_cons.mpr ⟨.of_first rfl nofun, List.forall_mem_singleton.mpr
    (.of_first rfl fun _ key span value result _ _ h => ?_)⟩
  obtain ⟨text, -, h⟩ := Outcome.bind_eq_ok.mp h
  exact isName_identifier h

theorem makesNames_normalizeFunctions : ∀ overload ∈ normalizeFunctions, overload.MakesNames := by
  refine List.forall_mem_cons.mpr ⟨.of_first rfl fun _ key span value result _ _ h => ?_,
    List.forall_mem_cons.mpr ⟨.of_first rfl fun _ key span value result _ _ h => ?_,
    List.forall_mem_singleton.mpr (.of_first rfl fun _ key span value result _ _ h => ?_)⟩⟩
  · cases h
    exact isName_slugOf _
  · obtain ⟨text, -, h⟩ := Outcome.bind_eq_ok.mp h
    cases h
    exact isName_slugOf _
  · cases h
    exact isName_slugOf _

theorem hashText_of_hashValue {key digest : String} {value : Value}
    (h : hashValue key value = .ok digest) : ∃ text, hashText key text = .ok digest := by
  obtain ⟨text, -, h⟩ := Outcome.bind_eq_ok.mp h
  dsimp only at h
  split at h
  · cases h
  · exact ⟨text, h⟩

theorem hashText_eq_ok {key text digest : String} (h : hashText key text = .ok digest) :
    ∃ number : Nat, digest = toString number := by
  rw [hashText] at h
  split at h
  · cases h
  · dsimp only at h
    split at h
    · cases h
    · cases h
      exact ⟨_, rfl⟩

theorem makesNames_hashFunctions : ∀ overload ∈ hashFunctions, overload.MakesNames := by
  have hashed (key : String) (value result : Value)
      (h : (do return .ofName ("__" ++ (← hashValue key value)))
        = (.ok result : Except Error Value)) : result.IsName := by
    obtain ⟨digits, digest, h⟩ := Outcome.bind_eq_ok.mp h
    cases h
    obtain ⟨text, digest⟩ := hashText_of_hashValue digest
    obtain ⟨number, rfl⟩ := hashText_eq_ok digest
    exact isName_hashed _
  exact List.forall_mem_cons.mpr ⟨.of_first rfl nofun, List.forall_mem_cons.mpr
    ⟨.of_first rfl fun _ key _ value result _ _ => hashed key value result,
    List.forall_mem_singleton.mpr
      (.of_first rfl fun _ key _ value result _ _ => hashed key value result)⟩⟩

theorem makesNames_concatFunctions : ∀ overload ∈ concatFunctions, overload.MakesNames := by
  unfold concatFunctions
  simp only [List.forall_mem_cons]
  refine ⟨fun _ key span arguments result _ h => ?_, fun _ key span arguments result _ h => ?_,
    nofun, nofun, nofun, nofun⟩
  · obtain ⟨texts, -, h⟩ := Outcome.bind_eq_ok.mp h
    exact isName_identifier h
  · obtain ⟨first, -, h⟩ := Outcome.bind_eq_ok.mp h
    exact isName_identifier h

theorem makesNames_castFunction (target : ValueType) : (castFunction target).MakesNames :=
  .of_first rfl fun output _ _ _ _ typed lexed h =>
    Value.isName_of_cast typed lexed (output ▸ h)

theorem makesNames_tokensFunctions : ∀ overload ∈ tokensFunctions, overload.MakesNames :=
  List.forall_mem_cons.mpr ⟨nofun, List.forall_mem_singleton.mpr nofun⟩

theorem makesNames_builtin : ∀ overload ∈ builtin.overloads, overload.MakesNames :=
  forall_builtin makesNames_textFunction makesNames_normalizeFunctions makesNames_hashFunctions
    makesNames_concatFunctions makesNames_castFunction makesNames_tokensFunctions

/-- Every identifier that a built-in function returns, from well-typed arguments out of lexed tokens,
    is one identifier that the lexer reads back. A slug is a usable name, an underscore or a
    keyword, and never empty; and every usable name is read as one identifier. -/
theorem identifiers_read_back :
    (∀ overload ∈ builtin.overloads, overload.signature.output = .ident →
      ∀ (key : String) (span : Option Span) (arguments : List Value) (result : Value),
        (∀ argument ∈ arguments, argument.WellTyped ∧ argument.Lexed) →
        overload.compute key span arguments = .ok result →
        result.type = .ident ∧ ∃ name place, result.tokens = [.ident name place] ∧
          Token.read name = .ok [.ident name {}]) ∧
    (∀ text : String, Text.slug text.toList ≠ [] ∧
      (Name.isIdentifier (String.ofList (Text.slug text.toList)) = true ∨
        String.ofList (Text.slug text.toList) = "_" ∨
        String.ofList (Text.slug text.toList) ∈ Name.keywords)) ∧
    ∀ name, Name.isIdentifier name = true → Token.read name = .ok [.ident name {}] := by
  refine ⟨makesNames_builtin, fun text => ?_, fun name => Token.read_of_isIdentifier⟩
  have shaped := Text.isNameShaped_slug text.toList
  constructor
  · intro empty
    rw [empty] at shaped
    cases shaped
  · exact Name.isIdentifier_cases (by rwa [String.toList_ofList])

/-- The raw identifier `r#type`, taken for an expression and cast back. -/
theorem identifiers_read_back_raw_name :
    let argument : Value := { type := .expr, tokens := [.ident "r#type" {}] }
    (castFunction .ident) ∈ builtin.overloads ∧
      (castFunction .ident).signature.output = .ident ∧
      (argument.WellTyped ∧ argument.Lexed) ∧
      (castFunction .ident).compute "" none [argument] = .ok (.ofName "r#type") ∧
      Token.read "r#type" = .ok [.ident "r#type" {}] ∧
      Name.isIdentifier (String.ofList (Text.slug "r#type".toList)) = true := by
  intro argument
  have usable : Name.isIdentifier "r#type" = true := by decide
  have mem : castFunction .ident ∈ builtin.overloads := by
    simp [builtin]
  have typed : argument.WellTyped := by
    have accepted : Category.expr.accepts argument.tokens = true := by decide
    exact Category.accepts_iff.mp accepted
  have lexed : argument.Lexed := fun atom mem =>
    ⟨"r#type", _, identifiers_read_back.2.2 "r#type" usable, atom, mem, rfl⟩
  have cast : (castFunction .ident).compute "" none [argument] = .ok (.ofName "r#type") := by
    decide
  obtain ⟨-, name, place, tokens, read⟩ := identifiers_read_back.1 _ mem rfl "" none [argument] _
    (List.forall_mem_singleton.mpr ⟨typed, lexed⟩) cast
  cases tokens
  exact ⟨mem, rfl, ⟨typed, lexed⟩, cast, read, by decide⟩

end Library

end AliasExpansion
