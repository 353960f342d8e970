-- SUMMARY: Values whose tokens have the form of their type, and that casts keep them so.
import AliasExpansion.Proofs.Failures.Values
import AliasExpansion.Proofs.Lexing.Names

/-!
# Well-typed values

A value is well-typed when its tokens have the form that its type promises. The texts of names,
strings and integers are taken from the first token without a look at it, which is right for
well-typed values only. A cast gives a well-typed value of the target type or a type error
(`Value.cast_wellTyped`), and a name comes back unchanged from the string that holds it.
-/

namespace AliasExpansion

namespace Value

-- ---------------------------------------------------------------------------
-- Well-typed values
-- ---------------------------------------------------------------------------

/-- The tokens of the value have the form that its type promises. -/
def WellTyped (value : Value) : Prop :=
  match value.type with
  | .ident => ∃ name span, value.tokens = [.ident name span]
  | .str => ∃ lit, value.tokens = [.literal lit] ∧ lit.isString = true
  | .int => ∃ lit, value.tokens = [.literal lit] ∧ lit.kind = .int
  | .path => Category.path.check value.tokens = .ok ()
  | .type => Category.type.check value.tokens = .ok ()
  | .expr => Category.expr.check value.tokens = .ok ()
  | .tokens | .raw => True

/-- A name and a string that holds it: `result` is the string of the identifier that `value`
    consists of, or the identifier that the string literal spells. -/
def Respelled (value result : Value) : Prop :=
  (∃ name place, value.tokens = [.ident name place] ∧ result = ofText name value.span) ∨
  ∃ lit content name place, value.tokens = [.literal lit] ∧ lit.isString = true ∧
    lit.content = .ok content ∧ Token.read content = .ok [.ident name place] ∧
    result = ofName name value.span

variable {value result : Value} {target : ValueType} {name : String} {span : Span}

@[simp] theorem wellTyped_ofName : (ofName name span).WellTyped := ⟨name, span, rfl⟩

@[simp] theorem wellTyped_ofText {text : String} : (ofText text span).WellTyped :=
  ⟨.ofContent text span, rfl, rfl⟩

/-- Tokens of the form of a category make a well-typed value. -/
theorem wellTyped_of_check {tokens : List Token}
    (form : ∀ category ∈ target.category?, category.check tokens = .ok ()) :
    ({ type := target, tokens } : Value).WellTyped := by
  cases target with
  | ident =>
    obtain ⟨name, span, rfl, -⟩ := Category.check_ident.mp (form _ rfl)
    exact ⟨name, span, rfl⟩
  | str => exact Category.check_stringLiteral.mp (form _ rfl)
  | int => exact Category.check_intLiteral.mp (form _ rfl)
  | path | type | expr => exact form _ rfl
  | tokens | raw => trivial

-- ---------------------------------------------------------------------------
-- Casts
-- ---------------------------------------------------------------------------

/-- What a cast may give: a well-typed value of the target type, with the same tokens unless a name
    and a string took each other's place. -/
structure IsCast (value : Value) (target : ValueType) (result : Value) : Prop where
  type : result.type = target
  wellTyped : result.WellTyped
  tokens : result.tokens = value.tokens ∨ value.Respelled result

theorem isCast_reparse (h : reparse value.tokens target = .ok result) :
    value.IsCast target result := by
  have form : ∀ category ∈ target.category?, category.check value.tokens = .ok () := by
    rintro category found
    rw [reparse, Option.mem_def.mp found] at h
    obtain ⟨_, checked, -⟩ := Outcome.bind_eq_ok.mp h
    exact checked
  have same : result = { type := target, tokens := value.tokens } := by
    rw [reparse] at h
    split at h
    · obtain ⟨_, -, done⟩ := Outcome.bind_eq_ok.mp h
      cases done
      rfl
    · cases h
      rfl
  subst same
  exact ⟨rfl, wellTyped_of_check form, .inl rfl⟩

/-- The identifier that a text spells is the one token of the text. -/
theorem identOfText_eq_ok {text : String} (h : identOfText text span = .ok result) :
    ∃ name place, Token.read text = .ok [.ident name place] ∧ result = ofName name span := by
  obtain ⟨tokens, read, h⟩ := Outcome.bind_eq_ok.mp h
  obtain ⟨_, checked, h⟩ := Outcome.bind_eq_ok.mp h
  obtain ⟨name, place, rfl, -⟩ := Category.check_ident.mp checked
  cases h
  exact ⟨name, place, read, rfl⟩

theorem identifier?_eq_some (h : value.identifier? = some name) :
    ∃ place, value.tokens = [.ident name place] := by
  rw [identifier?] at h
  split at h
  · next found place tokens =>
    simp only [Option.ite_none_right_eq_some, Option.some.injEq] at h
    exact ⟨place, h.2 ▸ tokens⟩
  · cases h

/-- A cast that succeeds. -/
theorem isCast_of_cast (typed : value.WellTyped) (h : value.cast target = .ok result) :
    value.IsCast target result := by
  unfold cast at h
  dsimp only at h
  split at h
  · next same =>
    cases h
    exact ⟨same, typed, .inl rfl⟩
  · split at h
    · split at h
      · next lit literal =>
        obtain ⟨tokens, isString⟩ := stringLiteral?_eq_some literal
        obtain ⟨content, decoded, h⟩ := Outcome.bind_eq_ok.mp h
        obtain ⟨name, place, read, rfl⟩ := identOfText_eq_ok (Outcome.mapError_eq_ok.mp h)
        exact ⟨rfl, wellTyped_ofName, .inr (.inr ⟨lit, content, name, place, tokens, isString,
          Outcome.mapError_eq_ok.mp decoded, read, rfl⟩)⟩
      · exact isCast_reparse (Outcome.mapError_eq_ok.mp h)
    · split at h
      · next name identifier =>
        obtain ⟨place, tokens⟩ := identifier?_eq_some identifier
        cases h
        exact ⟨rfl, wellTyped_ofText, .inr (.inl ⟨name, place, tokens, rfl⟩)⟩
      · split at h
        · next isName =>
          rw [WellTyped, isName] at typed
          obtain ⟨name, place, tokens⟩ := typed
          rw [text, isName, tokens] at h
          cases h
          exact ⟨rfl, wellTyped_ofText, .inr (.inl ⟨name, place, tokens, rfl⟩)⟩
        · exact isCast_reparse (Outcome.mapError_eq_ok.mp h)
    · exact isCast_reparse (Outcome.mapError_eq_ok.mp h)

/-- A cast that fails is a type error at the value, unless a string literal does not decode. -/
theorem error_of_cast (typed : value.WellTyped)
    (decodes : ∀ lit, .literal lit ∈ value.tokens → lit.isString = true →
      ∃ content, lit.content = .ok content) {e : Error} (h : value.cast target = .error e) :
    ∃ fault, e = .type (.cast value.type target fault) (some value.span) := by
  have refused {α : Type} {outcome : Except SyntaxError α}
      (h : outcome.mapError (fun e => Error.type (.cast value.type target e.fault) (some value.span))
        = .error e) : ∃ fault, e = .type (.cast value.type target fault) (some value.span) := by
    cases outcome with
    | ok => cases h
    | error refusal =>
      cases h
      exact ⟨refusal.fault, rfl⟩
  unfold cast at h
  dsimp only at h
  split at h
  · cases h
  · split at h
    · split at h
      · next lit literal =>
        obtain ⟨tokens, isString⟩ := stringLiteral?_eq_some literal
        obtain ⟨content, decoded⟩ := decodes lit (by simp [tokens]) isString
        rw [decoded] at h
        exact refused h
      · exact refused h
    · split at h
      · cases h
      · split at h
        · next isName =>
          rw [WellTyped, isName] at typed
          obtain ⟨name, place, tokens⟩ := typed
          rw [text, isName, tokens] at h
          cases h
        · exact refused h
    · exact refused h

-- ---------------------------------------------------------------------------
-- Names and the strings that hold them
-- ---------------------------------------------------------------------------

theorem cast_ofName_str : (ofName name span).cast .str = .ok (ofText name span) := by
  by_cases usable : Name.isIdentifier name = true <;>
    simp [cast, identifier?, ofName, usable, text, Value.span, Token.firstSpan, Token.span]

/-- A string literal that holds a usable name becomes this name. -/
theorem cast_ident_of_literal {lit : Literal} (other : value.type ≠ .ident)
    (literal : value.stringLiteral? = some lit) (decoded : lit.content = .ok name)
    (usable : Name.isIdentifier name = true) :
    value.cast .ident = .ok (ofName name value.span) := by
  have checked : Category.ident.check [.ident name {}] = .ok () :=
    Category.check_ident.mpr ⟨name, {}, rfl, usable⟩
  have spelled : identOfText name value.span = .ok (ofName name value.span) := by
    rw [identOfText, Token.read_of_isIdentifier usable, Outcome.ok_bind, checked]
    rfl
  rw [cast]
  simp only [if_neg other, literal]
  rw [decoded, Outcome.mapError_ok, Outcome.ok_bind, spelled, Outcome.mapError_ok]

theorem cast_ofText_ident (usable : Name.isIdentifier name = true) :
    (ofText name span).cast .ident = .ok (ofName name span) :=
  cast_ident_of_literal nofun rfl (Literal.content_ofContent name span) usable

/-- Casts preserve well-typedness: a cast of a well-typed value, whose string literals decode, is a
    type error at the value or a well-typed value of the target type. The tokens stay, unless an
    identifier becomes a string or a string an identifier; and a name that becomes a string and
    then an identifier is the same name. -/
theorem cast_wellTyped :
    (∀ (value : Value) (target : ValueType), value.WellTyped →
      (∀ lit, .literal lit ∈ value.tokens → lit.isString = true →
        ∃ content, lit.content = .ok content) →
      (∃ fault,
        value.cast target = .error (.type (.cast value.type target fault) (some value.span))) ∨
      ∃ result, value.cast target = .ok result ∧ result.type = target ∧ result.WellTyped ∧
        (result.tokens = value.tokens ∨ value.Respelled result)) ∧
    ∀ (name : String) (span : Span), Name.isIdentifier name = true →
      ∃ text, (ofName name span).cast .str = .ok text ∧
        text.cast .ident = .ok (ofName name span) := by
  constructor
  · intro value target typed decodes
    cases h : value.cast target with
    | ok result =>
      obtain ⟨type, wellTyped, tokens⟩ := isCast_of_cast typed h
      exact .inr ⟨result, rfl, type, wellTyped, tokens⟩
    | error e =>
      obtain ⟨fault, rfl⟩ := error_of_cast typed decodes h
      exact .inl ⟨fault, rfl⟩
  · exact fun name span usable => ⟨ofText name span, cast_ofName_str, cast_ofText_ident usable⟩

/-- The content of a string that spells the raw identifier `r#match`. -/
theorem cast_wellTyped_raw_name :
    let value : Value := { type := .tokens, tokens := [.literal (.ofContent "r#match")] }
    value.WellTyped ∧
      (∀ lit, .literal lit ∈ value.tokens → lit.isString = true →
        ∃ content, lit.content = .ok content) ∧
      Name.isIdentifier "r#match" = true ∧
      (∃ result, value.cast .ident = .ok result ∧ result.WellTyped ∧ result.text = .ok "r#match") ∧
      ∃ text, (ofName "r#match").cast .str = .ok text ∧
        text.cast .ident = .ok (ofName "r#match") := by
  intro value
  have decodes : ∀ lit, .literal lit ∈ value.tokens → lit.isString = true →
      ∃ content, lit.content = .ok content := by
    intro lit mem _
    cases List.mem_singleton.mp mem
    exact ⟨_, Literal.content_ofContent _ _⟩
  have usable : Name.isIdentifier "r#match" = true := by decide
  have same : value.cast .ident = .ok (ofName "r#match") :=
    cast_ident_of_literal nofun rfl (Literal.content_ofContent "r#match" {}) usable
  refine ⟨trivial, decodes, usable, ?_, cast_wellTyped.2 "r#match" {} usable⟩
  obtain ⟨fault, refused⟩ | ⟨result, cast, -, typed, -⟩ :=
    cast_wellTyped.1 value .ident trivial decodes
  · rw [same] at refused
    cases refused
  · refine ⟨result, cast, typed, ?_⟩
    rw [same] at cast
    cases cast
    rfl

end Value

end AliasExpansion
