-- SUMMARY: Classified tokens cast to the types that their type coerces into, but for `_`.
import AliasExpansion.Evaluation
import AliasExpansion.Proofs.Grammar.Paths
import AliasExpansion.Proofs.Outcome
import AliasExpansion.Resolution
import AliasExpansion.Value.Cast

/-!
# Coercions and casts

Whether a value coerces is decided from its type alone, and a cast looks at its tokens again. For
values that are typed from their tokens the two agree: a path is a type
(`Value.path_narrower_than_type`), and what is typed as a name has the form of everything that a
name coerces into (`Value.cast_of_coercion`). The one exception is a lone underscore, which is typed
as a name but is neither a path nor an expression.
-/

namespace AliasExpansion.Value

variable {tokens : List Token} {target : ValueType}

-- ---------------------------------------------------------------------------
-- Classified tokens
-- ---------------------------------------------------------------------------

theorem categoryType_ne_ident (tokens : List Token) : categoryType tokens ≠ .ident := by
  rw [categoryType]
  repeat' split
  all_goals decide

/-- Tokens are typed by the token that they are or by the category that they form. -/
theorem type_classify_cases (tokens : List Token) :
    (∃ token, tokens = [token] ∧ tokenType? token = some (classify tokens).type) ∨
      (classify tokens).type = categoryType tokens := by
  unfold classify
  dsimp only
  split
  · next token =>
    cases found : tokenType? token with
    | some single => exact .inl ⟨token, rfl, found⟩
    | none => exact .inr rfl
  · exact .inr rfl

/-- A single token is typed as an integer, a string or a name. -/
theorem tokenType?_eq_some {token : Token} (h : tokenType? token = some target) :
    (target = .int ∨ target = .str) ∨ target = .ident ∧ ∃ name span,
      token = .ident name span ∧ (name = "_" ∨ Name.isIdentifier name = true) := by
  cases token with
  | ident name span =>
    simp only [tokenType?, Option.ite_none_right_eq_some, Option.some.injEq] at h
    exact .inr ⟨h.2.symm, name, span, rfl, by simpa using h.1⟩
  | literal lit =>
    simp only [tokenType?] at h
    split at h
    · cases h
      exact .inl (.inl rfl)
    · split at h
      · cases h
        exact .inl (.inr rfl)
      · cases h
  | punct | group => cases h

theorem type_classify_name {name : String} (span : Span)
    (usable : name = "_" ∨ Name.isIdentifier name = true) :
    (classify [.ident name span]).type = .ident := by
  simp [classify, tokenType?, usable]

/-- What is typed as a name is a usable name or an underscore. -/
theorem name_of_classify (h : (classify tokens).type = .ident) :
    ∃ name span, tokens = [.ident name span] ∧ (name = "_" ∨ Name.isIdentifier name = true) := by
  obtain ⟨token, rfl, single⟩ | category := type_classify_cases tokens
  · obtain (literal | literal) | ⟨-, name, span, rfl, usable⟩ := tokenType?_eq_some single
    · cases h.symm.trans literal
    · cases h.symm.trans literal
    · exact ⟨name, span, rfl, usable⟩
  · exact absurd (category.symm.trans h) (categoryType_ne_ident tokens)

/-- What is typed as a path or a type is typed by the category that it forms. -/
theorem categoryType_of_classify (h : (classify tokens).type = target)
    (category : target = .path ∨ target = .type) : categoryType tokens = target := by
  obtain ⟨token, rfl, single⟩ | eq := type_classify_cases tokens
  · rw [h] at single
    obtain (rfl | rfl) | ⟨rfl, -⟩ := tokenType?_eq_some single <;> simp at category
  · exact eq.symm.trans h

/-- Tokens that form a type are typed by the category that they form, unless they are a name that is
    typed as such. A literal is no type. -/
theorem type_classify_of_accepts (accepts : Category.type.accepts tokens = true)
    (unnamed : ∀ name span, tokens = [.ident name span] →
      ¬ (name = "_" ∨ Name.isIdentifier name = true)) :
    (classify tokens).type = categoryType tokens := by
  obtain ⟨token, rfl, single⟩ | eq := type_classify_cases tokens
  · cases token with
    | ident name span =>
      obtain (literal | literal) | ⟨-, _, _, same, usable⟩ := tokenType?_eq_some single
      · simp [tokenType?, literal] at single
      · simp [tokenType?, literal] at single
      · cases same
        exact absurd usable (unnamed name span rfl)
    | literal lit =>
      have refused : Category.type.accepts [.literal lit] = false := rfl
      cases accepts.symm.trans refused
    | punct | group => cases single
  · exact eq

theorem categoryType_eq_path :
    categoryType tokens = .path ↔ Category.path.accepts tokens = true := by
  rw [categoryType]
  repeat' split
  all_goals simp_all

theorem categoryType_eq_type : categoryType tokens = .type ↔
    Category.type.accepts tokens = true ∧ Category.path.accepts tokens = false := by
  rw [categoryType]
  repeat' split
  all_goals simp_all

theorem path_refuses_underscore (span : Span) :
    Category.path.accepts [.ident "_" span] = false := rfl

/-- Tokens are typed as a path exactly if they are one, and no name. -/
theorem type_classify_eq_path : (classify tokens).type = .path ↔
    Category.path.accepts tokens = true ∧
      ∀ name span, tokens = [.ident name span] → Name.isIdentifier name = false := by
  constructor
  · intro typed
    have path := categoryType_eq_path.mp (categoryType_of_classify typed (.inl rfl))
    refine ⟨path, ?_⟩
    rintro name span rfl
    refine Bool.eq_false_iff.mpr fun usable => ?_
    cases typed.symm.trans (type_classify_name span (.inr usable))
  · rintro ⟨path, unnamed⟩
    rw [type_classify_of_accepts (Category.type_accepts_of_path path)]
    · exact categoryType_eq_path.mpr path
    · rintro name span rfl (rfl | usable)
      · cases path.symm.trans (path_refuses_underscore span)
      · cases usable.symm.trans (unnamed name span rfl)

/-- Tokens are typed as a type exactly if they are one, and neither a path nor an underscore. -/
theorem type_classify_eq_type : (classify tokens).type = .type ↔
    Category.type.accepts tokens = true ∧ Category.path.accepts tokens = false ∧
      ∀ span, tokens ≠ [.ident "_" span] := by
  constructor
  · intro typed
    obtain ⟨isType, noPath⟩ := categoryType_eq_type.mp (categoryType_of_classify typed (.inr rfl))
    refine ⟨isType, noPath, ?_⟩
    rintro span rfl
    cases typed.symm.trans (type_classify_name span (.inl rfl))
  · rintro ⟨isType, noPath, shaped⟩
    rw [type_classify_of_accepts isType]
    · exact categoryType_eq_type.mpr ⟨isType, noPath⟩
    · rintro name span rfl (rfl | usable)
      · exact shaped span rfl
      · cases noPath.symm.trans (Category.path_accepts_name usable span)

-- ---------------------------------------------------------------------------
-- Casts that keep the tokens
-- ---------------------------------------------------------------------------

theorem reparse_eq_ok (form : ∀ category ∈ target.category?, category.accepts tokens = true) :
    reparse tokens target = .ok { type := target, tokens } := by
  unfold reparse
  cases found : target.category? with
  | none => rfl
  | some category => simp [Category.accepts_iff.mp (form category found)]

theorem cast_self (value : Value) : value.cast value.type = .ok value := by
  unfold cast
  exact if_pos rfl

/-- A cast to anything but a name or a string keeps tokens that have the form of the target. -/
theorem cast_eq_ok {value : Value} (kept : target ≠ .ident ∧ target ≠ .str)
    (form : ∀ category ∈ target.category?, category.accepts value.tokens = true) :
    value.cast target = .ok { type := target, tokens := value.tokens } := by
  unfold cast
  dsimp only
  split
  · next same =>
    subst same
    rfl
  · split
    · exact absurd rfl kept.1
    · exact absurd rfl kept.2
    · rw [reparse_eq_ok form, Outcome.mapError_ok]

-- ---------------------------------------------------------------------------
-- Paths and types
-- ---------------------------------------------------------------------------

/-- Every path is a type, and not the other way round. So a path casts to a type, and of the two
    categories, tokens are typed by the narrower one that they form: as a path if they are one, and
    as a type if they are one and no path. Only a usable name and an underscore have a type of
    their own. -/
theorem path_narrower_than_type (tokens : List Token) :
    (Category.path.check tokens = .ok () → Category.type.check tokens = .ok ()) ∧
    (∀ value : Value, value.type = .path → value.tokens = tokens →
      Category.path.check tokens = .ok () → value.cast .type = .ok { type := .type, tokens }) ∧
    ((classify tokens).type = .path ↔ Category.path.check tokens = .ok () ∧
      ∀ name span, tokens = [.ident name span] → Name.isIdentifier name = false) ∧
    ((classify tokens).type = .path →
      (classify tokens).cast .type = .ok { type := .type, tokens }) ∧
    ((classify tokens).type = .type ↔ Category.type.check tokens = .ok () ∧
      Category.path.check tokens ≠ .ok () ∧ ∀ span, tokens ≠ [.ident "_" span]) ∧
    ∃ wider, Category.type.check wider = .ok () ∧ Category.path.check wider ≠ .ok () ∧
      (classify wider).type = .type := by
  have included {tokens : List Token} :
      Category.path.check tokens = .ok () → Category.type.check tokens = .ok () := by
    rw [← Category.accepts_iff, ← Category.accepts_iff]
    exact Category.type_accepts_of_path
  have casts (value : Value) (same : value.tokens = tokens)
      (path : Category.path.check tokens = .ok ()) :
      value.cast .type = .ok { type := .type, tokens } := by
    subst same
    refine cast_eq_ok (by decide) fun category mem => ?_
    cases mem
    exact Category.accepts_iff.mpr (included path)
  have path : (classify tokens).type = .path ↔ Category.path.check tokens = .ok () ∧
      ∀ name span, tokens = [.ident name span] → Name.isIdentifier name = false := by
    rw [type_classify_eq_path, Category.accepts_iff]
  have type {tokens : List Token} : (classify tokens).type = .type ↔
      Category.type.check tokens = .ok () ∧ Category.path.check tokens ≠ .ok () ∧
        ∀ span, tokens ≠ [.ident "_" span] := by
    rw [type_classify_eq_type, Category.accepts_iff, ← Bool.not_eq_true, Category.accepts_iff]
  refine ⟨included, fun value _ => casts value, path,
    fun typed => casts (classify tokens) rfl (path.mp typed).1, type, [.punct '!' false {}], ?_⟩
  have never : Category.type.check [.punct '!' false {}] = .ok () ∧
      Category.path.check [.punct '!' false {}] ≠ .ok () := by
    rw [ne_eq, ← Category.accepts_iff, ← Category.accepts_iff]
    decide +kernel
  exact ⟨never.1, never.2, type.mpr ⟨never.1, never.2, nofun⟩⟩

/-- The path `Vec<u8>::Item` and the type `&u8`. -/
theorem path_narrower_than_type_generic :
    let tokens : List Token := [.ident "Vec" {}, .punct '<' false {}, .ident "u8" {},
      .punct '>' true {}, .punct ':' true {}, .punct ':' false {}, .ident "Item" {}]
    let reference : List Token := [.punct '&' false {}, .ident "u8" {}]
    (Category.path.check tokens = .ok () ∧ Category.type.check tokens = .ok () ∧
      (classify tokens).type = .path ∧
      (classify tokens).cast .type = .ok { type := .type, tokens }) ∧
    Category.type.check reference = .ok () ∧ Category.path.check reference ≠ .ok () ∧
      (classify reference).type = .type := by
  intro tokens reference
  have path : Category.path.check tokens = .ok () := by
    rw [← Category.accepts_iff]
    decide +kernel
  have type : Category.type.check reference = .ok () ∧ Category.path.check reference ≠ .ok () := by
    rw [ne_eq, ← Category.accepts_iff, ← Category.accepts_iff]
    decide +kernel
  obtain ⟨included, -, asPath, casts, -⟩ := path_narrower_than_type tokens
  obtain ⟨-, -, -, -, asType, -⟩ := path_narrower_than_type reference
  have typed : (classify tokens).type = .path := asPath.mpr ⟨path, by simp [tokens]⟩
  exact ⟨⟨path, included path, typed, casts typed⟩, type.1, type.2,
    asType.mpr ⟨type.1, type.2, by simp [reference]⟩⟩

-- ---------------------------------------------------------------------------
-- Coercions
-- ---------------------------------------------------------------------------

/-- What coerces keeps its type, is a name that is taken for a path, a type or an expression, or is
    taken for tokens. -/
theorem coercionCost_cases {source : ValueType} {cost : Nat}
    (h : source.coercionCost target = some cost) :
    source = target ∨ source = .ident ∧ (target = .path ∨ target = .type ∨ target = .expr) ∨
      target = .tokens ∨ target = .raw := by
  cases source <;> cases target <;> simp_all [ValueType.coercionCost]

/-- A name or an underscore has the form of a type, and a name that of a path and an expression. -/
theorem name_form {name : String} (span : Span)
    (usable : name = "_" ∨ Name.isIdentifier name = true)
    (shaped : name = "_" → target = .type)
    (category : target = .path ∨ target = .type ∨ target = .expr) :
    ∀ category ∈ target.category?, category.accepts [.ident name span] = true := by
  obtain rfl | usable := usable
  · obtain rfl := shaped rfl
    rintro _ ⟨⟩
    have unplaced : Token.AlikeAll [.ident "_" {}] [.ident "_" span] :=
      .cons (.ident (.inl rfl)) .nil
    rw [Category.accepts_of_alike unplaced]
    decide +kernel
  · have path := Category.path_accepts_name usable span
    obtain rfl | rfl | rfl := category <;> rintro _ ⟨⟩
    · exact path
    · exact Category.type_accepts_of_path path
    · exact Category.expr_accepts_name usable span

/-- Classified tokens cast to what their type coerces into, as the same tokens, unless they are an
    underscore that is taken for a path or an expression. So a leaf that was resolved for an
    expected type evaluates to a value of this type when it stands for classified tokens. -/
theorem cast_of_coercion (tokens : List Token) (target : ValueType) (cost : Nat)
    (coerces : (classify tokens).type.coercionCost target = some cost)
    (shaped : ∀ span, tokens = [.ident "_" span] → target ≠ .path ∧ target ≠ .expr) :
    (classify tokens).cast target = .ok { type := target, tokens } ∧
      ∀ (leaf : Leaf) (scope after : Scope) (spent : Nat) (environment : Environment),
        scope.typeOf leaf.value leaf.span = .ok (classify tokens).type →
        environment.deref leaf.value = classify tokens →
        leaf.resolve (some target) scope = .ok (spent, after) →
        leaf.evaluate after.metadata environment = .ok { type := target, tokens } := by
  have casts : (classify tokens).cast target = .ok { type := target, tokens } := by
    obtain same | ⟨isName, category⟩ | rfl | rfl := coercionCost_cases coerces
    · rw [← same]
      exact cast_self (classify tokens)
    · obtain ⟨name, span, rfl, usable⟩ := name_of_classify isName
      refine cast_eq_ok ?_ (name_form span usable (fun underscore => ?_) category)
      · obtain rfl | rfl | rfl := category <;> decide
      · obtain ⟨noPath, noExpr⟩ := shaped span (by rw [underscore])
        obtain rfl | rfl | rfl := category
        · exact absurd rfl noPath
        · rfl
        · exact absurd rfl noExpr
    · exact cast_eq_ok (by decide) nofun
    · exact cast_eq_ok (by decide) nofun
  refine ⟨casts, fun leaf scope after spent environment typed value resolved => ?_⟩
  rw [Leaf.resolve, typed, Outcome.ok_bind] at resolved
  obtain ⟨found, -, done⟩ := Outcome.bind_eq_ok.mp resolved
  cases done
  rw [Leaf.evaluate, Metadata.recordLeaf, Table.find?_insert_self]
  simp only [value, castResolved, Option.getD_some, casts]

/-- A raw name that spells a word is an expression, and its leaf evaluates as one. -/
theorem cast_of_coercion_raw_name :
    let tokens : List Token := [.ident "r#match" {}]
    let leaf : Leaf := { id := 0, value := classify tokens, span := {} }
    (classify tokens).type.coercionCost .expr = some 3 ∧
      (∀ span, tokens = [.ident "_" span] → ValueType.expr ≠ .path ∧ ValueType.expr ≠ .expr) ∧
      ∃ after, leaf.resolve (some .expr) .empty = .ok (3, after) ∧
        leaf.evaluate after.metadata .empty = .ok { type := .expr, tokens } := by
  intro tokens leaf
  have coerces : (classify tokens).type.coercionCost .expr = some 3 := by decide +kernel
  have shaped (span : Span) : tokens = [.ident "_" span] →
      ValueType.expr ≠ .path ∧ ValueType.expr ≠ .expr := by
    intro eq
    simp [tokens] at eq
  have spent : (leaf.resolve (some .expr) .empty).toOption.map Prod.fst = some 3 := by
    decide +kernel
  obtain ⟨⟨_, after⟩, resolved, rfl⟩ := Option.map_eq_some_iff.mp spent
  rw [Outcome.toOption_eq_some] at resolved
  exact ⟨coerces, shaped, after, resolved,
    (cast_of_coercion tokens .expr 3 coerces shaped).2 leaf .empty after 3 .empty rfl rfl resolved⟩

/-- An underscore coerces into a path and an expression, by its type, and casts to neither. -/
theorem underscore_coerces_without_cast :
    let underscore := classify [.ident "_" {}]
    underscore.type.coercionCost .path = some 1 ∧ underscore.type.coercionCost .expr = some 3 ∧
      (underscore.cast .path).isOk = false ∧ (underscore.cast .expr).isOk = false := by
  decide +kernel

end AliasExpansion.Value
