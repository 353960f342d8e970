-- SUMMARY: The built-in functions and their overloads.
import AliasExpansion.Digest.Blake2b
import AliasExpansion.Function.Signature
import AliasExpansion.Text.Slug
import AliasExpansion.Text.Words
import AliasExpansion.Value.Cast

/-!
# The function library

A function name has one or more overloads, which differ in their signatures. `Library.builtin`
declares the functions of alias expressions: case styles, `normalize`, `hash`, `concat`, casts and
`raw`. Choosing between the overloads of a call is the work of `Resolution`.
-/

namespace AliasExpansion

/-- What an overload computes from its arguments. The key makes `hash` differ between
    invocations; the span is the place of the call. -/
abbrev Computation := (key : String) → (span : Option Span) → List Value → Except Error Value

structure Overload where
  signature : Signature
  compute : Computation

structure Library where
  /-- In declaration order, in which the overloads are also numbered. -/
  overloads : List Overload

namespace Library

def find (library : Library) (name : String) : List Overload :=
  library.overloads.filter (·.signature.name == name)

/-- The names of the functions, each once, in declaration order. -/
def names (library : Library) : List String :=
  (library.overloads.map (·.signature.name)).eraseDups

/-- All signatures of a function. -/
def describe (overloads : List Overload) : String :=
  " | ".intercalate (overloads.map (·.signature.render))

-- ---------------------------------------------------------------------------
-- Making results
-- ---------------------------------------------------------------------------

def textOf (value : Value) : Except Error String :=
  value.text.mapError .decode

/-- The identifier with a computed name, if it is one. -/
def identifier (text : String) (fault : String → EvaluationFault) (span : Option Span) :
    Except Error Value :=
  if Name.isIdentifier text then .ok (.ofName text) else .error (.evaluation (fault text) span)

def slugOf (text : String) : Value :=
  .ofName (String.ofList (Text.slug text.toList))

/-- The string that is made of the texts of values. It holds the lone surrogates that they hold. -/
def ofTexts (values : List Value) (text : String) : Value :=
  .ofText text {} (values.any Value.holdsSurrogate)

/-- The keyed digest of a text as a decimal number. The key is the numeral of a number, which may
    have too many digits to be written. -/
def hashText (key : String) (text : String) : Except Error String :=
  if Text.digitLimit < key.toList.countP Char.isDigit then .error (.decode .numberTooLong)
  else
    let key := key.toUTF8.toList
    if Blake2b.maxKeyBytes < key.length then .error .keyTooLong
    else .ok (toString (Blake2b.bigEndian (Blake2b.digest 8 key text.toUTF8.toList)))

/-- The keyed digest of the text of a value, if the text has bytes. -/
def hashValue (key : String) (value : Value) : Except Error String := do
  let text ← textOf value
  if value.holdsSurrogate then throw (.decode .unencodable)
  hashText key text

def concat (texts : List String) : String :=
  "".intercalate texts

/-- A computation on the first argument. -/
def onFirst (f : String → Option Span → Value → Except Error Value) : Computation :=
  fun key span arguments =>
    match arguments with
    | argument :: _ => f key span argument
    | [] => .error (.internal .missingArgument span)

-- ---------------------------------------------------------------------------
-- Families of overloads
-- ---------------------------------------------------------------------------

/-- A text function on strings and on identifiers. -/
def textFunction (name : String) (transform : List Char → List Char) : List Overload :=
  let apply (text : String) := String.ofList (transform text.toList)
  [{ signature := { name, fixed := [.str], variadic := none, output := .str }
     compute := onFirst fun _ _ value => do
       let text := apply (← textOf value)
       -- lone surrogates may be dropped; U+FFFD stands for those that are kept
       return .ofText text {} (value.holdsSurrogate && text.toList.contains '\uFFFD') },
    { signature := { name, fixed := [.ident], variadic := none, output := .ident }
      compute := onFirst fun _ span value => do
        identifier (apply (← textOf value)) .invalidIdentifier span }]

def normalizeFunctions : List Overload :=
  [{ signature := { name := "normalize", fixed := [.raw], variadic := none, output := .ident }
     compute := onFirst fun _ _ value => return slugOf value.render },
    { signature := { name := "normalize2", fixed := [.str], variadic := none, output := .ident }
      compute := onFirst fun _ _ value => return slugOf (← textOf value) },
    { signature := { name := "normalize2", fixed := [.tokens], variadic := none, output := .ident }
      compute := onFirst fun _ _ value => return slugOf value.render }]

/-- An identifier made from the digest of the argument's text. -/
def hashIdentifier : Computation :=
  onFirst fun key _ value => return .ofName ("__" ++ (← hashValue key value))

def hashFunctions : List Overload :=
  [{ signature := { name := "hash", fixed := [.str], variadic := none, output := .str }
     compute := onFirst fun key _ value => return .ofText (← hashValue key value) },
    { signature := { name := "hash", fixed := [.ident], variadic := none, output := .ident }
      compute := hashIdentifier },
    { signature := { name := "hash", fixed := [.tokens], variadic := none, output := .ident }
      compute := hashIdentifier }]

def concatFunctions : List Overload :=
  [{ signature := { name := "concat", fixed := [], variadic := some .ident, output := .ident }
     compute := fun _ span values => do
       identifier (concat (← values.mapM textOf)) .invalidConcatenation span },
    { signature := { name := "concat", fixed := [.ident], variadic := some .tokens, output := .ident }
      compute := fun _ span values => do
        let first ← (values.take 1).mapM textOf
        identifier (concat (first ++ (values.drop 1).map Value.render)) .invalidConcatenation span },
    { signature := { name := "concat", fixed := [], variadic := some .str, output := .str }
      compute := fun _ _ values => return ofTexts values (concat (← values.mapM textOf)) },
    { signature := { name := "concat", fixed := [], variadic := some .int, output := .int }
      compute := fun _ _ values => return .ofDigits (concat (← values.mapM textOf)) },
    { signature := { name := "concat", fixed := [], variadic := some .tokens, output := .tokens }
      compute := fun _ _ values =>
        return { type := .tokens, tokens := values.flatMap Value.tokens } }]

/-- The cast of anything to `target`. -/
def castFunction (target : ValueType) : Overload where
  signature :=
    { name := "to_" ++ target.name, fixed := [.tokens], variadic := none, output := target }
  compute := onFirst fun _ _ value => value.cast target

def tokensFunctions : List Overload :=
  [{ signature := { name := "to_tokens", fixed := [.tokens], variadic := none, output := .tokens }
     compute := onFirst fun _ _ value => return value },
    { signature := { name := "raw", fixed := [.raw], variadic := none, output := .tokens }
      compute := onFirst fun _ _ value => return { type := .tokens, tokens := value.tokens } }]

def builtin : Library where
  overloads :=
    textFunction "upper" Text.uppercase ++ textFunction "lower" Text.lowercase ++
      textFunction "snake_case" Text.snakeCase ++ textFunction "camel_case" Text.camelCase ++
      textFunction "pascal_case" Text.pascalCase ++ normalizeFunctions ++ hashFunctions ++
      concatFunctions ++
      [.ident, .path, .type, .expr, .str, .int].map castFunction ++ tokensFunctions

/-- What holds of each family of overloads holds of the built-in library. -/
theorem forall_builtin {P : Overload → Prop}
    (text : ∀ name transform, ∀ overload ∈ textFunction name transform, P overload)
    (normalize : ∀ overload ∈ normalizeFunctions, P overload)
    (hash : ∀ overload ∈ hashFunctions, P overload)
    (concat : ∀ overload ∈ concatFunctions, P overload) (cast : ∀ target, P (castFunction target))
    (tokens : ∀ overload ∈ tokensFunctions, P overload) :
    ∀ overload ∈ builtin.overloads, P overload := by
  have casts : ∀ overload ∈ [.ident, .path, .type, .expr, .str, .int].map castFunction,
      P overload := by
    intro overload mem
    obtain ⟨target, -, rfl⟩ := List.mem_map.mp mem
    exact cast target
  unfold builtin
  simp only [List.forall_mem_append]
  exact ⟨⟨⟨⟨⟨⟨⟨⟨⟨text _ _, text _ _⟩, text _ _⟩, text _ _⟩, text _ _⟩, normalize⟩, hash⟩, concat⟩,
    casts⟩, tokens⟩

end Library

end AliasExpansion
