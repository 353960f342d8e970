-- SUMMARY: Computing the values of resolved alias expressions.
import AliasExpansion.Invocation.Basic
import AliasExpansion.Scope

/-!
# Evaluation

Evaluation follows what resolution recorded: a leaf is cast to its target type, a call runs its
selected overload on its evaluated arguments and casts the result. A name that stands for an alias
is replaced by the alias's value first. A node without a record, or a value that does not cast to
its recorded type, is an internal error.
-/

namespace AliasExpansion

/-- The values of the aliases evaluated so far. -/
abbrev Environment := Table String Value

/-- The arguments that a selected overload is applied to: for a raw parameter the raw list. -/
def Selection.isRaw (selection : Selection) : Bool :=
  selection.overload.signature.isRaw

/-- Cast a value to the type that resolution recorded for the node at `span`. -/
def Value.castResolved (value : Value) (target : ValueType) (span : Span) : Except Error Value :=
  match value.cast target with
  | .error (.type fault _) => do
    let text ← value.display.mapError .decode
    throw (.internal (.uncastable text target fault.message) (some span))
  | outcome => outcome

/-- The value that a leaf stands for, before its cast. -/
def Environment.deref (environment : Environment) (value : Value) : Value :=
  match value.name? with
  | some name => (environment.find? name).getD value
  | none => value

def Leaf.evaluate (leaf : Leaf) (metadata : Metadata) (environment : Environment) :
    Except Error Value :=
  match metadata.leaves.find? leaf.id with
  | some typing => (environment.deref leaf.value).castResolved typing.target leaf.span
  | none => do
    let text ← leaf.value.display.mapError .decode
    throw (.internal (.unresolvedValue text) (some leaf.span))

namespace Expr

mutual

def evaluate (key : String) (metadata : Metadata) (environment : Environment) :
    Expr → Except Error Value
  | .leaf node => node.evaluate metadata environment
  | .call id name arguments raw span =>
    match metadata.calls.find? id with
    | some selection => do
      let values ←
        if selection.isRaw then do pure [← raw.evaluate metadata environment]
        else evaluateAll key metadata environment arguments
      let result ← selection.overload.compute key (some span) values
      result.castResolved selection.target span
    | none => do
      let text ← (Expr.call id name arguments raw span).display.mapError .decode
      throw (.internal (.unresolvedCall text) (some span))

def evaluateAll (key : String) (metadata : Metadata) (environment : Environment) :
    List Expr → Except Error (List Value)
  | [] => .ok []
  | argument :: arguments => do
    let value ← evaluate key metadata environment argument
    return value :: (← evaluateAll key metadata environment arguments)

end

end Expr

/-- Evaluate a binding. An identifier must be usable as a name. -/
def Binding.evaluate (key : String) (metadata : Metadata) (environment : Environment)
    (binding : Binding) : Except Error Environment := do
  let value ← binding.expr.evaluate key metadata environment
  match value.name? with
  | some name =>
    if Name.isIdentifier name then return environment.insert binding.name value
    else throw (.evaluation (.invalidIdentifier name) (some binding.expr.span))
  | none => return environment.insert binding.name value

/-- The values of all bindings, in order. -/
def Environment.ofBindings (key : String) (metadata : Metadata) (bindings : List Binding) :
    Except Error Environment :=
  bindings.foldlM (fun environment binding => binding.evaluate key metadata environment) .empty

end AliasExpansion
