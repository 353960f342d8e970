-- SUMMARY: Overload assignments: choices of an overload for every call of an expression, and their costs.
import AliasExpansion.Proofs.Outcome
import AliasExpansion.Resolution
import Mathlib.Algebra.Order.Ring.Nat
import Mathlib.Data.Bool.Basic
import Mathlib.Data.Prod.Lex

/-!
# Assignments

An assignment chooses an overload for a call and for every call among its arguments. It fits an
expression when every leaf and every result coerces to the type that it meets. The rules are those
of a type system with costs: nothing is tried and nothing is given up, so they say which
assignments there are, and not how one is found. `Proofs/Resolution/Optimal` compares them with
resolution.
-/

namespace AliasExpansion

-- ---------------------------------------------------------------------------
-- Nodes
-- ---------------------------------------------------------------------------

namespace Expr

mutual

/-- The identities of all nodes of an expression. -/
def ids : Expr → List NodeId
  | .leaf node => [node.id]
  | .call id _ arguments raw _ => id :: raw.id :: idsAll arguments

def idsAll : List Expr → List NodeId
  | [] => []
  | argument :: rest => argument.ids ++ idsAll rest

end

theorem id_mem_ids (expr : Expr) : expr.id ∈ expr.ids := by
  cases expr <;> simp [ids, id]

end Expr

/-- The type that a value has before it is coerced: for a reference to an alias, the type that the
    alias was resolved to. -/
def Scope.sourceType (scope : Scope) (value : Value) : ValueType :=
  match value.name? with
  | none => value.type
  | some name =>
    match scope.aliases.find? name with
    | none => value.type
    | some expr => (scope.metadata.target? expr.id).getD value.type

-- ---------------------------------------------------------------------------
-- Signatures
-- ---------------------------------------------------------------------------

/-- Whether a call with `count` arguments is one of the signature: exactly as many as there are
    parameters, or at least as many when the last one is variadic. -/
def Signature.Takes (signature : Signature) (count : Nat) : Prop :=
  match signature.variadic with
  | none => count = signature.fixed.length
  | some _ => signature.fixed.length + 1 ≤ count

/-- The type of the parameter that each of `count` arguments meets. -/
def Signature.parameterTypes (signature : Signature) (count : Nat) : List ValueType :=
  signature.fixed ++
    signature.variadic.toList.flatMap (List.replicate (count - signature.fixed.length))

/-- The cost of coercing a result to the type expected of it. -/
def Overload.resultCost? (overload : Overload) : Option ValueType → Option Nat
  | some expected => overload.signature.output.coercionCost expected
  | none => some 0

-- ---------------------------------------------------------------------------
-- Assignments
-- ---------------------------------------------------------------------------

/-- The types and costs of the nodes of an expression, with the overloads chosen for its calls. -/
inductive Assignment where
  | leaf (typing : Typing)
  /-- A call of a raw overload has no arguments. -/
  | call (selection : Selection) (arguments : List Assignment)

namespace Assignment

def cost : Assignment → Nat
  | .leaf typing => typing.cost
  | .call selection _ => selection.cost

def target : Assignment → ValueType
  | .leaf typing => typing.target
  | .call selection _ => selection.target

/-- The cost of arguments, which in a variadic position count twice. -/
def argumentCost (signature : Signature) (arguments : List Assignment) : Nat :=
  ((arguments.take signature.fixed.length).map cost).sum +
    2 * ((arguments.drop signature.fixed.length).map cost).sum

mutual

/-- Well-typed assignments of an expression of which a type may be expected. `source` gives the
    types of values before coercion. -/
inductive Fits (library : Library) (source : Value → ValueType) :
    Expr → Option ValueType → Assignment → Prop
  | leaf {node : Leaf} {expected : Option ValueType} {cost : Nat}
      (hcost : (source node.value).coercionCost (expected.getD (source node.value)) = some cost) :
      Fits library source (.leaf node) expected
        (.leaf { target := expected.getD (source node.value), cost })
  /-- A raw overload takes any argument list unread. -/
  | raw {id : NodeId} {name : String} {arguments : List Expr} {raw : Leaf} {span : Span}
      {expected : Option ValueType} {overload : Overload} {cost : Nat}
      (hmem : overload ∈ library.find name) (hraw : overload.signature.isRaw = true)
      (hresult : overload.resultCost? expected = some cost) :
      Fits library source (.call id name arguments raw span) expected
        (.call { overload, target := expected.getD overload.signature.output, cost } [])
  | call {id : NodeId} {name : String} {arguments : List Expr} {raw : Leaf} {span : Span}
      {expected : Option ValueType} {overload : Overload} {cost : Nat}
      {children : List Assignment}
      (hmem : overload ∈ library.find name) (hraw : overload.signature.isRaw = false)
      (hresult : overload.resultCost? expected = some cost)
      (htakes : overload.signature.Takes arguments.length)
      (hchildren : FitsAll library source arguments
        (overload.signature.parameterTypes arguments.length) children) :
      Fits library source (.call id name arguments raw span) expected
        (.call
          { overload, target := expected.getD overload.signature.output,
            cost := cost + argumentCost overload.signature children }
          children)

/-- Assignments of arguments to the types that they meet. -/
inductive FitsAll (library : Library) (source : Value → ValueType) :
    List Expr → List ValueType → List Assignment → Prop
  | nil : FitsAll library source [] [] []
  | cons {argument : Expr} {arguments : List Expr} {slot : ValueType} {slots : List ValueType}
      {child : Assignment} {children : List Assignment}
      (hchild : Fits library source argument (some slot) child)
      (hchildren : FitsAll library source arguments slots children) :
      FitsAll library source (argument :: arguments) (slot :: slots) (child :: children)

end

mutual

/-- Whether metadata holds an assignment of an expression. -/
def Recorded (metadata : Metadata) : Expr → Assignment → Prop
  | .leaf node, .leaf typing => metadata.leaves.find? node.id = some typing
  | .call id _ arguments raw _, .call selection children =>
    metadata.calls.find? id = some selection ∧
      if selection.overload.signature.isRaw then
        ∃ cost, metadata.leaves.find? raw.id = some { target := .raw, cost }
      else RecordedAll metadata arguments children
  | _, _ => False

def RecordedAll (metadata : Metadata) : List Expr → List Assignment → Prop
  | [], [] => True
  | argument :: arguments, child :: children =>
    Recorded metadata argument child ∧ RecordedAll metadata arguments children
  | _, _ => False

end

section

variable {metadata : Metadata} {id : NodeId} {name : String} {arguments : List Expr} {raw : Leaf}
  {span : Span} {selection : Selection} {children : List Assignment}

theorem Recorded.of_raw (hraw : selection.overload.signature.isRaw = true)
    (h : Recorded metadata (.call id name arguments raw span) (.call selection children)) :
    metadata.calls.find? id = some selection ∧
      ∃ cost, metadata.leaves.find? raw.id = some { target := .raw, cost } := by
  rwa [Recorded, if_pos hraw] at h

theorem Recorded.of_plain (hraw : selection.overload.signature.isRaw = false)
    (h : Recorded metadata (.call id name arguments raw span) (.call selection children)) :
    metadata.calls.find? id = some selection ∧ RecordedAll metadata arguments children := by
  rwa [Recorded, if_neg (by simp [hraw])] at h

end

end Assignment

-- ---------------------------------------------------------------------------
-- Preference
-- ---------------------------------------------------------------------------

/-- What decides between selections for one call, wherever the overloads were declared: the cost,
    then a variadic parameter, then the number of parameters. -/
def Selection.rank (selection : Selection) : ℕ ×ₗ Bool ×ₗ ℕ :=
  toLex (selection.cost,
    toLex (selection.overload.signature.isVariadic, selection.overload.signature.arity))

namespace Assignment

/-- The best assignment of an expression: none costs less, and the overload of a call has the
    lowest rank, the earliest one among equals. -/
structure Best (library : Library) (source : Value → ValueType) (expr : Expr)
    (expected : Option ValueType) (assignment : Assignment) : Prop where
  fits : Fits library source expr expected assignment
  cost_le : ∀ other, Fits library source expr expected other → assignment.cost ≤ other.cost
  rank_le : ∀ id name arguments raw span, expr = .call id name arguments raw span →
    ∃ selection children, assignment = .call selection children ∧
      ∃ earlier later, library.find name = earlier ++ selection.overload :: later ∧
        ∀ other others, Fits library source expr expected (.call other others) →
          selection.rank ≤ other.rank ∧
            (other.overload ∈ earlier → selection.rank < other.rank)

-- ---------------------------------------------------------------------------
-- Stumbling
-- ---------------------------------------------------------------------------

mutual

/-- Resolution comes upon a call that has to be refused, by one overload or by all, and whose text
    is wanted for the refusal but holds a literal without a value. -/
inductive Stumbles (library : Library) (source : Value → ValueType) :
    Expr → Option ValueType → Prop
  /-- An overload with another number of parameters is tried. -/
  | overload {id : NodeId} {name : String} {arguments : List Expr} {raw : Leaf} {span : Span}
      {expected : Option ValueType} {overload : Overload} {cost : Nat} {error : DecodeError}
      (hmem : overload ∈ library.find name) (hraw : overload.signature.isRaw = false)
      (hresult : overload.resultCost? expected = some cost)
      (htakes : ¬ overload.signature.Takes arguments.length)
      (hdisplay : (Expr.call id name arguments raw span).display = .error error) :
      Stumbles library source (.call id name arguments raw span) expected
  /-- No overload fits. -/
  | call {id : NodeId} {name : String} {arguments : List Expr} {raw : Leaf} {span : Span}
      {expected : Option ValueType} {error : DecodeError}
      (hfind : library.find name ≠ [])
      (hnone : ∀ assignment, ¬ Fits library source (.call id name arguments raw span) expected
        assignment)
      (hdisplay : (Expr.call id name arguments raw span).display = .error error) :
      Stumbles library source (.call id name arguments raw span) expected
  /-- An overload is tried, and resolution comes upon such a call in its arguments. -/
  | argument {id : NodeId} {name : String} {arguments : List Expr} {raw : Leaf} {span : Span}
      {expected : Option ValueType} {overload : Overload} {cost : Nat}
      (hmem : overload ∈ library.find name) (hraw : overload.signature.isRaw = false)
      (hresult : overload.resultCost? expected = some cost)
      (htakes : overload.signature.Takes arguments.length)
      (harguments : StumblesIn library source arguments
        (overload.signature.parameterTypes arguments.length)) :
      Stumbles library source (.call id name arguments raw span) expected

/-- One of the arguments makes resolution stumble, and the ones before it fit. -/
inductive StumblesIn (library : Library) (source : Value → ValueType) :
    List Expr → List ValueType → Prop
  | head {argument : Expr} {arguments : List Expr} {slot : ValueType} {slots : List ValueType}
      (hargument : Stumbles library source argument (some slot)) :
      StumblesIn library source (argument :: arguments) (slot :: slots)
  | tail {argument : Expr} {arguments : List Expr} {slot : ValueType} {slots : List ValueType}
      {child : Assignment} (hchild : Fits library source argument (some slot) child)
      (harguments : StumblesIn library source arguments slots) :
      StumblesIn library source (argument :: arguments) (slot :: slots)

end

mutual

/-- A literal without a value shows in the text of every call around it. -/
theorem Stumbles.display {library : Library} {source : Value → ValueType} :
    ∀ {expr : Expr} {expected : Option ValueType}, Stumbles library source expr expected →
      ∃ d, expr.display = .error d
  | .leaf _, _, h => by cases h
  | .call _ _ arguments _ _, _, h => by
    cases h with
    | overload _ _ _ _ hdisplay => exact ⟨_, hdisplay⟩
    | call _ _ hdisplay => exact ⟨_, hdisplay⟩
    | argument _ _ _ _ harguments =>
      cases arguments with
      | nil => cases harguments
      | cons first rest =>
        obtain ⟨d, hd⟩ := StumblesIn.displayRest harguments
        rw [Expr.displayRest] at hd
        rw [Expr.display]
        obtain hfirst | ⟨text, hfirst, hrest⟩ := Outcome.bind_eq_error.1 hd
        · exact ⟨d, by rw [hfirst]; rfl⟩
        · refine ⟨d, ?_⟩
          obtain hrest | ⟨others, -, hpure⟩ := Outcome.bind_eq_error.1 hrest
          · rw [hfirst, hrest]; rfl
          · cases hpure

theorem StumblesIn.displayRest {library : Library} {source : Value → ValueType} :
    ∀ {arguments : List Expr} {slots : List ValueType}, StumblesIn library source arguments slots →
      ∃ d, Expr.displayRest arguments = .error d
  | [], _, h => by cases h
  | argument :: arguments, _, h => by
    rw [Expr.displayRest]
    cases h with
    | head hargument =>
      obtain ⟨d, hd⟩ := hargument.display
      exact ⟨d, by rw [hd]; rfl⟩
    | tail _ harguments =>
      obtain ⟨d, hd⟩ := StumblesIn.displayRest harguments
      cases argument.display with
      | error d' => exact ⟨d', rfl⟩
      | ok text => exact ⟨d, by rw [hd]; rfl⟩

end

-- ---------------------------------------------------------------------------
-- Shapes
-- ---------------------------------------------------------------------------

theorem FitsAll.length_eq {library : Library} {source : Value → ValueType} {arguments : List Expr}
    {slots : List ValueType} {children : List Assignment}
    (h : FitsAll library source arguments slots children) :
    children.length = arguments.length := by
  induction arguments generalizing slots children with
  | nil => cases h; rfl
  | cons argument arguments ih =>
    cases h with
    | cons hchild hchildren => simp [ih hchildren]

theorem Fits.overload_mem {library : Library} {source : Value → ValueType} {id : NodeId}
    {name : String} {arguments : List Expr} {raw : Leaf} {span : Span}
    {expected : Option ValueType} {selection : Selection} {children : List Assignment}
    (h : Fits library source (.call id name arguments raw span) expected
      (.call selection children)) : selection.overload ∈ library.find name := by
  cases h with
  | raw hmem _ _ => exact hmem
  | call hmem _ _ _ _ => exact hmem

end Assignment

end AliasExpansion
