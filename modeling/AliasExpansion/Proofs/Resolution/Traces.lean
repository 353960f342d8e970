-- SUMMARY: The records that resolution leaves behind are those of the winning overloads.
import AliasExpansion.Proofs.Resolution.InPlace

/-!
# Traces of a resolution

While an expression is resolved, its nodes are typed over and over: once for every overload that is
tried, at every level of nesting. `Wins` follows the winners only and lists what they record, the
arguments of a call in the scopes that the ones before them led to. A resolution that succeeds has
added these records to the scope and nothing else (`wins_of_resolve`), and each of them has the type
that the winning assignment expects of its node (`Wins.map_typed`).
-/

namespace AliasExpansion

-- ---------------------------------------------------------------------------
-- Records
-- ---------------------------------------------------------------------------

namespace Table

variable {κ α : Type} [DecidableEq κ]

/-- Under every key stands what stood there, or something that `P` allows there. -/
def DiffersOnly (P : κ → α → Prop) (table after : Table κ α) : Prop :=
  ∀ key, after.find? key = table.find? key ∨ ∃ value, after.find? key = some value ∧ P key value

namespace DiffersOnly

variable {P : κ → α → Prop} {table middle after : Table κ α}

theorem refl (table : Table κ α) : table.DiffersOnly P table :=
  fun _ => .inl rfl

theorem trans (h : table.DiffersOnly P middle) (h' : middle.DiffersOnly P after) :
    table.DiffersOnly P after := by
  intro key
  rcases h' key with same | changed
  · rw [same]
    exact h key
  · exact .inr changed

theorem insert {key : κ} {value : α} (allowed : P key value) :
    table.DiffersOnly P (table.insert key value) := by
  intro other
  by_cases eq : key = other
  · subst eq
    exact .inr ⟨value, find?_insert_self _ _ _, allowed⟩
  · exact .inl (find?_insert_of_ne _ _ eq)

end DiffersOnly

end Table

/-- What resolution puts on record for one node. -/
inductive Record where
  | leaf (id : NodeId) (typing : Typing)
  | call (id : NodeId) (selection : Selection)

/-- The node and the type that it is recorded with. -/
def Record.typed : Record → NodeId × ValueType
  | .leaf id typing => (id, typing.target)
  | .call id selection => (id, selection.target)

namespace Metadata

def add (metadata : Metadata) : Record → Metadata
  | .leaf id typing => metadata.recordLeaf id typing
  | .call id selection => metadata.recordCall id selection

/-- Add records in order, so that the last one of a node stays. -/
def addAll (metadata : Metadata) (records : List Record) : Metadata :=
  records.foldl add metadata

/-- The entries are what they were, or have one of the given types for their node. -/
structure DiffersOnly (typed : List (NodeId × ValueType)) (metadata after : Metadata) : Prop where
  leaves : metadata.leaves.DiffersOnly (fun id typing => (id, typing.target) ∈ typed) after.leaves
  calls : metadata.calls.DiffersOnly (fun id selection => (id, selection.target) ∈ typed)
    after.calls

theorem differsOnly_addAll {typed : List (NodeId × ValueType)} {records : List Record}
    (mem : ∀ record ∈ records, record.typed ∈ typed) (metadata : Metadata) :
    metadata.DiffersOnly typed (metadata.addAll records) := by
  induction records generalizing metadata with
  | nil => exact ⟨.refl _, .refl _⟩
  | cons record rest ih =>
    obtain ⟨first, mem⟩ := List.forall_mem_cons.mp mem
    have later := ih mem (metadata.add record)
    cases record with
    | leaf id typing => exact ⟨.trans (.insert first) later.leaves, later.calls⟩
    | call id selection => exact ⟨later.leaves, .trans (.insert first) later.calls⟩

end Metadata

namespace Scope

/-- The scope with further records. -/
def record (scope : Scope) (records : List Record) : Scope :=
  { scope with metadata := scope.metadata.addAll records }

theorem record_append (scope : Scope) (records others : List Record) :
    scope.record (records ++ others) = (scope.record records).record others := by
  simp only [record, Metadata.addAll, List.foldl_append]

end Scope

-- ---------------------------------------------------------------------------
-- Winners
-- ---------------------------------------------------------------------------

mutual

/-- The overloads that win in an expression that is resolved in `scope`, as an assignment, and what
    they record. -/
inductive Wins (library : Library) :
    Expr → Option ValueType → (scope : Scope) → Assignment → List Record → Prop
  | leaf {node : Leaf} {expected : Option ValueType} {scope : Scope} {source : ValueType}
      {cost : Nat} (typed : scope.typeOf node.value node.span = .ok source)
      (coerces : source.coercionCost (expected.getD source) = some cost) :
      Wins library (.leaf node) expected scope (.leaf { target := expected.getD source, cost })
        [.leaf node.id { target := expected.getD source, cost }]
  /-- A raw overload records its argument list as a leaf. -/
  | raw {id : NodeId} {name : String} {arguments : List Expr} {raw : Leaf} {span : Span}
      {expected : Option ValueType} {scope : Scope} {best : Attempt} {typing : Typing}
      {records : List Record}
      (winner : Expr.Winner library id name arguments raw span expected scope best)
      (isRaw : best.overload.signature.isRaw = true)
      (list : Wins library (.leaf raw) (some .raw) scope (.leaf typing) records) :
      Wins library (.call id name arguments raw span) expected scope
        (.call (best.selection expected) []) (records ++ [.call id (best.selection expected)])
  | call {id : NodeId} {name : String} {arguments : List Expr} {raw : Leaf} {span : Span}
      {expected : Option ValueType} {scope : Scope} {best : Attempt} {children : List Assignment}
      {records : List Record}
      (winner : Expr.Winner library id name arguments raw span expected scope best)
      (notRaw : best.overload.signature.isRaw = false)
      (args : WinsAll library arguments
        (best.overload.signature.parameterTypes arguments.length) scope children records) :
      Wins library (.call id name arguments raw span) expected scope
        (.call (best.selection expected) children)
        (records ++ [.call id (best.selection expected)])

/-- The same for arguments, of which each finds the records of the ones before it. -/
inductive WinsAll (library : Library) :
    List Expr → List ValueType → (scope : Scope) → List Assignment → List Record → Prop
  | nil {scope : Scope} : WinsAll library [] [] scope [] []
  | cons {argument : Expr} {arguments : List Expr} {slot : ValueType} {slots : List ValueType}
      {scope : Scope} {child : Assignment} {children : List Assignment}
      {records others : List Record}
      (head : Wins library argument (some slot) scope child records)
      (tail : WinsAll library arguments slots (scope.record records) children others) :
      WinsAll library (argument :: arguments) (slot :: slots) scope (child :: children)
        (records ++ others)

end

section

variable {library : Library}

theorem Leaf.wins_of_resolve {leaf : Leaf} {expected : Option ValueType} {scope after : Scope}
    {cost : Nat} (h : leaf.resolve expected scope = .ok (cost, after)) :
    ∃ typing, Wins library (.leaf leaf) expected scope (.leaf typing) [.leaf leaf.id typing] ∧
      typing.cost = cost ∧ after = scope.record [.leaf leaf.id typing] := by
  obtain ⟨source, typed, h⟩ := Outcome.bind_eq_ok.mp h
  obtain ⟨found, coerced, h⟩ := Outcome.bind_eq_ok.mp h
  cases h
  rw [ValueType.coerce] at coerced
  split at coerced
  · next coerces =>
    cases coerced
    exact ⟨_, .leaf typed coerces, rfl, rfl⟩
  · cases coerced

mutual

/-- A resolution that succeeds adds the records of the winners, and nothing else. -/
theorem wins_of_resolve : ∀ {expr : Expr} {expected : Option ValueType} {scope after : Scope}
    {cost : Nat}, expr.resolve library expected scope = .ok (cost, after) →
      ∃ assignment records, Wins library expr expected scope assignment records ∧
        assignment.cost = cost ∧ after = scope.record records
  | .leaf node, expected, scope, after, cost, h => by
    rw [Expr.resolve] at h
    obtain ⟨typing, wins, cost_eq, after_eq⟩ := Leaf.wins_of_resolve h
    exact ⟨_, _, wins, cost_eq, after_eq⟩
  | .call id name arguments raw span, expected, scope, after, cost, h => by
    obtain ⟨best, winner, rfl, rfl⟩ := Expr.winner_of_resolve h
    have called (records : List Record) (reached : best.scope = scope.record records) :
        { best.scope with
            metadata := best.scope.metadata.recordCall id (best.selection expected) } =
          scope.record (records ++ [.call id (best.selection expected)]) := by
      rw [Scope.record_append, ← reached]
      rfl
    obtain ⟨-, ⟨isRaw, rawCost, resolved⟩ | ⟨notRaw, takes, total, resolved⟩⟩ :=
      Expr.attempt_eq_ok winner.fits
    · obtain ⟨typing, wins, -, reached⟩ := Leaf.wins_of_resolve resolved
      exact ⟨_, _, .raw winner isRaw wins, rfl, called _ reached⟩
    · obtain ⟨children, records, wins, reached⟩ :=
        wins_of_resolveAll (best.overload.signature.length_slots takes) resolved
      rw [Signature.map_fst_slots] at wins
      exact ⟨_, _, .call winner notRaw wins, rfl, called _ reached⟩

theorem wins_of_resolveAll : ∀ {arguments : List Expr} {slots : List (ValueType × Nat)}
    {scope after : Scope} {cost : Nat}, slots.length = arguments.length →
      Expr.resolveAll library arguments slots scope = .ok (cost, after) →
        ∃ children records,
          WinsAll library arguments (slots.map Prod.fst) scope children records ∧
            after = scope.record records
  | argument :: arguments, (target, weight) :: slots, scope, after, cost, length, h => by
    rw [Expr.resolveAll] at h
    obtain ⟨⟨first, middle⟩, resolved, h⟩ := Outcome.bind_eq_ok.mp h
    obtain ⟨⟨rest, last⟩, resolvedAll, h⟩ := Outcome.bind_eq_ok.mp h
    cases h
    obtain ⟨child, records, wins, -, rfl⟩ := wins_of_resolve resolved
    obtain ⟨children, others, winsAll, rfl⟩ :=
      wins_of_resolveAll (Nat.succ.inj length) resolvedAll
    exact ⟨_, _, .cons wins winsAll, (scope.record_append records others).symm⟩
  | [], [], scope, after, cost, _, h => by
    rw [Expr.resolveAll] at h
    · cases h
      exact ⟨_, _, .nil, rfl⟩
    · nofun

end

end

-- ---------------------------------------------------------------------------
-- Expected types
-- ---------------------------------------------------------------------------

namespace Assignment

mutual

/-- The nodes that an assignment covers of an expression of which `target` is expected, each with
    the type that is expected of it: of arguments the types of the parameters that they meet, and of
    an argument list that is taken unread that it is raw. -/
def expectations : Expr → (target : ValueType) → Assignment → List (NodeId × ValueType)
  | .leaf node, target, _ => [(node.id, target)]
  | .call id _ arguments raw _, target, .call selection children =>
    (if selection.overload.signature.isRaw then [(raw.id, .raw)]
      else expectationsAll arguments
        (selection.overload.signature.parameterTypes arguments.length) children) ++ [(id, target)]
  | .call .., _, .leaf _ => []

def expectationsAll : List Expr → List ValueType → List Assignment → List (NodeId × ValueType)
  | argument :: arguments, slot :: slots, child :: children =>
    expectations argument slot child ++ expectationsAll arguments slots children
  | _, _, _ => []

end

end Assignment

open Assignment

theorem Wins.leaf_typed {library : Library} {node : Leaf} {expected : Option ValueType}
    {scope : Scope} {assignment : Assignment} {records : List Record}
    (h : Wins library (.leaf node) expected scope assignment records) :
    records.map Record.typed = [(node.id, expected.getD assignment.target)] := by
  cases h with
  | leaf typed coerces => cases expected <;> rfl

mutual

/-- Every node is recorded with the type that the winning assignment expects of it. -/
theorem Wins.map_typed {library : Library} : ∀ {expr : Expr} {expected : Option ValueType}
    {scope : Scope} {assignment : Assignment} {records : List Record},
      Wins library expr expected scope assignment records →
        records.map Record.typed =
          assignment.expectations expr (expected.getD assignment.target)
  | .leaf node, expected, scope, assignment, records, h => by
    rw [expectations]
    exact h.leaf_typed
  | .call id name arguments raw span, expected, scope, assignment, records, h => by
    have target (best : Attempt) : (Record.call id (best.selection expected)).typed =
        (id, expected.getD (best.selection expected).target) := by
      cases expected <;> rfl
    cases h with
    | raw winner isRaw list =>
      rw [expectations, if_pos (by exact isRaw), List.map_append, list.leaf_typed]
      exact congrArg (_ :: [·]) (target _)
    | call winner notRaw args =>
      rw [expectations, if_neg (by simp [Attempt.selection, notRaw]), List.map_append,
        WinsAll.map_typed args]
      exact congrArg (_ ++ [·]) (target _)

theorem WinsAll.map_typed {library : Library} : ∀ {arguments : List Expr} {slots : List ValueType}
    {scope : Scope} {children : List Assignment} {records : List Record},
      WinsAll library arguments slots scope children records →
        records.map Record.typed = expectationsAll arguments slots children
  | [], _, _, _, _, h => by
    cases h
    rw [expectationsAll]
    · rfl
    · nofun
  | argument :: arguments, _, _, _, _, h => by
    cases h with
    | cons head tail =>
      rw [expectationsAll, List.map_append, Wins.map_typed head, WinsAll.map_typed tail]
      rfl

end

-- ---------------------------------------------------------------------------
-- Resolution
-- ---------------------------------------------------------------------------

/-- Resolution in place comes to the same as resolution of scopes as values, and what has only been
    tried leaves no trace. When it fails the scope is as it was. When it succeeds the aliases are as
    they were, the records of the winners have been added, and every entry that is not as it was
    belongs to a node that the winning assignment covers and has the type expected of the node. -/
theorem resolveIn_leaves_no_trace (library : Library) (expr : Expr) (expected : Option ValueType)
    (scope : Scope) :
    (expr.resolveIn library expected).outcome scope = expr.resolve library expected scope ∧
      match (expr.resolveIn library expected).run scope with
      | .error _ after => after = scope
      | .ok cost after => ∃ assignment records,
        Wins library expr expected scope assignment records ∧ assignment.cost = cost ∧
          after.aliases = scope.aliases ∧
          after.metadata = scope.metadata.addAll records ∧
          records.map Record.typed =
            assignment.expectations expr (expected.getD assignment.target) ∧
          scope.metadata.DiffersOnly
            (assignment.expectations expr (expected.getD assignment.target)) after.metadata := by
  have same := Expr.outcome_resolveIn library expr expected scope
  refine ⟨same, ?_⟩
  cases run : (expr.resolveIn library expected).run scope with
  | error e after => exact Expr.restores_resolveIn library expr expected scope e after run
  | ok cost after =>
    rw [InPlace.outcome, run] at same
    obtain ⟨assignment, records, wins, cost_eq, rfl⟩ := wins_of_resolve same.symm
    refine ⟨assignment, records, wins, cost_eq, rfl, rfl, wins.map_typed, ?_⟩
    refine Metadata.differsOnly_addAll (fun record mem => ?_) scope.metadata
    rw [← wins.map_typed]
    exact List.mem_map_of_mem mem

end AliasExpansion
