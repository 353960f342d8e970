-- SUMMARY: What resolution does at a call: the attempt of each overload, and the choice among them.
import AliasExpansion.Proofs.Resolution.Attempts
import AliasExpansion.Proofs.Resolution.Scopes

/-!
# Calls during resolution

The resolution of a call is the attempt of every overload followed by a choice. The lemmas say what
an attempt amounts to in each of the cases that decide it: whether the result coerces, whether the
overload takes the argument list unread, and whether the number of arguments is right.
-/

namespace AliasExpansion

-- ---------------------------------------------------------------------------
-- Parameters
-- ---------------------------------------------------------------------------

theorem ValueType.coercionCost_raw (source : ValueType) :
    ∃ cost, source.coercionCost .raw = some cost := by
  cases source <;> exact ⟨_, rfl⟩

namespace Signature

variable (signature : Signature)

theorem arity_eq : signature.arity = signature.fixed.length + signature.variadic.toList.length := by
  simp [arity, params]

theorem admits_iff (count : Nat) : signature.admits count = true ↔ signature.Takes count := by
  rw [admits, Takes, arity_eq, isVariadic]
  cases signature.variadic <;> simp

/-- The slots of a call are the types of its parameters with their weights. -/
theorem map_fst_slots (count : Nat) :
    (signature.slots count).map Prod.fst = signature.parameterTypes count := by
  rw [slots, parameterTypes]
  cases signature.variadic <;> simp [Function.comp_def]

theorem length_slots {count : Nat} (h : signature.Takes count) :
    (signature.slots count).length = count := by
  rw [Takes] at h
  rw [slots]
  cases hvariadic : signature.variadic with
  | none =>
    simp only [hvariadic] at h
    simpa using h.symm
  | some value =>
    simp only [hvariadic] at h
    simp only [List.length_append, List.length_map, Option.toList_some, List.flatMap_cons,
      List.flatMap_nil, List.append_nil, List.length_replicate]
    omega

theorem length_parameterTypes {count : Nat} (h : signature.Takes count) :
    (signature.parameterTypes count).length = count := by
  rw [← map_fst_slots, List.length_map, length_slots signature h]

end Signature

namespace Assignment

/-- The total cost of assignments in slots with weights. -/
def weightedCost (slots : List (ValueType × Nat)) (children : List Assignment) : Nat :=
  (List.zipWith (fun slot child => slot.2 * child.cost) slots children).sum

theorem weightedCost_of_const (weight : Nat) {slots : List (ValueType × Nat)}
    (hweight : ∀ slot ∈ slots, slot.2 = weight) {children : List Assignment}
    (hlength : children.length = slots.length) :
    weightedCost slots children = weight * (children.map cost).sum := by
  induction slots generalizing children with
  | nil =>
    rw [List.length_nil, List.length_eq_zero_iff] at hlength
    simp [hlength, weightedCost]
  | cons slot slots ih =>
    cases children with
    | nil => cases hlength
    | cons child children =>
      have hrest := ih (fun slot hslot => hweight slot (List.mem_cons_of_mem _ hslot))
        (Nat.succ.inj hlength)
      rw [weightedCost] at hrest
      simp [weightedCost, hrest, hweight slot List.mem_cons_self, Nat.mul_add]

/-- Weights make arguments of a variadic parameter count twice. -/
theorem weightedCost_slots {signature : Signature} {count : Nat} (htakes : signature.Takes count)
    {children : List Assignment} (hlength : children.length = count) :
    weightedCost (signature.slots count) children = argumentCost signature children := by
  have hslots := signature.length_slots htakes
  have hfixed : (children.take signature.fixed.length).length =
      (signature.fixed.map (·, 1)).length := by
    rw [Signature.slots, List.length_append, List.length_map] at hslots
    rw [List.length_take, List.length_map]
    omega
  have hvariadic : (children.drop signature.fixed.length).length =
      (signature.variadic.toList.flatMap fun value =>
        List.replicate (count - signature.fixed.length) (value, 2)).length := by
    rw [Signature.slots, List.length_append, List.length_map] at hslots
    rw [List.length_drop]
    omega
  have honce := weightedCost_of_const 1 (by simp) hfixed
  have htwice := weightedCost_of_const 2 (by simp) hvariadic
  rw [weightedCost] at honce htwice
  rw [weightedCost, Signature.slots, ← List.take_append_drop signature.fixed.length children,
    List.zipWith_append hfixed.symm, List.sum_append, honce, htwice, Nat.one_mul,
    List.take_append_drop, argumentCost]

end Assignment

-- ---------------------------------------------------------------------------
-- Attempts
-- ---------------------------------------------------------------------------

namespace Expr

/-- Refuse a call, with the call's text. -/
def refuse {α : Type} (call : Expr) (signatures : String) : Except Error α := do
  throw (.signature signatures (← call.display.mapError .decode) (some call.span))

/-- The attempt of an overload for a call. -/
def attempt (library : Library) (id : NodeId) (name : String) (arguments : List Expr) (raw : Leaf)
    (span : Span) (expected : Option ValueType) (scope : Scope) (overload : Overload) :
    Except Error Attempt := do
  let signature := overload.signature
  let resultCost ←
    match expected with
    | some target => signature.output.coerce target span
    | none => pure 0
  let (argumentCost, scope) ←
    if signature.isRaw then do
      let (_, scope) ← raw.resolve (some .raw) scope
      pure (0, scope)
    else if signature.admits arguments.length then
      resolveAll library arguments (signature.slots arguments.length) scope
    else refuse (.call id name arguments raw span) signature.render
  return { overload, cost := resultCost + argumentCost, scope }

theorem resolve_call (library : Library) (id : NodeId) (name : String) (arguments : List Expr)
    (raw : Leaf) (span : Span) (expected : Option ValueType) (scope : Scope) :
    resolve library (.call id name arguments raw span) expected scope =
      if (library.find name).isEmpty then .error (.undefinedFunction name (some span))
      else do
        match Attempt.best? (← Attempt.collect
            (attempt library id name arguments raw span expected scope) (library.find name)) with
        | none =>
          refuse (.call id name arguments raw span) (Library.describe (library.find name))
        | some best =>
          let target := expected.getD best.overload.signature.output
          let selection := { overload := best.overload, target, cost := best.cost }
          let metadata := best.scope.metadata.recordCall id selection
          return (best.cost, { best.scope with metadata }) := by
  rw [resolve]
  rfl

section

variable {library : Library} {id : NodeId} {name : String} {arguments : List Expr} {raw : Leaf}
  {span : Span} {expected : Option ValueType} {scope : Scope} {overload : Overload}

theorem refuse_eq {α : Type} (call : Expr) (signatures : String) :
    (∃ e, (call.refuse signatures : Except Error α) = .error e ∧ e.isRefusal = true ∧
      ∀ d, call.display ≠ .error d) ∨
    (∃ d, (call.refuse signatures : Except Error α) = .error (.decode d) ∧
      call.display = .error d) := by
  rw [refuse]
  cases call.display with
  | ok text => exact .inl ⟨_, rfl, rfl, nofun⟩
  | error d => exact .inr ⟨d, rfl, rfl⟩

theorem attempt_of_resultCost_none (hresult : overload.resultCost? expected = none) :
    ∃ e, attempt library id name arguments raw span expected scope overload = .error e ∧
      e.isRefusal = true := by
  cases expected with
  | none => cases hresult
  | some target =>
    rw [Overload.resultCost?] at hresult
    simp only [attempt, ValueType.coerce, hresult]
    exact ⟨_, rfl, rfl⟩

theorem attempt_of_resultCost {cost : Nat} (hresult : overload.resultCost? expected = some cost) :
    attempt library id name arguments raw span expected scope overload = do
      let (argumentCost, scope) ←
        if overload.signature.isRaw then do
          let (_, scope) ← raw.resolve (some .raw) scope
          pure (0, scope)
        else if overload.signature.admits arguments.length then
          resolveAll library arguments (overload.signature.slots arguments.length) scope
        else refuse (.call id name arguments raw span) overload.signature.render
      return { overload, cost := cost + argumentCost, scope } := by
  cases expected with
  | none =>
    cases hresult
    rfl
  | some target =>
    rw [Overload.resultCost?] at hresult
    simp only [attempt, ValueType.coerce, hresult]
    rfl

/-- A raw overload takes any argument list at no cost. -/
theorem attempt_of_raw {cost : Nat} (hresult : overload.resultCost? expected = some cost)
    (hraw : overload.signature.isRaw = true) (hosts : scope.Hosts [raw.id]) :
    ∃ rawCost, attempt library id name arguments raw span expected scope overload = .ok
      { overload, cost,
        scope := { scope with
          metadata := scope.metadata.recordLeaf raw.id { target := .raw, cost := rawCost } } } := by
  obtain ⟨rawCost, hcost⟩ := (scope.sourceType raw.value).coercionCost_raw
  refine ⟨rawCost, ?_⟩
  rw [attempt_of_resultCost hresult, if_pos hraw]
  simp [Leaf.resolve, hosts.typeOf_eq, ValueType.coerce, hcost]

theorem attempt_of_takes {cost : Nat} (hresult : overload.resultCost? expected = some cost)
    (hraw : overload.signature.isRaw = false) (htakes : overload.signature.Takes arguments.length) :
    attempt library id name arguments raw span expected scope overload = do
      let (argumentCost, scope) ←
        resolveAll library arguments (overload.signature.slots arguments.length) scope
      return { overload, cost := cost + argumentCost, scope } := by
  rw [attempt_of_resultCost hresult, if_neg (by simp [hraw]),
    if_pos ((overload.signature.admits_iff _).2 htakes)]

theorem attempt_of_not_takes {cost : Nat} (hresult : overload.resultCost? expected = some cost)
    (hraw : overload.signature.isRaw = false)
    (htakes : ¬ overload.signature.Takes arguments.length) :
    attempt library id name arguments raw span expected scope overload = do
      let (argumentCost, scope) ←
        refuse (.call id name arguments raw span) overload.signature.render
      return { overload, cost := cost + argumentCost, scope } := by
  rw [attempt_of_resultCost hresult, if_neg (by simp [hraw]),
    if_neg (by rwa [overload.signature.admits_iff])]

/-- An attempt that fits has resolved the raw argument list, or else the arguments against the types
    of the parameters. -/
theorem attempt_eq_ok {found : Attempt}
    (h : attempt library id name arguments raw span expected scope overload = .ok found) :
    found.overload = overload ∧
      ((overload.signature.isRaw = true ∧
          ∃ cost, raw.resolve (some .raw) scope = .ok (cost, found.scope)) ∨
        (overload.signature.isRaw = false ∧ overload.signature.Takes arguments.length ∧
          ∃ cost, resolveAll library arguments (overload.signature.slots arguments.length) scope =
            .ok (cost, found.scope))) := by
  cases resultCost : overload.resultCost? expected with
  | none =>
    obtain ⟨e, refused, -⟩ : ∃ e, attempt library id name arguments raw span expected scope overload
        = .error e ∧ e.isRefusal = true := attempt_of_resultCost_none resultCost
    rw [refused] at h
    cases h
  | some cost =>
    rw [attempt_of_resultCost resultCost] at h
    split at h
    · next isRaw =>
      obtain ⟨⟨rawCost, after⟩, resolved, h⟩ := Outcome.bind_eq_ok.mp h
      cases h
      exact ⟨rfl, .inl ⟨isRaw, rawCost, resolved⟩⟩
    · next isRaw =>
      split at h
      · next admits =>
        obtain ⟨⟨total, after⟩, resolved, h⟩ := Outcome.bind_eq_ok.mp h
        cases h
        rw [overload.signature.admits_iff] at admits
        exact ⟨rfl, .inr ⟨Bool.eq_false_of_not_eq_true isRaw, admits, total, resolved⟩⟩
      · obtain ⟨result, refused, -⟩ := Outcome.bind_eq_ok.mp h
        obtain ⟨text, -, refused⟩ := Outcome.bind_eq_ok.mp refused
        cases refused

end

end Expr

-- ---------------------------------------------------------------------------
-- Winners
-- ---------------------------------------------------------------------------

/-- What goes on record for a call that the attempt wins. -/
def Attempt.selection (attempt : Attempt) (expected : Option ValueType) : Selection where
  overload := attempt.overload
  target := expected.getD attempt.overload.signature.output
  cost := attempt.cost

namespace Expr

/-- The attempt that wins a call: of the attempts that fit it has the lowest rank, and none that was
    made before it has the same. -/
structure Winner (library : Library) (id : NodeId) (name : String) (arguments : List Expr)
    (raw : Leaf) (span : Span) (expected : Option ValueType) (scope : Scope) (best : Attempt) :
    Prop where
  fits : attempt library id name arguments raw span expected scope best.overload = .ok best
  first : ∃ earlier later, library.find name = earlier ++ best.overload :: later ∧
    (∀ other ∈ earlier, ∀ found, attempt library id name arguments raw span expected scope other =
      .ok found → best.rank < found.rank) ∧
    ∀ other ∈ later, ∀ found, attempt library id name arguments raw span expected scope other =
      .ok found → best.rank ≤ found.rank

section

variable {library : Library} {id : NodeId} {name : String} {arguments : List Expr} {raw : Leaf}
  {span : Span} {expected : Option ValueType} {scope after : Scope} {cost : Nat}

theorem Winner.overload_mem {best : Attempt}
    (h : Winner library id name arguments raw span expected scope best) :
    best.overload ∈ library.find name := by
  obtain ⟨earlier, later, split, -⟩ := h.first
  rw [split]
  exact List.mem_append_right earlier List.mem_cons_self

/-- A call that is resolved has a winner, whose scope becomes the scope of the call. -/
theorem winner_of_resolve
    (h : resolve library (.call id name arguments raw span) expected scope = .ok (cost, after)) :
    ∃ best, Winner library id name arguments raw span expected scope best ∧ cost = best.cost ∧
      after = { best.scope with
        metadata := best.scope.metadata.recordCall id (best.selection expected) } := by
  rw [resolve_call] at h
  split at h
  · cases h
  obtain ⟨attempts, collected, h⟩ := Outcome.bind_eq_ok.mp h
  obtain ⟨-, rfl⟩ := Attempt.collect_eq_ok collected
  split at h
  · obtain ⟨text, -, refused⟩ := Outcome.bind_eq_ok.mp h
    cases refused
  next best chosen =>
  cases h
  obtain ⟨before, after, split, higher, notLower⟩ := Attempt.best?_eq_some chosen
  obtain ⟨front, rest, found, rfl, restFound⟩ := List.filterMap_eq_append_iff.mp split
  obtain ⟨refused, overload, later, rfl, none, fits, rfl⟩ := List.filterMap_eq_cons_iff.mp restFound
  have fits := Outcome.toOption_eq_some.mp fits
  obtain ⟨rfl, -⟩ := attempt_eq_ok fits
  refine ⟨best, ⟨fits, front ++ refused, later, by rw [found, List.append_assoc], ?_, ?_⟩, rfl, rfl⟩
  · intro other mem attempt fitting
    have fitting := Outcome.toOption_eq_some.mpr fitting
    rcases List.mem_append.mp mem with mem | mem
    · exact higher attempt (List.mem_filterMap.mpr ⟨other, mem, fitting⟩)
    · rw [none other mem] at fitting
      cases fitting
  · intro other mem attempt fitting
    exact notLower attempt
      (List.mem_filterMap.mpr ⟨other, mem, Outcome.toOption_eq_some.mpr fitting⟩)

end

end Expr

end AliasExpansion
