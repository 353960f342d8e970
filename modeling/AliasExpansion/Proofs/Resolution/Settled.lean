-- SUMMARY: What resolving an expression comes to, for leaves, arguments, overloads and calls.
import AliasExpansion.Proofs.Resolution.Calls

/-!
# Settled expressions

Resolution either puts the best assignment on record, or refuses the expression for want of one, or
stumbles. What it comes to at a call follows from what it comes to at the arguments: every attempt
finds the cheapest assignment with its overload, and the preferred attempt the best of all.
-/

namespace AliasExpansion

open Assignment

-- ---------------------------------------------------------------------------
-- What resolution has to come to
-- ---------------------------------------------------------------------------

/-- What is left after an expression has been resolved: the best assignment on record with its
    cost, or a refusal because nothing fits, or the failure to render a refused call. -/
def Settled (library : Library) (source : Value → ValueType) (expr : Expr)
    (expected : Option ValueType) (scope : Scope) : Except Error (Nat × Scope) → Prop
  | .ok (cost, after) =>
    scope.SameOutside expr.ids after ∧ ¬ Stumbles library source expr expected ∧
      ∃ assignment, Best library source expr expected assignment ∧
        Recorded after.metadata expr assignment ∧ assignment.cost = cost ∧
        (scope.metadata.leaves.find? expr.id = none →
          after.metadata.target? expr.id = some assignment.target)
  | .error e =>
    (e.isRefusal = true ∧ ¬ Stumbles library source expr expected ∧
        ∀ assignment, ¬ Fits library source expr expected assignment) ∨
      (∃ d, e = .decode d) ∧ Stumbles library source expr expected

/-- The same for arguments in weighted slots. -/
def SettledAll (library : Library) (source : Value → ValueType) (arguments : List Expr)
    (slots : List (ValueType × Nat)) (scope : Scope) : Except Error (Nat × Scope) → Prop
  | .ok (cost, after) =>
    scope.SameOutside (Expr.idsAll arguments) after ∧
      ¬ StumblesIn library source arguments (slots.map Prod.fst) ∧
      ∃ children, FitsAll library source arguments (slots.map Prod.fst) children ∧
        (∀ others, FitsAll library source arguments (slots.map Prod.fst) others →
          weightedCost slots children ≤ weightedCost slots others) ∧
        RecordedAll after.metadata arguments children ∧ weightedCost slots children = cost
  | .error e =>
    (e.isRefusal = true ∧ ¬ StumblesIn library source arguments (slots.map Prod.fst) ∧
        ∀ children, ¬ FitsAll library source arguments (slots.map Prod.fst) children) ∨
      (∃ d, e = .decode d) ∧ StumblesIn library source arguments (slots.map Prod.fst)

/-- Trying an overload for a call makes resolution stumble. -/
def StumblesAt (library : Library) (source : Value → ValueType) (call : Expr)
    (arguments : List Expr) (expected : Option ValueType) (overload : Overload) : Prop :=
  overload.signature.isRaw = false ∧ (∃ cost, overload.resultCost? expected = some cost) ∧
    ((¬ overload.signature.Takes arguments.length ∧ ∃ d, call.display = .error d) ∨
      (overload.signature.Takes arguments.length ∧
        StumblesIn library source arguments (overload.signature.parameterTypes arguments.length)))

section Call

variable {library : Library} {source : Value → ValueType} {id : NodeId} {name : String}
  {arguments : List Expr} {raw : Leaf} {span : Span} {expected : Option ValueType}
  {scope : Scope} {overload : Overload}

theorem stumbles_call_iff :
    Stumbles library source (.call id name arguments raw span) expected ↔
      (∃ overload ∈ library.find name, StumblesAt library source
        (.call id name arguments raw span) arguments expected overload) ∨
      (library.find name ≠ [] ∧
        (∀ assignment, ¬ Fits library source (.call id name arguments raw span) expected
          assignment) ∧
        ∃ d, (Expr.call id name arguments raw span).display = .error d) := by
  constructor
  · intro h
    cases h with
    | overload hmem hraw hresult htakes hdisplay =>
      exact .inl ⟨_, hmem, hraw, ⟨_, hresult⟩, .inl ⟨htakes, _, hdisplay⟩⟩
    | call hfind hnone hdisplay => exact .inr ⟨hfind, hnone, _, hdisplay⟩
    | argument hmem hraw hresult htakes harguments =>
      exact .inl ⟨_, hmem, hraw, ⟨_, hresult⟩, .inr ⟨htakes, harguments⟩⟩
  · rintro (⟨overload, hmem, hraw, ⟨cost, hresult⟩, ⟨htakes, d, hdisplay⟩ | ⟨htakes, hin⟩⟩ |
      ⟨hfind, hnone, d, hdisplay⟩)
    · exact .overload hmem hraw hresult htakes hdisplay
    · exact .argument hmem hraw hresult htakes hin
    · exact .call hfind hnone hdisplay

/-- What is left after an overload has been tried for a call. The assignment found is the cheapest
    one with that overload. -/
def AttemptSettled (library : Library) (source : Value → ValueType) (id : NodeId) (name : String)
    (arguments : List Expr) (raw : Leaf) (span : Span) (expected : Option ValueType)
    (scope : Scope) (overload : Overload) : Except Error Attempt → Prop
  | .ok attempt =>
    attempt.overload = overload ∧
      scope.SameOutside (raw.id :: Expr.idsAll arguments) attempt.scope ∧
      ¬ StumblesAt library source (.call id name arguments raw span) arguments expected overload ∧
      (∀ selection children, selection.overload = overload →
        Fits library source (.call id name arguments raw span) expected
          (.call selection children) → attempt.cost ≤ selection.cost) ∧
      ∃ children, Fits library source (.call id name arguments raw span) expected
          (.call
            { overload, target := expected.getD overload.signature.output, cost := attempt.cost }
            children) ∧
        if overload.signature.isRaw then
          ∃ cost, attempt.scope.metadata.leaves.find? raw.id = some { target := .raw, cost }
        else RecordedAll attempt.scope.metadata arguments children
  | .error e =>
    (e.isRefusal = true ∧
        ¬ StumblesAt library source (.call id name arguments raw span) arguments expected
          overload ∧
        ∀ selection children, selection.overload = overload →
          ¬ Fits library source (.call id name arguments raw span) expected
            (.call selection children)) ∨
      (∃ d, e = .decode d) ∧
        StumblesAt library source (.call id name arguments raw span) arguments expected overload

end Call

-- ---------------------------------------------------------------------------
-- Leaves and arguments
-- ---------------------------------------------------------------------------

section

variable {library : Library} {scope : Scope}

theorem settled_leaf {node : Leaf} {expected : Option ValueType} (hosts : scope.Hosts [node.id]) :
    Settled library scope.sourceType (.leaf node) expected scope
      (Expr.resolve library (.leaf node) expected scope) := by
  have hstumble : ¬ Stumbles library scope.sourceType (.leaf node) expected := by
    intro h
    cases h
  rw [Expr.resolve, Leaf.resolve, hosts.typeOf_eq]
  simp only [Outcome.ok_bind, ValueType.coerce]
  cases hcost : (scope.sourceType node.value).coercionCost
      (expected.getD (scope.sourceType node.value)) with
  | none =>
    refine .inl ⟨rfl, hstumble, fun assignment hfits => ?_⟩
    cases hfits with
    | leaf hcost' => rw [hcost] at hcost'; cases hcost'
  | some cost =>
    have hrecorded := Table.find?_insert_self scope.metadata.leaves node.id
      { target := expected.getD (scope.sourceType node.value), cost }
    refine ⟨scope.sameOutside_recordLeaf _ _, hstumble, _, ⟨.leaf hcost, ?_, ?_⟩, ?_, rfl,
      fun _ => ?_⟩
    · intro other hfits
      cases hfits with
      | leaf hcost' => rw [hcost] at hcost'; cases hcost'; exact le_rfl
    · intro _ _ _ _ _ hcall
      cases hcall
    · rw [Recorded]
      exact hrecorded
    · rw [Metadata.target?, Metadata.recordLeaf, Expr.id, hrecorded]
      rfl

variable {source : Value → ValueType}

theorem settledAll_nil (slots : List (ValueType × Nat)) (hlength : slots.length = 0) :
    SettledAll library source [] slots scope (Expr.resolveAll library [] slots scope) := by
  rw [List.length_eq_zero_iff] at hlength
  subst hlength
  refine ⟨.refl _ _, nofun, [], .nil, fun others _ => Nat.zero_le _, ?_, rfl⟩
  rw [RecordedAll]
  trivial

/-- Arguments are assigned independently: the sum of the cheapest assignments is the cheapest
    sum. -/
theorem settledAll_cons {argument : Expr} {arguments : List Expr} {slot : ValueType} {weight : Nat}
    {slots : List (ValueType × Nat)} (hdisjoint : argument.ids.Disjoint (Expr.idsAll arguments))
    (hhead : Settled library source argument (some slot) scope
      (argument.resolve library (some slot) scope))
    (htail : ∀ middle, scope.SameOutside argument.ids middle →
      SettledAll library source arguments slots middle
        (Expr.resolveAll library arguments slots middle)) :
    SettledAll library source (argument :: arguments) ((slot, weight) :: slots) scope
      (Expr.resolveAll library (argument :: arguments) ((slot, weight) :: slots) scope) := by
  rw [Expr.resolveAll]
  cases hresolve : argument.resolve library (some slot) scope with
  | error e =>
    rw [hresolve] at hhead
    obtain ⟨hrefusal, hstumble, hnone⟩ | ⟨hdecode, hstumble⟩ := hhead
    · refine .inl ⟨hrefusal, fun hin => ?_, fun children hfits => ?_⟩
      · cases hin with
        | head hargument => exact hstumble hargument
        | tail hchild _ => exact hnone _ hchild
      · cases hfits with
        | cons hchild _ => exact hnone _ hchild
    · exact .inr ⟨hdecode, .head hstumble⟩
  | ok result =>
    obtain ⟨cost, middle⟩ := result
    rw [hresolve] at hhead
    obtain ⟨hmiddle, hstumble, child, hbest, hchild, hcost, -⟩ := hhead
    have hrest := htail middle hmiddle
    simp only [Outcome.ok_bind]
    cases hresolveAll : Expr.resolveAll library arguments slots middle with
    | error e =>
      rw [hresolveAll] at hrest
      obtain ⟨hrefusal, hstumbleIn, hnone⟩ | ⟨hdecode, hstumbleIn⟩ := hrest
      · refine .inl ⟨hrefusal, fun hin => ?_, fun children hfits => ?_⟩
        · cases hin with
          | head hargument => exact hstumble hargument
          | tail _ harguments => exact hstumbleIn harguments
        · cases hfits with
          | cons _ hchildren => exact hnone _ hchildren
      · exact .inr ⟨hdecode, .tail hbest.fits hstumbleIn⟩
    | ok result =>
      obtain ⟨total, after⟩ := result
      rw [hresolveAll] at hrest
      obtain ⟨hafter, hstumbleIn, children, hfits, hleast, hchildren, htotal⟩ := hrest
      have hall : argument.ids ⊆ Expr.idsAll (argument :: arguments) := by simp [Expr.idsAll]
      have hall' : Expr.idsAll arguments ⊆ Expr.idsAll (argument :: arguments) := by
        simp [Expr.idsAll]
      refine ⟨(hmiddle.mono hall).trans (hafter.mono hall'), fun hin => ?_, child :: children,
        .cons hbest.fits hfits, fun others hothers => ?_, ?_, ?_⟩
      · cases hin with
        | head hargument => exact hstumble hargument
        | tail _ harguments => exact hstumbleIn harguments
      · cases hothers with
        | cons hother hothers =>
          have hle := Nat.mul_le_mul_left weight (hbest.cost_le _ hother)
          exact Nat.add_le_add hle (hleast _ hothers)
      · rw [RecordedAll]
        exact ⟨hchild.of_sameOutside hafter.metadata hdisjoint, hchildren⟩
      · rw [← hcost, ← htotal]
        rfl

end

-- ---------------------------------------------------------------------------
-- Calls
-- ---------------------------------------------------------------------------

section

variable {library : Library} {source : Value → ValueType} {id : NodeId} {name : String}
  {arguments : List Expr} {raw : Leaf} {span : Span} {expected : Option ValueType} {scope : Scope}
  {overload : Overload} {cost : Nat}

theorem attempt_settled_of_resultCost_none (hresult : overload.resultCost? expected = none) :
    AttemptSettled library source id name arguments raw span expected scope overload
      (Expr.attempt library id name arguments raw span expected scope overload) := by
  obtain ⟨e, hattempt, hrefusal⟩ :
      ∃ e, Expr.attempt library id name arguments raw span expected scope overload = .error e ∧
        e.isRefusal = true := Expr.attempt_of_resultCost_none hresult
  rw [hattempt]
  refine .inl ⟨hrefusal, ?_, ?_⟩
  · rintro ⟨-, ⟨cost, hcost⟩, -⟩
    rw [hresult] at hcost
    cases hcost
  · rintro selection children rfl hfits
    cases hfits with
    | raw _ _ hcost => rw [hresult] at hcost; cases hcost
    | call _ _ hcost _ _ => rw [hresult] at hcost; cases hcost

theorem attempt_settled_of_raw (hmem : overload ∈ library.find name)
    (hosts : scope.Hosts [raw.id]) (hresult : overload.resultCost? expected = some cost)
    (hraw : overload.signature.isRaw = true) :
    AttemptSettled library source id name arguments raw span expected scope overload
      (Expr.attempt library id name arguments raw span expected scope overload) := by
  obtain ⟨rawCost, hattempt⟩ :
      ∃ rawCost, Expr.attempt library id name arguments raw span expected scope overload =
        .ok ⟨overload, cost, { scope with
          metadata := scope.metadata.recordLeaf raw.id ⟨.raw, rawCost⟩ }⟩ :=
    Expr.attempt_of_raw hresult hraw hosts
  rw [hattempt]
  refine ⟨rfl, (scope.sameOutside_recordLeaf _ _).mono (by simp), ?_, ?_, [], ?_, ?_⟩
  · rintro ⟨hnot, -⟩
    rw [hraw] at hnot
    cases hnot
  · rintro selection children rfl hfits
    cases hfits with
    | raw _ _ hcost => rw [hresult] at hcost; cases hcost; exact le_rfl
    | call _ hnot _ _ _ => rw [hraw] at hnot; cases hnot
  · exact .raw hmem hraw hresult
  · rw [if_pos hraw]
    exact ⟨rawCost, Table.find?_insert_self _ _ _⟩

theorem attempt_settled_of_not_takes (hresult : overload.resultCost? expected = some cost)
    (hraw : overload.signature.isRaw = false)
    (htakes : ¬ overload.signature.Takes arguments.length) :
    AttemptSettled library source id name arguments raw span expected scope overload
      (Expr.attempt library id name arguments raw span expected scope overload) := by
  rw [Expr.attempt_of_not_takes hresult hraw htakes]
  obtain ⟨e, hrefuse, hrefusal, hdisplay⟩ | ⟨d, hrefuse, hdisplay⟩ :=
    Expr.refuse_eq (α := Nat × Scope) (.call id name arguments raw span) overload.signature.render
  · rw [hrefuse]
    refine .inl ⟨hrefusal, ?_, ?_⟩
    · rintro ⟨-, -, ⟨-, d, hd⟩ | ⟨hadmitted, -⟩⟩
      · exact hdisplay d hd
      · exact htakes hadmitted
    · rintro selection children rfl hfits
      cases hfits with
      | raw _ hyes _ => rw [hraw] at hyes; cases hyes
      | call _ _ _ hadmitted _ => exact htakes hadmitted
  · rw [hrefuse]
    exact .inr ⟨⟨d, rfl⟩, hraw, ⟨cost, hresult⟩, .inl ⟨htakes, d, hdisplay⟩⟩

/-- The cheapest assignment of the arguments is part of the cheapest one with the overload. -/
theorem attempt_settled_of_takes (hmem : overload ∈ library.find name)
    (hresult : overload.resultCost? expected = some cost)
    (hraw : overload.signature.isRaw = false) (htakes : overload.signature.Takes arguments.length)
    (harguments : SettledAll library source arguments (overload.signature.slots arguments.length)
      scope (Expr.resolveAll library arguments (overload.signature.slots arguments.length) scope)) :
    AttemptSettled library source id name arguments raw span expected scope overload
      (Expr.attempt library id name arguments raw span expected scope overload) := by
  rw [Expr.attempt_of_takes hresult hraw htakes]
  have hslots := overload.signature.map_fst_slots arguments.length
  cases hresolve :
      Expr.resolveAll library arguments (overload.signature.slots arguments.length) scope with
  | error e =>
    rw [hresolve] at harguments
    simp only [SettledAll, hslots] at harguments
    obtain ⟨hrefusal, hstumble, hnone⟩ | ⟨hdecode, hstumble⟩ := harguments
    · refine .inl ⟨hrefusal, ?_, ?_⟩
      · rintro ⟨-, -, ⟨hnot, -⟩ | ⟨-, hin⟩⟩
        · exact hnot htakes
        · exact hstumble hin
      · rintro selection children rfl hfits
        cases hfits with
        | raw _ hyes _ => rw [hraw] at hyes; cases hyes
        | call _ _ _ _ hchildren => exact hnone _ hchildren
    · exact .inr ⟨hdecode, hraw, ⟨cost, hresult⟩, .inr ⟨htakes, hstumble⟩⟩
  | ok result =>
    obtain ⟨total, after⟩ := result
    rw [hresolve] at harguments
    simp only [SettledAll, hslots] at harguments
    obtain ⟨hafter, hstumble, children, hfits, hleast, hrecorded, htotal⟩ := harguments
    have htotal : argumentCost overload.signature children = total := by
      rw [← weightedCost_slots htakes hfits.length_eq, htotal]
    refine ⟨rfl, hafter.mono (List.subset_cons_self _ _), ?_, ?_, children, ?_, ?_⟩
    · rintro ⟨-, -, ⟨hnot, -⟩ | ⟨-, hin⟩⟩
      · exact hnot htakes
      · exact hstumble hin
    · rintro selection others rfl hothers
      cases hothers with
      | raw _ hyes _ => rw [hraw] at hyes; cases hyes
      | call _ _ hcost _ hchildren =>
        rw [hresult] at hcost
        cases hcost
        have hle := hleast _ hchildren
        rw [weightedCost_slots htakes hfits.length_eq,
          weightedCost_slots htakes hchildren.length_eq, htotal] at hle
        exact Nat.add_le_add_left hle _
    · rw [← htotal]
      exact .call hmem hraw hresult htakes hfits
    · rw [if_neg (by simp [hraw])]
      exact hrecorded

/-- Every attempt finds the cheapest assignment with its overload. -/
theorem attempt_settled (hmem : overload ∈ library.find name) (hosts : scope.Hosts [raw.id])
    (harguments : overload.signature.Takes arguments.length →
      SettledAll library source arguments (overload.signature.slots arguments.length) scope
        (Expr.resolveAll library arguments (overload.signature.slots arguments.length) scope)) :
    AttemptSettled library source id name arguments raw span expected scope overload
      (Expr.attempt library id name arguments raw span expected scope overload) := by
  cases hresult : overload.resultCost? expected with
  | none => exact attempt_settled_of_resultCost_none hresult
  | some cost =>
    cases hraw : overload.signature.isRaw with
    | true => exact attempt_settled_of_raw hmem hosts hresult hraw
    | false =>
      by_cases htakes : overload.signature.Takes arguments.length
      · exact attempt_settled_of_takes hmem hresult hraw htakes (harguments htakes)
      · exact attempt_settled_of_not_takes hresult hraw htakes

/-- No overload is tried that makes resolution stumble, unless it fails to decode. -/
theorem AttemptSettled.not_stumblesAt {result : Except Error Attempt}
    (h : AttemptSettled library source id name arguments raw span expected scope overload result)
    (hrefusal : ∀ e, result = .error e → e.isRefusal = true) :
    ¬ StumblesAt library source (.call id name arguments raw span) arguments expected overload := by
  cases result with
  | ok attempt => exact h.2.2.1
  | error e =>
    obtain ⟨-, hstumble, -⟩ | ⟨⟨d, rfl⟩, -⟩ := h
    · exact hstumble
    · exact absurd (hrefusal _ rfl) (by simp)

theorem AttemptSettled.exists_le {result : Except Error Attempt}
    (h : AttemptSettled library source id name arguments raw span expected scope overload result)
    (hrefusal : ∀ e, result = .error e → e.isRefusal = true) {selection : Selection}
    {children : List Assignment} (hoverload : selection.overload = overload)
    (hfits : Fits library source (.call id name arguments raw span) expected
      (.call selection children)) :
    ∃ attempt, result = .ok attempt ∧ attempt.rank ≤ selection.rank := by
  cases result with
  | ok attempt =>
    refine ⟨attempt, rfl, ?_⟩
    have hcost := h.2.2.2.1 selection children hoverload hfits
    rw [Attempt.rank, Selection.rank, h.1, hoverload]
    exact Prod.Lex.toLex_mono ⟨hcost, le_rfl⟩
  | error e =>
    obtain ⟨-, -, hnone⟩ | ⟨⟨d, rfl⟩, -⟩ := h
    · exact absurd hfits (hnone selection children hoverload)
    · exact absurd (hrefusal _ rfl) (by simp)

/-- Every overload of the name has been tried, and none of the attempts stumbled. -/
structure Tried (library : Library) (source : Value → ValueType) (id : NodeId) (name : String)
    (arguments : List Expr) (raw : Leaf) (span : Span) (expected : Option ValueType)
    (scope : Scope) : Prop where
  settled : ∀ overload ∈ library.find name,
    AttemptSettled library source id name arguments raw span expected scope overload
      (Expr.attempt library id name arguments raw span expected scope overload)
  refused : ∀ overload ∈ library.find name, ∀ e,
    Expr.attempt library id name arguments raw span expected scope overload = .error e →
      e.isRefusal = true

/-- The attempts of a call that were not refused, in the order of the library. -/
def Expr.fitting (library : Library) (id : NodeId) (name : String) (arguments : List Expr)
    (raw : Leaf) (span : Span) (expected : Option ValueType) (scope : Scope) : List Attempt :=
  (library.find name).filterMap fun overload =>
    (Expr.attempt library id name arguments raw span expected scope overload).toOption

theorem Tried.not_stumblesAt
    (h : Tried library source id name arguments raw span expected scope) :
    ¬ ∃ overload ∈ library.find name, StumblesAt library source
      (.call id name arguments raw span) arguments expected overload := by
  rintro ⟨overload, hmem, hstumble⟩
  exact (h.settled overload hmem).not_stumblesAt (h.refused overload hmem) hstumble

/-- An assignment of the call cannot beat the attempt of its overload. -/
theorem Tried.exists_le (h : Tried library source id name arguments raw span expected scope)
    {other : Selection} {others : List Assignment}
    (hfits : Fits library source (.call id name arguments raw span) expected
      (.call other others)) :
    ∃ attempt, Expr.attempt library id name arguments raw span expected scope other.overload =
      .ok attempt ∧ attempt.rank ≤ other.rank :=
  (h.settled _ hfits.overload_mem).exists_le (h.refused _ hfits.overload_mem) rfl hfits

/-- What the preferred attempt found is as good as any assignment of the call. -/
theorem Tried.rank_le (h : Tried library source id name arguments raw span expected scope)
    {best : Attempt} {before after : List Attempt}
    (hsplit :
      Expr.fitting library id name arguments raw span expected scope = before ++ best :: after)
    (hbefore : ∀ other ∈ before, best.rank < other.rank)
    (hafter : ∀ other ∈ after, best.rank ≤ other.rank) {other : Selection}
    {others : List Assignment}
    (hfits : Fits library source (.call id name arguments raw span) expected
      (.call other others)) : best.rank ≤ other.rank := by
  obtain ⟨attempt, hattempt, hle⟩ := h.exists_le hfits
  have hmem : attempt ∈ before ++ best :: after :=
    hsplit ▸ List.mem_filterMap.2 ⟨_, hfits.overload_mem, by rw [hattempt]; rfl⟩
  refine le_trans ?_ hle
  rw [List.mem_append, List.mem_cons] at hmem
  rcases hmem with hmem | rfl | hmem
  · exact (hbefore attempt hmem).le
  · exact le_rfl
  · exact hafter attempt hmem

/-- The preferred attempt leads to the best assignment of the call. -/
theorem best_of_preferred (h : Tried library source id name arguments raw span expected scope)
    {best : Attempt} {before after : List Attempt}
    (hsplit :
      Expr.fitting library id name arguments raw span expected scope = before ++ best :: after)
    (hbefore : ∀ other ∈ before, best.rank < other.rank)
    (hafter : ∀ other ∈ after, best.rank ≤ other.rank) {children : List Assignment}
    (hfits : Fits library source (.call id name arguments raw span) expected
      (.call ⟨best.overload, expected.getD best.overload.signature.output, best.cost⟩ children)) :
    Best library source (.call id name arguments raw span) expected
      (.call ⟨best.overload, expected.getD best.overload.signature.output, best.cost⟩
        children) := by
  obtain ⟨first, rest, hfind, hfirst, hrest⟩ := List.filterMap_eq_append_iff.1 hsplit
  obtain ⟨rejected, overload, later, rfl, hrejected, hbest, -⟩ := List.filterMap_eq_cons_iff.1 hrest
  have hoverload : best.overload = overload := by
    have hsettled := h.settled overload (by simp [hfind])
    rw [Outcome.toOption_eq_some.1 hbest] at hsettled
    exact hsettled.1
  refine ⟨hfits, fun other hother => ?_, ?_⟩
  · cases other with
    | leaf typing => cases hother
    | call other others =>
      exact Prod.Lex.monotone_fst _ _ (h.rank_le hsplit hbefore hafter hother)
  · rintro _ _ _ _ _ ⟨⟩
    refine ⟨_, children, rfl, first ++ rejected, later, ?_, fun other others hother => ?_⟩
    · rw [hfind, hoverload, List.append_assoc]
    refine ⟨h.rank_le hsplit hbefore hafter hother, fun hearlier => ?_⟩
    obtain ⟨attempt, hattempt, hle⟩ := h.exists_le hother
    refine (hbefore attempt ?_).trans_le hle
    rw [← hfirst]
    rcases List.mem_append.1 hearlier with hmem | hmem
    · exact List.mem_filterMap.2 ⟨_, hmem, by rw [hattempt]; rfl⟩
    · have hnone := hrejected _ hmem
      rw [hattempt] at hnone
      cases hnone

/-- Nothing fits a call whose name has no overload. -/
theorem settled_undefined (hfind : library.find name = []) :
    Settled library source (.call id name arguments raw span) expected scope
      (.error (.undefinedFunction name (some span))) := by
  have hnone (assignment : Assignment) :
      ¬ Fits library source (.call id name arguments raw span) expected assignment := by
    intro hfits
    cases hfits with
    | raw hmem _ _ => simp [hfind] at hmem
    | call hmem _ _ _ _ => simp [hfind] at hmem
  refine .inl ⟨rfl, ?_, hnone⟩
  rw [stumbles_call_iff, hfind]
  simp

/-- An attempt that is no refusal ends the resolution of the call. -/
theorem settled_stumbled {e : Error}
    (hattempts : ∀ overload ∈ library.find name,
      AttemptSettled library source id name arguments raw span expected scope overload
        (Expr.attempt library id name arguments raw span expected scope overload))
    (hcollect : Attempt.collect
      (Expr.attempt library id name arguments raw span expected scope) (library.find name)
        = .error e) :
    Settled library source (.call id name arguments raw span) expected scope (.error e) := by
  obtain ⟨hrefusal, overload, hmem, hattempt⟩ := Attempt.collect_eq_error hcollect
  have hsettled := hattempts overload hmem
  rw [hattempt] at hsettled
  obtain ⟨hyes, -, -⟩ | ⟨hdecode, hstumble⟩ := hsettled
  · rw [hrefusal] at hyes
    cases hyes
  · exact .inr ⟨hdecode, stumbles_call_iff.2 (.inl ⟨overload, hmem, hstumble⟩)⟩

/-- When every attempt was refused, so is the call. -/
theorem settled_refuse (hfind : library.find name ≠ [])
    (h : Tried library source id name arguments raw span expected scope)
    (hempty : Expr.fitting library id name arguments raw span expected scope = [])
    (signatures : String) :
    Settled library source (.call id name arguments raw span) expected scope
      ((Expr.call id name arguments raw span).refuse signatures) := by
  have hnone (assignment : Assignment) :
      ¬ Fits library source (.call id name arguments raw span) expected assignment := by
    intro hfits
    cases assignment with
    | leaf typing => cases hfits
    | call selection children =>
      obtain ⟨attempt, hattempt, -⟩ := h.exists_le hfits
      have habsent := List.filterMap_eq_nil_iff.1 hempty _ hfits.overload_mem
      rw [hattempt] at habsent
      cases habsent
  obtain ⟨e, hrefuse, hordinary, hdisplay⟩ | ⟨d, hrefuse, hdisplay⟩ :=
    Expr.refuse_eq (α := Nat × Scope) (.call id name arguments raw span) signatures
  · rw [hrefuse]
    refine .inl ⟨hordinary, ?_, hnone⟩
    rw [stumbles_call_iff]
    rintro (hsome | ⟨-, -, d, hd⟩)
    · exact h.not_stumblesAt hsome
    · exact hdisplay d hd
  · rw [hrefuse]
    exact .inr ⟨⟨d, rfl⟩, stumbles_call_iff.2 (.inr ⟨hfind, hnone, d, hdisplay⟩)⟩

/-- The call goes on record beside its arguments. -/
theorem recorded_call {best : Attempt} {children : List Assignment}
    (hid : id ∉ raw.id :: Expr.idsAll arguments)
    (hrecorded : if best.overload.signature.isRaw then
        ∃ cost, best.scope.metadata.leaves.find? raw.id = some { target := .raw, cost }
      else RecordedAll best.scope.metadata arguments children) :
    Recorded (best.scope.metadata.recordCall id
        ⟨best.overload, expected.getD best.overload.signature.output, best.cost⟩)
      (.call id name arguments raw span)
      (.call ⟨best.overload, expected.getD best.overload.signature.output, best.cost⟩
        children) := by
  rw [Recorded]
  refine ⟨Table.find?_insert_self _ _ _, ?_⟩
  split
  · next hraw =>
    rw [if_pos hraw] at hrecorded
    exact hrecorded
  · next hraw =>
    rw [if_neg hraw] at hrecorded
    have hdisjoint : (Expr.idsAll arguments).Disjoint [id] :=
      List.disjoint_singleton.2 (List.not_mem_of_not_mem_cons hid)
    exact hrecorded.of_sameOutside (best.scope.metadata.sameOutside_recordCall id _) hdisjoint

/-- The preferred attempt goes on record. -/
theorem settled_record (hid : id ∉ raw.id :: Expr.idsAll arguments)
    (h : Tried library source id name arguments raw span expected scope) {best : Attempt}
    {before after : List Attempt}
    (hsplit :
      Expr.fitting library id name arguments raw span expected scope = before ++ best :: after)
    (hbefore : ∀ other ∈ before, best.rank < other.rank)
    (hafter : ∀ other ∈ after, best.rank ≤ other.rank) :
    Settled library source (.call id name arguments raw span) expected scope
      (.ok (best.cost, { best.scope with
        metadata := best.scope.metadata.recordCall id
          ⟨best.overload, expected.getD best.overload.signature.output, best.cost⟩ })) := by
  have hlisted : best ∈ Expr.fitting library id name arguments raw span expected scope :=
    hsplit ▸ List.mem_append_right before List.mem_cons_self
  obtain ⟨overload, hmem, hbest⟩ := List.mem_filterMap.1 hlisted
  have hsettled := h.settled overload hmem
  rw [Outcome.toOption_eq_some.1 hbest] at hsettled
  obtain ⟨rfl, hsame, -, -, children, hfits, hrecorded⟩ := hsettled
  have hrecord := best.scope.sameOutside_recordCall id
    ⟨best.overload, expected.getD best.overload.signature.output, best.cost⟩
  refine ⟨?_, ?_, _, best_of_preferred h hsplit hbefore hafter hfits, recorded_call hid hrecorded,
    rfl, fun hfresh => ?_⟩
  · exact (hsame.mono (by simp [Expr.ids])).trans (hrecord.mono (by simp [Expr.ids]))
  · rw [stumbles_call_iff]
    rintro (hsome | ⟨-, hnone, -⟩)
    · exact h.not_stumblesAt hsome
    · exact hnone _ hfits
  · have hleaf : best.scope.metadata.leaves.find? id = none := by
      rw [hsame.metadata.leaves id hid]
      exact hfresh
    rw [Metadata.target?, Metadata.recordCall, Expr.id, hleaf, Table.find?_insert_self]
    rfl

/-- The choice between the attempts settles the call. -/
theorem settled_call (hid : id ∉ raw.id :: Expr.idsAll arguments)
    (hattempts : ∀ overload ∈ library.find name,
      AttemptSettled library source id name arguments raw span expected scope overload
        (Expr.attempt library id name arguments raw span expected scope overload)) :
    Settled library source (.call id name arguments raw span) expected scope
      (Expr.resolve library (.call id name arguments raw span) expected scope) := by
  rw [Expr.resolve_call]
  by_cases hfind : library.find name = []
  · rw [if_pos (by rw [hfind]; rfl)]
    exact settled_undefined hfind
  rw [if_neg (by simpa using hfind)]
  cases hcollect : Attempt.collect
      (Expr.attempt library id name arguments raw span expected scope) (library.find name) with
  | error e => exact settled_stumbled hattempts hcollect
  | ok attempts =>
    obtain ⟨hrefused, rfl⟩ := Attempt.collect_eq_ok hcollect
    have htried : Tried library source id name arguments raw span expected scope :=
      ⟨hattempts, hrefused⟩
    rw [Outcome.ok_bind, ← Expr.fitting]
    cases hpreferred :
        Attempt.best? (Expr.fitting library id name arguments raw span expected scope) with
    | none => exact settled_refuse hfind htried (Attempt.best?_eq_none_iff.1 hpreferred) _
    | some best =>
      obtain ⟨before, after, hsplit, hbefore, hafter⟩ := Attempt.best?_eq_some hpreferred
      exact settled_record hid htried hsplit hbefore hafter

end

end AliasExpansion
