-- SUMMARY: Loops expand to the product of their values, in order, or not at all.
import AliasExpansion.Expansion
import AliasExpansion.Proofs.Outcome
import Mathlib.Algebra.BigOperators.Group.List.Basic

/-!
# The product of the loops

A loop value fits a pattern when both have the same tuple shape at every depth; then the leaves of
the pattern are paired with the leaves of the value, from left to right. An invocation has one
combination for each number below the product of the numbers of values. The digits of that number,
with one radix for each loop, say which values the combination takes.
-/

namespace AliasExpansion

-- ---------------------------------------------------------------------------
-- Shapes and leaves
-- ---------------------------------------------------------------------------

namespace LoopPattern

mutual

/-- The value has the tuple shape of the pattern. -/
def Fits : LoopPattern → LoopValue → Prop
  | .name _ _, .expr _ => True
  | .tuple patterns _, .tuple values _ => FitsAll patterns values
  | _, _ => False

def FitsAll : List LoopPattern → List LoopValue → Prop
  | [], [] => True
  | pattern :: patterns, value :: values => Fits pattern value ∧ FitsAll patterns values
  | _, _ => False

end

mutual

/-- The names in a pattern, from left to right. -/
def leaves : LoopPattern → List (String × Span)
  | .name text span => [(text, span)]
  | .tuple patterns _ => leavesAll patterns

def leavesAll : List LoopPattern → List (String × Span)
  | [] => []
  | pattern :: patterns => leaves pattern ++ leavesAll patterns

end

end LoopPattern

namespace LoopValue

mutual

/-- The expressions in a value, from left to right. -/
def leaves : LoopValue → List Expr
  | .expr e => [e]
  | .tuple values _ => leavesAll values

def leavesAll : List LoopValue → List Expr
  | [] => []
  | value :: values => leaves value ++ leavesAll values

end

end LoopValue

namespace LoopPattern

def pair (names : List (String × Span)) (exprs : List Expr) : List Binding :=
  names.zipWith (fun leaf expr => { name := leaf.1, span := leaf.2, expr }) exprs

/-- The bindings of the leaves of a pattern to the leaves of a value. -/
def pairings (pattern : LoopPattern) (value : LoopValue) : List Binding :=
  pair pattern.leaves value.leaves

mutual

theorem Fits.length_leaves : ∀ {pattern : LoopPattern} {value : LoopValue}, pattern.Fits value →
    pattern.leaves.length = value.leaves.length
  | .name _ _, .expr _, _ => rfl
  | .tuple _ _, .tuple _ _, h => FitsAll.length_leaves h

theorem FitsAll.length_leaves : ∀ {patterns : List LoopPattern} {values : List LoopValue},
    FitsAll patterns values → (leavesAll patterns).length = (LoopValue.leavesAll values).length
  | [], [], _ => rfl
  | _ :: _, _ :: _, h => by
    simp [leavesAll, LoopValue.leavesAll, Fits.length_leaves h.1, FitsAll.length_leaves h.2]

end

theorem Fits.isTuple_eq {pattern : LoopPattern} {value : LoopValue} (h : pattern.Fits value) :
    pattern.isTuple = value.isTuple := by
  cases pattern <;> cases value <;> simp_all [Fits, isTuple, LoopValue.isTuple]

theorem FitsAll.length_eq : ∀ {patterns : List LoopPattern} {values : List LoopValue},
    FitsAll patterns values → patterns.length = values.length
  | [], [], _ => rfl
  | _ :: _, _ :: _, h => by simp [FitsAll.length_eq h.2]

theorem pair_append {names names' : List (String × Span)} {exprs exprs' : List Expr}
    (h : names.length = exprs.length) :
    pair (names ++ names') (exprs ++ exprs') = pair names exprs ++ pair names' exprs' := by
  unfold pair
  exact List.zipWith_append h

mutual

/-- Taking a value apart succeeds exactly when it fits, and pairs the leaves. -/
theorem bind_eq_ok : ∀ (pattern : LoopPattern) (value : LoopValue) (bindings : List Binding),
    bind pattern value = .ok bindings ↔ pattern.Fits value ∧ bindings = pattern.pairings value
  | .name text span, .expr e, bindings => by
    simp [bind, Fits, pairings, pair, leaves, LoopValue.leaves, eq_comm]
  | .tuple patterns _, .tuple values _, bindings => by
    simp only [bind, Fits, pairings, leaves, LoopValue.leaves]
    split
    · next same => exact bindAll_eq_ok patterns values bindings same
    · next other =>
      simp only [reduceCtorEq, false_iff, not_and]
      intro h
      exact absurd h.length_eq other
  | .name .., .tuple .., _ => by simp [bind, Fits]
  | .tuple .., .expr _, _ => by simp [bind, Fits]

theorem bindAll_eq_ok : ∀ (patterns : List LoopPattern) (values : List LoopValue)
    (bindings : List Binding), patterns.length = values.length →
      (bindAll patterns values = .ok bindings ↔ FitsAll patterns values
        ∧ bindings = pair (leavesAll patterns) (LoopValue.leavesAll values))
  | [], [], bindings, _ => by
    simp [bindAll, FitsAll, pair, leavesAll, eq_comm]
  | pattern :: patterns, value :: values, bindings, same => by
    simp only [bindAll, FitsAll, leavesAll, LoopValue.leavesAll]
    split
    · simp only [Outcome.bind_eq_ok, Outcome.pure_eq_ok, Except.ok.injEq,
        bind_eq_ok pattern value, bindAll_eq_ok patterns values _ (Nat.succ.inj same)]
      constructor
      · rintro ⟨_, ⟨first, rfl⟩, _, ⟨rest, rfl⟩, rfl⟩
        exact ⟨⟨first, rest⟩, (pair_append first.length_leaves).symm⟩
      · rintro ⟨⟨first, rest⟩, rfl⟩
        exact ⟨_, ⟨first, rfl⟩, _, ⟨rest, rfl⟩, (pair_append first.length_leaves).symm⟩
    · next other =>
      simp only [reduceCtorEq, false_iff, not_and]
      intro h
      exact absurd h.1.isTuple_eq other

end

end LoopPattern

-- ---------------------------------------------------------------------------
-- Selections
-- ---------------------------------------------------------------------------

/-- The digits of a number, one for each radix, the last one counting units. -/
def digits : List Nat → Nat → List Nat
  | [], _ => []
  | _ :: radices, i => i / radices.prod :: digits radices (i % radices.prod)

section

variable {α β : Type}

theorem length_selections (lists : List (List α)) :
    (selections lists).length = (lists.map List.length).prod := by
  induction lists with
  | nil => rfl
  | cons choices rest ih =>
    simp only [selections, List.length_flatMap, List.length_map, List.map_const',
      List.sum_replicate_nat, ih, List.map_cons, List.prod_cons]

/-- In a concatenation of lists of one length, a place is found by division. -/
theorem getElem?_flatMap_of_length {f : α → List β} {n : Nat} (h : ∀ a, (f a).length = n)
    (pos : 0 < n) (items : List α) (i : Nat) :
    (items.flatMap f)[i]? = items[i / n]?.bind fun a => (f a)[i % n]? := by
  induction items generalizing i with
  | nil => simp
  | cons a items ih =>
    rw [List.flatMap_cons]
    by_cases lt : i < n
    · simp [List.getElem?_append_left (h a ▸ lt), Nat.div_eq_of_lt lt, Nat.mod_eq_of_lt lt]
    · have le : n ≤ i := Nat.le_of_not_lt lt
      rw [List.getElem?_append_right (h a ▸ le), h a, ih, Nat.div_eq_sub_div pos le,
        Nat.mod_eq_sub_mod le, List.getElem?_cons_succ]

/-- The selections are numbered by their digits. -/
theorem getElem?_selections (lists : List (List α)) (i : Nat)
    (lt : i < (lists.map List.length).prod) :
    ∃ values, (selections lists)[i]? = some values
      ∧ values.map some = (lists.zip (digits (lists.map List.length) i)).map fun p => p.1[p.2]? := by
  induction lists generalizing i with
  | nil => exact ⟨[], by simp at lt; simp [selections, lt], rfl⟩
  | cons choices rest ih =>
    simp only [List.map_cons, List.prod_cons] at lt
    have pos : 0 < (rest.map List.length).prod := Nat.pos_of_lt_mul_left lt
    obtain ⟨values, hvalues, same⟩ := ih (i % (rest.map List.length).prod) (Nat.mod_lt _ pos)
    have inside : i / (rest.map List.length).prod < choices.length :=
      (Nat.div_lt_iff_lt_mul pos).mpr lt
    refine ⟨choices[i / (rest.map List.length).prod] :: values, ?_, ?_⟩
    · rw [selections, getElem?_flatMap_of_length (by simp [length_selections]) pos]
      simp [hvalues, List.getElem?_eq_getElem inside]
    · simp [digits, same, List.getElem?_eq_getElem inside]

example : digits [2, 3, 2] 7 = [1, 0, 1] := rfl

theorem selections_eq_nil {lists : List (List α)} : selections lists = [] ↔ [] ∈ lists := by
  induction lists with
  | nil => simp [selections]
  | cons choices rest ih =>
    cases choices with
    | nil => simp [selections]
    | cons choice choices => simp +contextual [selections, ih]

/-- Something holds of all that is ever selected when it holds of every choice, or when there is
    nothing to choose from somewhere. -/
theorem forall_selections {α : Type} (choices : α → List β) (P : α → β → Prop) (items : List α) :
    (∀ values ∈ selections (items.map choices), ∀ pair ∈ items.zip values, P pair.1 pair.2) ↔
      [] ∈ items.map choices ∨ ∀ item ∈ items, ∀ value ∈ choices item, P item value := by
  induction items with
  | nil => simp [selections]
  | cons item items ih =>
    by_cases empty : [] ∈ (item :: items).map choices
    · rw [selections_eq_nil.mpr empty]
      simp only [empty, true_or, iff_true]
      nofun
    · have first : choices item ≠ [] := fun h => empty (by simp [h])
      have rest : [] ∉ items.map choices := fun h => empty (List.mem_cons_of_mem _ h)
      obtain ⟨value, hvalue⟩ := List.exists_mem_of_ne_nil _ first
      obtain ⟨values, hvalues⟩ := List.exists_mem_of_ne_nil _ (mt selections_eq_nil.mp rest)
      simp only [empty, rest, false_or] at ih ⊢
      constructor
      · intro h
        refine List.forall_mem_cons.mpr ⟨fun other hother => ?_, ih.mp fun others hothers => ?_⟩
        · exact h (other :: values) (by simp [selections, hother, hvalues]) (item, other) (by simp)
        · intro pair hpair
          exact h (value :: others) (by simp [selections, hvalue, hothers]) pair (by simp [hpair])
      · intro h values hvalues
        simp only [List.map_cons, selections, List.mem_flatMap, List.mem_map] at hvalues
        obtain ⟨other, hother, others, hothers, rfl⟩ := hvalues
        rw [List.zip_cons_cons]
        refine List.forall_mem_cons.mpr ⟨h item List.mem_cons_self other hother, ?_⟩
        exact ih.mpr (fun item hitem => h item (List.mem_cons_of_mem _ hitem)) others hothers

end

-- ---------------------------------------------------------------------------
-- Combinations
-- ---------------------------------------------------------------------------

/-- The bindings that loops make from one value of each. -/
def Loop.pairings (loops : List Loop) (values : List LoopValue) : List Binding :=
  (loops.zip values).flatMap fun p => p.1.pattern.pairings p.2

namespace Invocation

/-- How many values each loop has. -/
def radices (invocation : Invocation) : List Nat :=
  invocation.loops.map (·.values.length)

/-- Every value of every loop has the shape of the loop's pattern. -/
def Shaped (invocation : Invocation) : Prop :=
  ∀ loop ∈ invocation.loops, ∀ value ∈ loop.values, loop.pattern.Fits value

/-- The combination that takes the given values. -/
def combine (invocation : Invocation) (values : List LoopValue) : Combination where
  bindings := Loop.pairings invocation.loops values ++ invocation.bindings
  block := invocation.block

theorem bindSelection_eq_ok {loops : List Loop} {values : List LoopValue}
    {bindings : List Binding} :
    bindSelection loops values = .ok bindings ↔
      (∀ p ∈ loops.zip values, p.1.pattern.Fits p.2) ∧ bindings = Loop.pairings loops values := by
  simp only [bindSelection, Outcome.bind_eq_ok, Outcome.pure_eq_ok, Except.ok.injEq,
    Outcome.mapM_eq_ok_of fun p : Loop × LoopValue => LoopPattern.bind_eq_ok p.1.pattern p.2]
  constructor
  · rintro ⟨_, ⟨fits, rfl⟩, rfl⟩
    exact ⟨fits, rfl⟩
  · rintro ⟨fits, rfl⟩
    exact ⟨_, ⟨fits, rfl⟩, rfl⟩

variable {invocation : Invocation}

theorem combinations_eq_ok {combinations : List Combination} :
    invocation.combinations = .ok combinations ↔ (0 ∈ invocation.radices ∨ invocation.Shaped)
      ∧ combinations = (selections (invocation.loops.map Loop.values)).map invocation.combine := by
  have one : ∀ values combination,
      (do
        let bindings ← bindSelection invocation.loops values
        return { bindings := bindings ++ invocation.bindings, block := invocation.block } :
        Except Error Combination) = .ok combination ↔
      (∀ p ∈ invocation.loops.zip values, p.1.pattern.Fits p.2)
        ∧ combination = invocation.combine values := by
    intro values combination
    simp only [Outcome.bind_eq_ok, Outcome.pure_eq_ok, Except.ok.injEq, bindSelection_eq_ok]
    constructor
    · rintro ⟨_, ⟨fits, rfl⟩, rfl⟩
      exact ⟨fits, rfl⟩
    · rintro ⟨fits, rfl⟩
      exact ⟨_, ⟨fits, rfl⟩, rfl⟩
  rw [Invocation.combinations, Outcome.mapM_eq_ok_of one,
    forall_selections Loop.values (fun loop value => loop.pattern.Fits value)]
  simp [radices, Shaped]

/-- The combination with number `i` takes the values that the digits of `i` select. -/
theorem getElem?_combinations {combinations : List Combination}
    (h : invocation.combinations = .ok combinations) {i : Nat} (lt : i < invocation.radices.prod) :
    ∃ values, values.map some
        = (invocation.loops.zip (digits invocation.radices i)).map (fun p => p.1.values[p.2]?)
      ∧ combinations[i]? = some (invocation.combine values) := by
  have radices_eq : (invocation.loops.map Loop.values).map List.length = invocation.radices := by
    simp [radices]
  obtain ⟨-, rfl⟩ := combinations_eq_ok.mp h
  obtain ⟨values, hvalues, same⟩ := getElem?_selections (invocation.loops.map Loop.values) i
    (by rwa [radices_eq])
  refine ⟨values, ?_, by simp [hvalues]⟩
  simpa [radices_eq, List.zip_map_left, Function.comp_def] using same

theorem length_combinations {combinations : List Combination}
    (h : invocation.combinations = .ok combinations) :
    combinations.length = invocation.radices.prod := by
  obtain ⟨-, rfl⟩ := combinations_eq_ok.mp h
  simp [length_selections, radices, Function.comp_def]

-- ---------------------------------------------------------------------------
-- Execution
-- ---------------------------------------------------------------------------

variable {library : Library} {key : String} {finish : List Token → List Token}

theorem execute_of_combinations {combinations : List Combination}
    (h : invocation.combinations = .ok combinations) :
    invocation.execute library key finish =
      (List.flatMap finish) <$> combinations.mapM (Combination.execute library key) := by
  unfold execute
  rw [h, Outcome.ok_bind]
  simp only [bind_pure_comp, Outcome.mapM_map, Functor.map_map, ← List.flatMap_def]

/-- An invocation has combinations exactly when some loop has no values or all values fit their
    patterns. Then there is one for each choice of values, the last loop varying fastest, and its
    bindings are those of the leaves, loop by loop, and after them those of the invocation. The
    code is that of the combinations, each executed by itself, or the first error among them. -/
theorem product_of_loops (library : Library) (key : String) (finish : List Token → List Token)
    (invocation : Invocation) :
    ((∃ combinations, invocation.combinations = .ok combinations) ↔
        0 ∈ invocation.radices ∨ invocation.Shaped)
      ∧ ∀ combinations, invocation.combinations = .ok combinations →
        combinations.length = invocation.radices.prod
        ∧ (∀ i < invocation.radices.prod, ∃ values : List LoopValue,
            values.map some
                = (invocation.loops.zip (digits invocation.radices i)).map
                    (fun p => p.1.values[p.2]?)
              ∧ combinations[i]? = some
                  { bindings := (invocation.loops.zip values).flatMap
                        (fun p => p.1.pattern.pairings p.2) ++ invocation.bindings
                    block := invocation.block })
        ∧ (∀ code, invocation.execute library key finish = .ok code ↔
            ∃ blocks, List.Forall₂ (fun combination block =>
                combination.execute library key = .ok block) combinations blocks
              ∧ code = blocks.flatMap finish)
        ∧ ∀ e, invocation.execute library key finish = .error e ↔
            ∃ before combination after, combinations = before ++ combination :: after
              ∧ (∀ earlier ∈ before, ∃ block, earlier.execute library key = .ok block)
              ∧ combination.execute library key = .error e := by
  constructor
  · constructor
    · rintro ⟨combinations, h⟩
      exact (combinations_eq_ok.mp h).1
    · intro shaped
      exact ⟨_, combinations_eq_ok.mpr ⟨shaped, rfl⟩⟩
  · intro combinations h
    refine ⟨length_combinations h, fun i lt => getElem?_combinations h lt, ?_, ?_⟩
    · intro code
      rw [execute_of_combinations h, Outcome.map_eq_ok]
      simp only [Outcome.mapM_eq_ok, eq_comm (a := code)]
    · intro e
      rw [execute_of_combinations h, Outcome.map_eq_error]
      exact Outcome.mapM_eq_error

/-- Two loops, one of them over a pair, have four combinations. -/
theorem product_of_loops_pairs : ∃ invocation state combinations,
    Invocation.ofSource "for x in [a, b] for (y, z) in [(c, 1), (d, 2)] \x7b x(y, z) \x7d" 0
        = .ok (invocation, state)
      ∧ invocation.radices = [2, 2]
      ∧ invocation.combinations = .ok combinations ∧ combinations.length = 4 := by
  have hsome : ((Invocation.ofSource
      "for x in [a, b] for (y, z) in [(c, 1), (d, 2)] \x7b x(y, z) \x7d" 0).toOption.bind
        fun result => if result.1.radices = [2, 2] then result.1.combinations.toOption
          else none).isSome = true := by
    decide +kernel
  obtain ⟨combinations, hcombinations⟩ := Option.isSome_iff_exists.1 hsome
  obtain ⟨⟨invocation, state⟩, hread, hcombinations⟩ := Option.bind_eq_some_iff.1 hcombinations
  split at hcombinations
  · next hradices =>
    rw [Outcome.toOption_eq_some] at hread hcombinations
    refine ⟨invocation, state, combinations, hread, hradices, hcombinations, ?_⟩
    have hproduct := ((product_of_loops .builtin "key" id invocation).2 _ hcombinations).1
    have hradices : invocation.radices = [2, 2] := hradices
    rw [hproduct, hradices]
    rfl
  · cases hcombinations

end Invocation

end AliasExpansion
