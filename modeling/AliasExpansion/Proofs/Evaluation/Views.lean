-- SUMMARY: Bindings, evaluation and substitution see of their tables only what is found in them.
import AliasExpansion.Expansion
import AliasExpansion.Proofs.Resolution.Records
import AliasExpansion.Proofs.Resolution.Views

/-!
# Expansions that come to the same

Evaluation looks at an environment only through the names of an expression, and substitution looks
at a table of values only by looking names up in it. So combinations whose bindings differ at most
in places, resolved and evaluated in tables that show the same, come to the same code or to the same
failure (`Combination.execute_alike`). Of the functions it is needed that they use the place of a
call for nothing but their errors; the built-in ones do (`Library.placeFree_builtin`).
-/

namespace AliasExpansion

open Outcome

-- ---------------------------------------------------------------------------
-- Bindings
-- ---------------------------------------------------------------------------

/-- The bindings are the same, except that a call may stand at another place. -/
structure Binding.Alike (binding binding' : Binding) : Prop where
  name : binding.name = binding'.name
  expr : binding.expr.Alike binding'.expr

theorem Binding.Alike.refl (binding : Binding) : binding.Alike binding :=
  ⟨rfl, .refl _⟩

theorem Binding.forall₂_refl (bindings : List Binding) :
    List.Forall₂ Binding.Alike bindings bindings :=
  List.forall₂_same.mpr fun binding _ => .refl binding

/-- Aliases stand for the same nodes, and the same is on record for all nodes. -/
structure Scope.Alike (scope scope' : Scope) : Prop where
  nodes : ∀ name,
    (scope.aliases.find? name).map Expr.id = (scope'.aliases.find? name).map Expr.id
  records : ∀ id, scope.metadata.AgreeAt scope'.metadata id

namespace Scope

variable {scope scope' : Scope}

theorem Alike.refl (scope : Scope) : scope.Alike scope :=
  ⟨fun _ => rfl, fun _ => ⟨rfl, rfl⟩⟩

theorem Alike.showSame (h : scope.Alike scope') (name : String) : scope.ShowSame scope' name :=
  ⟨h.nodes name, fun id _ => h.records id⟩

theorem Alike.declare (h : scope.Alike scope') (name : String) {expr expr' : Expr}
    (same : expr.Alike expr') (span span' : Option Span) :
    Outcome.Alike Scope.Alike (scope.declare name expr span) (scope'.declare name expr' span') := by
  have taken : scope.aliases.contains name = scope'.aliases.contains name := by
    rw [Table.contains, Table.contains, ← Option.isSome_map (f := Expr.id), h.nodes name,
      Option.isSome_map]
  rw [Scope.declare, Scope.declare, taken]
  split
  · exact .error rfl
  · refine .ok ⟨fun other => ?_, h.records⟩
    simp only [Table.find?_insert, apply_ite (Option.map Expr.id), Option.map_some, same.id_eq,
      h.nodes other]

end Scope

theorem Binding.Alike.resolve (library : Library) {binding binding' : Binding}
    (h : binding.Alike binding') {scope scope' : Scope} (same : scope.Alike scope') :
    Outcome.Alike Scope.Alike (binding.resolve library scope)
      (binding'.resolve library scope') := by
  have resolved := Expr.resolve_alike library h.expr none fun name _ => same.showSame name
  refine resolved.bind fun result result' related => ?_
  obtain ⟨cost, after⟩ := result
  obtain ⟨cost', after'⟩ := result'
  obtain ⟨-, histories⟩ := related
  have after_alike : after.Alike after' := by
    refine ⟨fun name => ?_, fun id => histories.agree id (same.records id)⟩
    rw [histories.left, histories.right, same.nodes name]
  dsimp only
  rw [← h.name]
  exact after_alike.declare _ h.expr _ _

/-- Bindings that are alike are resolved alike, one after the other. -/
theorem Scope.resolveAll_alike (library : Library) {bindings bindings' : List Binding}
    (h : List.Forall₂ Binding.Alike bindings bindings') {scope scope' : Scope}
    (same : scope.Alike scope') :
    Outcome.Alike Scope.Alike (scope.resolveAll library bindings)
      (scope'.resolveAll library bindings') :=
  Alike.foldlM h (fun same first => first.resolve library same) same

-- ---------------------------------------------------------------------------
-- Evaluation
-- ---------------------------------------------------------------------------

section

variable {key : String} {metadata metadata' : Metadata} {environment environment' : Environment}

theorem Environment.deref_congr {value : Value}
    (shown : ∀ name ∈ value.name?, environment.find? name = environment'.find? name) :
    environment.deref value = environment'.deref value := by
  rw [deref, deref]
  cases named : value.name? with
  | none => rfl
  | some name => simp only [shown name named]

theorem Leaf.evaluate_congr {leaf : Leaf} (records : ∀ id, metadata.AgreeAt metadata' id)
    (shown : ∀ name ∈ leaf.value.name?, environment.find? name = environment'.find? name) :
    leaf.evaluate metadata environment = leaf.evaluate metadata' environment' := by
  rw [Leaf.evaluate, Leaf.evaluate, (records leaf.id).1, Environment.deref_congr shown]

namespace Expr

mutual

/-- Evaluation looks only at the records and at the values of the names of an expression. -/
theorem evaluate_congr (records : ∀ id, metadata.AgreeAt metadata' id) : ∀ {expr : Expr},
    (∀ name ∈ expr.names, environment.find? name = environment'.find? name) →
      expr.evaluate key metadata environment = expr.evaluate key metadata' environment'
  | .leaf node, shown => by
    rw [evaluate, evaluate]
    exact Leaf.evaluate_congr records fun name mem =>
      shown name (by rw [names]; exact Option.mem_toList.mpr mem)
  | .call id name arguments raw span, shown => by
    rw [names, List.forall_mem_append] at shown
    have rawSame : raw.evaluate metadata environment = raw.evaluate metadata' environment' :=
      Leaf.evaluate_congr records fun name mem => shown.1 name (Option.mem_toList.mpr mem)
    rw [evaluate, evaluate, (records id).2, rawSame, evaluateAll_congr records shown.2]

theorem evaluateAll_congr (records : ∀ id, metadata.AgreeAt metadata' id) :
    ∀ {arguments : List Expr},
    (∀ name ∈ namesAll arguments, environment.find? name = environment'.find? name) →
      evaluateAll key metadata environment arguments
        = evaluateAll key metadata' environment' arguments
  | [], _ => by rw [evaluateAll, evaluateAll]
  | argument :: arguments, shown => by
    rw [namesAll, List.forall_mem_append] at shown
    rw [evaluateAll, evaluateAll, evaluate_congr records shown.1, evaluateAll_congr records shown.2]

end

end Expr

end

-- ---------------------------------------------------------------------------
-- Places of calls
-- ---------------------------------------------------------------------------

/-- The overload uses the place of a call for its errors only. -/
def Overload.PlaceFree (overload : Overload) : Prop :=
  ∀ key span span' values,
    Outcome.Alike Eq (overload.compute key span values) (overload.compute key span' values)

def Library.PlaceFree (library : Library) : Prop :=
  ∀ overload ∈ library.overloads, overload.PlaceFree

namespace Library

theorem alike_onFirst {f : String → Option Span → Value → Except Error Value}
    (h : ∀ key span span' value, Outcome.Alike Eq (f key span value) (f key span' value))
    (key : String) (span span' : Option Span) (values : List Value) :
    Outcome.Alike Eq (onFirst f key span values) (onFirst f key span' values) := by
  cases values with
  | nil => exact .error rfl
  | cons value values => exact h key span span' value

theorem alike_identifier (text : String) (fault : String → EvaluationFault)
    (span span' : Option Span) :
    Outcome.Alike Eq (identifier text fault span) (identifier text fault span') := by
  rw [identifier, identifier]
  split
  · exact .ok rfl
  · exact .error rfl

theorem placeFree_textFunction (name : String) (transform : List Char → List Char) :
    ∀ overload ∈ textFunction name transform, overload.PlaceFree := by
  simp only [textFunction, List.forall_mem_cons, List.not_mem_nil, false_implies, implies_true,
    and_true]
  constructor
  · exact alike_onFirst fun _ _ _ _ => .of_eq
  · exact alike_onFirst fun _ span span' value =>
      Alike.of_eq.bind_same fun text => alike_identifier _ _ span span'

theorem placeFree_normalizeFunctions : ∀ overload ∈ normalizeFunctions, overload.PlaceFree := by
  simp only [normalizeFunctions, List.forall_mem_cons, List.not_mem_nil, false_implies,
    implies_true, and_true]
  exact ⟨alike_onFirst fun _ _ _ _ => .of_eq, alike_onFirst fun _ _ _ _ => .of_eq,
    alike_onFirst fun _ _ _ _ => .of_eq⟩

theorem placeFree_hashFunctions : ∀ overload ∈ hashFunctions, overload.PlaceFree := by
  simp only [hashFunctions, hashIdentifier, List.forall_mem_cons, List.not_mem_nil, false_implies,
    implies_true, and_true]
  exact ⟨alike_onFirst fun _ _ _ _ => .of_eq, alike_onFirst fun _ _ _ _ => .of_eq,
    alike_onFirst fun _ _ _ _ => .of_eq⟩

theorem placeFree_concatFunctions : ∀ overload ∈ concatFunctions, overload.PlaceFree := by
  simp only [concatFunctions, List.forall_mem_cons, List.not_mem_nil, false_implies, implies_true,
    and_true]
  refine ⟨fun _ span span' _ => ?_, fun _ span span' _ => ?_, fun _ _ _ _ => .of_eq,
    fun _ _ _ _ => .of_eq, fun _ _ _ _ => .of_eq⟩
  · exact Alike.of_eq.bind_same fun texts => alike_identifier _ _ span span'
  · exact Alike.of_eq.bind_same fun texts => alike_identifier _ _ span span'

theorem placeFree_castFunction (target : ValueType) : (castFunction target).PlaceFree :=
  alike_onFirst fun _ _ _ _ => .of_eq

theorem placeFree_tokensFunctions : ∀ overload ∈ tokensFunctions, overload.PlaceFree := by
  simp only [tokensFunctions, List.forall_mem_cons, List.not_mem_nil, false_implies, implies_true,
    and_true]
  exact ⟨alike_onFirst fun _ _ _ _ => .of_eq, alike_onFirst fun _ _ _ _ => .of_eq⟩

/-- The built-in functions use the place of a call for their errors only. -/
theorem placeFree_builtin : PlaceFree builtin :=
  forall_builtin placeFree_textFunction placeFree_normalizeFunctions placeFree_hashFunctions
    placeFree_concatFunctions placeFree_castFunction placeFree_tokensFunctions

end Library

section

variable {library : Library} {key : String} {metadata metadata' : Metadata}
  {environment environment' : Environment}

theorem Value.castResolved_alike (value : Value) (target : ValueType) (span span' : Span) :
    Outcome.Alike Eq (value.castResolved target span) (value.castResolved target span') := by
  unfold castResolved
  split
  · exact Alike.of_eq.bind_same fun text => .error rfl
  · exact .of_eq

theorem Leaf.evaluate_alike (leaf : Leaf) (span : Span) :
    Outcome.Alike Eq (leaf.evaluate metadata environment)
      (({ leaf with span } : Leaf).evaluate metadata environment) := by
  unfold Leaf.evaluate
  dsimp only
  cases metadata.leaves.find? leaf.id with
  | some typing => exact Value.castResolved_alike _ _ _ _
  | none => exact Alike.of_eq.bind_same fun text => .error rfl

/-- An expression at another place has the same value. -/
theorem Expr.Alike.evaluate_placed (placeFree : library.PlaceFree)
    (chosen : metadata.ChosenFrom library) {expr expr' : Expr} (h : expr.Alike expr') :
    Outcome.Alike Eq (expr.evaluate key metadata environment)
      (expr'.evaluate key metadata environment) := by
  cases h with
  | leaf node => exact .of_eq
  | call id name arguments raw span listSpan callSpan =>
    rw [Expr.evaluate, Expr.evaluate]
    cases found : metadata.calls.find? id with
    | none =>
      have display := (Expr.Alike.call id name arguments raw span listSpan callSpan).display
      dsimp only
      rw [display]
      exact Alike.of_eq.bind_same fun text => .error rfl
    | some selection =>
      have compute (values : List Value) : Outcome.Alike Eq
          (do
            let result ← selection.overload.compute key (some span) values
            result.castResolved selection.target span)
          (do
            let result ← selection.overload.compute key (some callSpan) values
            result.castResolved selection.target callSpan) := by
        refine (placeFree _ (chosen id selection found) _ _ _ _).bind_same fun result => ?_
        exact Value.castResolved_alike _ _ _ _
      dsimp only
      split
      · exact (raw.evaluate_alike listSpan).bind_same fun value => compute [value]
      · exact Alike.of_eq.bind_same compute

/-- Bindings of one name whose expressions have the same value lead to environments in which the
    same is found. -/
theorem Binding.evaluate_related {binding binding' : Binding} (name : binding.name = binding'.name)
    (values : Outcome.Alike Eq (binding.expr.evaluate key metadata environment)
      (binding'.expr.evaluate key metadata' environment'))
    (found : environment.find? = environment'.find?) :
    Outcome.Alike (fun after after' : Environment => after.find? = after'.find?)
      (binding.evaluate key metadata environment)
      (binding'.evaluate key metadata' environment') := by
  have inserted (value : Value) : (environment.insert binding.name value).find?
      = (environment'.insert binding'.name value).find? := by
    funext other
    simp only [Table.find?_insert, name, found]
  unfold Binding.evaluate
  refine values.bind_same fun value => ?_
  split
  · split
    · exact .ok (inserted value)
    · exact .error rfl
  · exact .ok (inserted value)

/-- Bindings that are alike have the same value, in environments in which the same is found. -/
theorem Binding.Alike.evaluate (placeFree : library.PlaceFree)
    (chosen : metadata.ChosenFrom library) {binding binding' : Binding}
    (h : binding.Alike binding') (records : ∀ id, metadata.AgreeAt metadata' id)
    (found : environment.find? = environment'.find?) :
    Outcome.Alike (fun after after' : Environment => after.find? = after'.find?)
      (binding.evaluate key metadata environment)
      (binding'.evaluate key metadata' environment') := by
  have same : binding'.expr.evaluate key metadata environment
      = binding'.expr.evaluate key metadata' environment' :=
    Expr.evaluate_congr records fun name _ => congrFun found name
  exact Binding.evaluate_related h.name (same ▸ h.expr.evaluate_placed placeFree chosen) found

theorem Environment.foldlM_alike (placeFree : library.PlaceFree)
    (chosen : metadata.ChosenFrom library) {bindings bindings' : List Binding}
    (h : List.Forall₂ Binding.Alike bindings bindings')
    (records : ∀ id, metadata.AgreeAt metadata' id)
    (found : environment.find? = environment'.find?) :
    Outcome.Alike (fun after after' : Environment => after.find? = after'.find?)
      (bindings.foldlM (fun environment binding => binding.evaluate key metadata environment)
        environment)
      (bindings'.foldlM (fun environment binding => binding.evaluate key metadata' environment)
        environment') :=
  Alike.foldlM h (fun found first => first.evaluate placeFree chosen records found) found

end

-- ---------------------------------------------------------------------------
-- Substitution
-- ---------------------------------------------------------------------------

theorem Placeholder.fillFrom_congr {values values' : Table String Value}
    (found : values.find? = values'.find?) (body : Option (List Char)) (text : List Char) :
    fillFrom values body text = fillFrom values' body text := by
  have meanings : meaning values = meaning values' := by
    funext body
    rw [meaning.eq_def, meaning.eq_def, found]
  fun_induction fillFrom values body text with
  | case1 => rw [fillFrom]
  | case2 body => rw [fillFrom]
  | case3 c rest sign ih => rw [fillFrom, if_pos sign, ih]
  | case4 c rest sign ih => rw [fillFrom, if_neg sign, ih]
  | case5 body c rest sign ih => rw [fillFrom, if_pos sign, meanings, ih]
  | case6 body c rest sign ih => rw [fillFrom, if_neg sign, ih]

/-- Substitution looks at values only by looking up names. -/
theorem substitute_congr {values values' : Table String Value}
    (found : values.find? = values'.find?) (category : Category) (tokens : List Token) :
    substitute values category tokens = substitute values' category tokens := by
  have fills : Placeholder.fill values = Placeholder.fill values' := by
    funext text
    rw [Placeholder.fill, Placeholder.fill, Placeholder.fillFrom_congr found]
  have atoms : Substitution.atom values = Substitution.atom values' := by
    funext token
    rw [Substitution.atom.eq_def, Substitution.atom.eq_def, found, fills]
  rw [substitute, substitute, Substitution.visitor, Substitution.visitor, atoms]

-- ---------------------------------------------------------------------------
-- Combinations
-- ---------------------------------------------------------------------------

/-- Combinations whose bindings differ at most in places come to the same code. -/
theorem Combination.execute_alike {library : Library} (placeFree : library.PlaceFree) (key : String)
    {combination combination' : Combination}
    (h : List.Forall₂ Binding.Alike combination.bindings combination'.bindings)
    (block : combination.block = combination'.block) :
    Outcome.Alike Eq (combination.execute library key) (combination'.execute library key) := by
  have evaluated : Outcome.Alike (fun after after' : Environment => after.find? = after'.find?)
      (combination.evaluate library key) (combination'.evaluate library key) := by
    unfold Combination.evaluate
    have resolved := Scope.resolveAll_alike library h (Scope.Alike.refl .empty)
    have chosen : ∀ scope, Scope.empty.resolveAll library combination.bindings = .ok scope →
        scope.metadata.ChosenFrom library := fun scope ok =>
      Scope.chosenFrom_of_resolveAll ok Metadata.chosenFrom_empty
    generalize Scope.empty.resolveAll library combination.bindings = result,
      Scope.empty.resolveAll library combination'.bindings = result' at resolved chosen
    cases resolved with
    | error same => exact .error same
    | ok related =>
      exact Environment.foldlM_alike placeFree (chosen _ rfl) h related.records rfl
  refine evaluated.bind fun values values' found => ?_
  rw [← block, substitute_congr found]
  exact .of_eq

/-- Invocations with the same loops and the same block, whose bindings differ at most in places,
    come to the same code. -/
theorem Invocation.execute_alike {library : Library} (placeFree : library.PlaceFree) (key : String)
    (finish : List Token → List Token) {invocation invocation' : Invocation}
    (loops : invocation.loops = invocation'.loops)
    (h : List.Forall₂ Binding.Alike invocation.bindings invocation'.bindings)
    (block : invocation.block = invocation'.block) :
    Outcome.Alike Eq (invocation.execute library key finish)
      (invocation'.execute library key finish) := by
  have combinations : Outcome.Alike (List.Forall₂ fun combination combination' =>
      List.Forall₂ Binding.Alike combination.bindings combination'.bindings
        ∧ combination.block = combination'.block)
      invocation.combinations invocation'.combinations := by
    unfold Invocation.combinations
    rw [← loops]
    refine Alike.mapM (R := Eq) (List.forall₂_same.mpr fun _ _ => rfl) fun values values' eq => ?_
    subst eq
    refine Alike.of_eq.bind_same fun bindings => ?_
    exact .ok ⟨List.rel_append (Binding.forall₂_refl bindings) h, block⟩
  refine combinations.bind fun combinations combinations' related => ?_
  have blocks : Outcome.Alike (List.Forall₂ Eq)
      (combinations.mapM fun combination => return finish (← combination.execute library key))
      (combinations'.mapM fun combination => return finish (← combination.execute library key)) :=
    Alike.mapM related fun combination combination' same =>
      (Combination.execute_alike placeFree key same.1 same.2).bind_same fun code => .ok rfl
  refine blocks.bind fun code code' eq => ?_
  rw [List.forall₂_eq_eq_eq] at eq
  subst eq
  exact .ok rfl

end AliasExpansion
