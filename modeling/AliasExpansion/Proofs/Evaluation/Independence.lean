-- SUMMARY: Aliases that do not mention each other may be declared in either order.
import AliasExpansion.Proofs.Evaluation.Soundness
import AliasExpansion.Proofs.Evaluation.Views
import AliasExpansion.Proofs.Loops.Product
import AliasExpansion.Proofs.Reading.Mentions

/-!
# Independent aliases

Two aliases in a row are independent when neither expression mentions the name of the other. What
one of them puts on record concerns its own nodes, and the name that it declares is none the other
looks at. So each is resolved and evaluated alike before the other and after it, and the tables that
the two orders lead to show the same (`Binding.resolve_swap`, `Binding.evaluate_swap`).
-/

namespace AliasExpansion

/-- Of two keys it does not matter which is inserted first. -/
theorem Table.find?_insert_comm {κ α : Type} [DecidableEq κ] (table : Table κ α) {key key' : κ}
    (ne : key ≠ key') (value value' : α) (other : κ) :
    ((table.insert key value).insert key' value').find? other
      = ((table.insert key' value').insert key value).find? other := by
  simp only [find?_insert]
  split
  · next eq => rw [if_neg (eq ▸ ne)]
  · rfl

-- ---------------------------------------------------------------------------
-- Records of other nodes
-- ---------------------------------------------------------------------------

namespace Metadata

variable {metadata middle after : Metadata} {id : NodeId}

theorem AgreeAt.symm (h : metadata.AgreeAt middle id) : middle.AgreeAt metadata id :=
  ⟨h.1.symm, h.2.symm⟩

theorem AgreeAt.trans (h : metadata.AgreeAt middle id) (h' : middle.AgreeAt after id) :
    metadata.AgreeAt after id :=
  ⟨h.1.trans h'.1, h.2.trans h'.2⟩

theorem SameOutside.agreeAt {ids : List NodeId} (h : metadata.SameOutside ids after)
    (foreign : id ∉ ids) : metadata.AgreeAt after id :=
  ⟨(h.leaves id foreign).symm, (h.calls id foreign).symm⟩

end Metadata

/-- None of the nodes `ids` is an alias. -/
def Scope.Apart (scope : Scope) (ids : List NodeId) : Prop :=
  ∀ name expr, scope.aliases.find? name = some expr → expr.id ∉ ids

/-- What the names of `other` show is the same before the binding is resolved and after it. -/
theorem Binding.showSame {binding : Binding} {scope resolved : Scope}
    (same : scope.SameOutside binding.ids resolved) (apart : scope.Apart binding.ids)
    {name : String} (ne : binding.name ≠ name) :
    scope.ShowSame { resolved with aliases := resolved.aliases.insert binding.name binding.expr }
      name := by
  constructor
  · dsimp only
    rw [Table.find?_insert_of_ne _ _ ne, same.aliases]
  · intro id mem
    obtain ⟨expr, found, rfl⟩ := Option.mem_map.mp mem
    exact same.metadata.agreeAt (apart name expr found)

-- ---------------------------------------------------------------------------
-- Resolution
-- ---------------------------------------------------------------------------

/-- Neither of two bindings declares a name of the other, and they declare different names. -/
structure Binding.Independent (first second : Binding) : Prop where
  ne : first.name ≠ second.name
  left : second.name ∉ first.expr.names
  right : first.name ∉ second.expr.names

theorem Binding.Independent.symm {first second : Binding} (h : first.Independent second) :
    second.Independent first :=
  ⟨h.ne.symm, h.right, h.left⟩

theorem Binding.resolve_eq_ok {library : Library} {binding : Binding} {scope after : Scope} :
    binding.resolve library scope = .ok after ↔ ∃ cost resolved,
      binding.expr.resolve library none scope = .ok (cost, resolved)
        ∧ scope.aliases.find? binding.name = none
        ∧ after = { resolved with
            aliases := resolved.aliases.insert binding.name binding.expr } := by
  constructor
  · intro h
    obtain ⟨⟨cost, resolved⟩, hexpr, h⟩ := Outcome.bind_eq_ok.mp h
    obtain ⟨undeclared, rfl⟩ := Scope.declare_eq_ok h
    rw [(Expr.confined_of_resolve hexpr).aliases] at undeclared
    exact ⟨cost, resolved, hexpr, undeclared, rfl⟩
  · rintro ⟨cost, resolved, hexpr, undeclared, rfl⟩
    refine Outcome.bind_eq_ok.mpr ⟨(cost, resolved), hexpr, ?_⟩
    rw [← (Expr.confined_of_resolve hexpr).aliases] at undeclared
    simp [Scope.declare, Table.contains, undeclared]

/-- Independent bindings are resolved in either order, to scopes that show the same. -/
theorem Binding.resolve_swap {library : Library} {first second : Binding}
    (independent : first.Independent second) (disjoint : first.ids.Disjoint second.ids)
    {scope one both : Scope} (apart : scope.Apart (first.ids ++ second.ids))
    (hfirst : first.resolve library scope = .ok one)
    (hsecond : second.resolve library one = .ok both) :
    ∃ other both', second.resolve library scope = .ok other
      ∧ first.resolve library other = .ok both' ∧ both.Alike both' := by
  have apartFirst : scope.Apart first.ids := fun name expr found mem =>
    apart name expr found (List.mem_append_left _ mem)
  have apartSecond : scope.Apart second.ids := fun name expr found mem =>
    apart name expr found (List.mem_append_right _ mem)
  obtain ⟨cost, resolved, hexpr, undeclared, rfl⟩ := Binding.resolve_eq_ok.mp hfirst
  obtain ⟨cost', resolved', hexpr', undeclared', rfl⟩ := Binding.resolve_eq_ok.mp hsecond
  dsimp only at undeclared'
  have same := Expr.confined_of_resolve hexpr
  have same' := Expr.confined_of_resolve hexpr'
  rw [Table.find?_insert_of_ne _ _ independent.ne, same.aliases] at undeclared'
  -- the second binding, without the first before it
  obtain ⟨⟨_, early⟩, hearly, rfl, histories⟩ :=
    (Expr.resolve_alike library (.refl second.expr) none fun name mem =>
      have ne : first.name ≠ name := fun eq => independent.right (eq ▸ mem)
      (first.showSame same apartFirst ne).symm).exists_ok hexpr'
  dsimp only at hearly histories
  have sameEarly := Expr.confined_of_resolve hearly
  -- the first binding, with the second before it
  obtain ⟨⟨_, late⟩, hlate, rfl, histories'⟩ :=
    (Expr.resolve_alike library (.refl first.expr) none fun name mem =>
      have ne : second.name ≠ name := fun eq => independent.left (eq ▸ mem)
      second.showSame sameEarly apartSecond ne).exists_ok hexpr
  dsimp only at hlate histories'
  have sameLate := Expr.confined_of_resolve hlate
  refine ⟨_, _, Binding.resolve_eq_ok.mpr ⟨_, _, hearly, undeclared', rfl⟩,
    Binding.resolve_eq_ok.mpr ⟨_, _, hlate, ?_, rfl⟩, fun name => ?_, fun id => ?_⟩
  · dsimp only
    rw [Table.find?_insert_of_ne _ _ independent.ne.symm, sameEarly.aliases, undeclared]
  · dsimp only
    rw [same'.aliases, same.aliases, sameLate.aliases, sameEarly.aliases,
      Table.find?_insert_comm _ independent.ne]
  · dsimp only
    by_cases mem : id ∈ first.ids
    · have foreign : id ∉ second.ids := disjoint mem
      have agree := histories'.agree id (sameEarly.metadata.agreeAt foreign)
      exact (same'.metadata.agreeAt foreign).symm.trans agree
    · have agree := histories.agree id (same.metadata.agreeAt mem).symm
      exact agree.trans (sameLate.metadata.agreeAt mem)

-- ---------------------------------------------------------------------------
-- Evaluation
-- ---------------------------------------------------------------------------

section

variable {key : String} {metadata metadata' : Metadata} {environment environment' : Environment}

theorem Binding.evaluate_iff {binding : Binding} {after : Environment} :
    binding.evaluate key metadata environment = .ok after ↔ ∃ value,
      binding.expr.evaluate key metadata environment = .ok value
        ∧ (∀ name ∈ value.name?, Name.isIdentifier name = true)
        ∧ after = environment.insert binding.name value := by
  rw [Binding.evaluate, Outcome.bind_eq_ok]
  refine exists_congr fun value => and_congr_right fun _ => ?_
  cases value.name? with
  | none => exact ⟨fun h => ⟨nofun, (Except.ok.inj h).symm⟩, fun h => congrArg Except.ok h.2.symm⟩
  | some name =>
    dsimp only
    split
    · next plain =>
      exact ⟨fun h => ⟨fun _ eq => Option.some.inj eq ▸ plain, (Except.ok.inj h).symm⟩,
        fun h => congrArg Except.ok h.2.symm⟩
    · next other => exact ⟨nofun, fun h => absurd (h.1 name rfl) other⟩

/-- Independent bindings are evaluated in either order, to environments that show the same. -/
theorem Binding.evaluate_swap {first second : Binding} (independent : first.Independent second)
    (records : ∀ id, metadata.AgreeAt metadata' id)
    (found : environment.find? = environment'.find?) {one both : Environment}
    (hfirst : first.evaluate key metadata environment = .ok one)
    (hsecond : second.evaluate key metadata one = .ok both) :
    ∃ other both', second.evaluate key metadata' environment' = .ok other
      ∧ first.evaluate key metadata' other = .ok both' ∧ both.find? = both'.find? := by
  obtain ⟨value, hvalue, plain, rfl⟩ := Binding.evaluate_iff.mp hfirst
  obtain ⟨value', hvalue', plain', rfl⟩ := Binding.evaluate_iff.mp hsecond
  have early : second.expr.evaluate key metadata (environment.insert first.name value)
      = second.expr.evaluate key metadata' environment' :=
    Expr.evaluate_congr records fun name mem => by
      have ne : first.name ≠ name := fun eq => independent.right (eq ▸ mem)
      rw [Table.find?_insert_of_ne _ _ ne, found]
  have late : first.expr.evaluate key metadata environment
      = first.expr.evaluate key metadata' (environment'.insert second.name value') :=
    Expr.evaluate_congr records fun name mem => by
      have ne : second.name ≠ name := fun eq => independent.left (eq ▸ mem)
      rw [Table.find?_insert_of_ne _ _ ne, found]
  refine ⟨_, _, Binding.evaluate_iff.mpr ⟨value', early ▸ hvalue', plain', rfl⟩,
    Binding.evaluate_iff.mpr ⟨value, late ▸ hvalue, plain, rfl⟩, ?_⟩
  funext name
  rw [Table.find?_insert_comm _ independent.ne]
  simp only [Table.find?_insert, found]

/-- Evaluation looks at its tables only by looking nodes and names up in them. -/
theorem Environment.foldlM_congr {bindings : List Binding}
    (records : ∀ id, metadata.AgreeAt metadata' id)
    (found : environment.find? = environment'.find?) {after : Environment}
    (h : bindings.foldlM (fun environment binding => binding.evaluate key metadata environment)
      environment = .ok after) :
    ∃ after', bindings.foldlM
        (fun environment binding => binding.evaluate key metadata' environment) environment'
        = .ok after' ∧ after.find? = after'.find? := by
  have same : List.Forall₂ Eq bindings bindings := List.forall₂_same.mpr fun _ _ => rfl
  have step : ∀ {environment environment' : Environment} {binding binding' : Binding},
      environment.find? = environment'.find? → binding = binding' →
        Outcome.Alike (fun after after' : Environment => after.find? = after'.find?)
          (binding.evaluate key metadata environment)
          (binding'.evaluate key metadata' environment') := by
    rintro environment environment' binding _ found rfl
    have values : binding.expr.evaluate key metadata environment
        = binding.expr.evaluate key metadata' environment' :=
      Expr.evaluate_congr records fun name _ => congrFun found name
    exact Binding.evaluate_related rfl (values ▸ .of_eq) found
  exact (Outcome.Alike.foldlM same step found).exists_ok h

end

-- ---------------------------------------------------------------------------
-- Combinations and invocations
-- ---------------------------------------------------------------------------

section

variable {library : Library} {key : String} {before after : List Binding} {first second : Binding}

theorem Scope.resolveAll_swap (independent : first.Independent second)
    (nodup : (Binding.idsAll (before ++ first :: second :: after)).Nodup) {scope : Scope}
    (h : Scope.empty.resolveAll library (before ++ first :: second :: after) = .ok scope) :
    ∃ scope', Scope.empty.resolveAll library (before ++ second :: first :: after) = .ok scope'
      ∧ scope.Alike scope' := by
  obtain ⟨start, one, both, hbefore, hfirst, hsecond, hafter⟩ := Outcome.foldlM_pair_eq_ok.mp h
  have idsAll_eq : Binding.idsAll (before ++ first :: second :: after)
      = Binding.idsAll before ++ (first.ids ++ second.ids ++ Binding.idsAll after) := by
    simp [Binding.idsAll]
  rw [idsAll_eq] at nodup
  have ready := (Scope.ready_of_resolveAll (Scope.ready_empty _) nodup hbefore).1
  have apart : start.Apart (first.ids ++ second.ids) := fun name expr found mem =>
    (ready.hosts name expr found).1 (List.mem_append_left _ mem)
  have disjoint : first.ids.Disjoint second.ids :=
    (List.nodup_append'.mp (List.nodup_append'.mp (List.nodup_append'.mp nodup).2.1).1).2.2
  obtain ⟨other, both', hother, hboth, same⟩ :=
    Binding.resolve_swap independent disjoint apart hfirst hsecond
  obtain ⟨scope', hafter', same'⟩ :=
    (Scope.resolveAll_alike library (Binding.forall₂_refl after) same).exists_ok hafter
  exact ⟨scope', Outcome.foldlM_pair_eq_ok.mpr
    ⟨start, other, both', hbefore, hother, hboth, hafter'⟩, same'⟩

theorem Environment.ofBindings_swap (independent : first.Independent second)
    {metadata metadata' : Metadata} (records : ∀ id, metadata.AgreeAt metadata' id)
    {values : Environment}
    (h : Environment.ofBindings key metadata (before ++ first :: second :: after) = .ok values) :
    ∃ values', Environment.ofBindings key metadata' (before ++ second :: first :: after)
        = .ok values' ∧ values.find? = values'.find? := by
  obtain ⟨start, one, both, hbefore, hfirst, hsecond, hafter⟩ := Outcome.foldlM_pair_eq_ok.mp h
  obtain ⟨start', hbefore', found⟩ := Environment.foldlM_congr records rfl hbefore
  obtain ⟨other, both', hother, hboth, found'⟩ :=
    Binding.evaluate_swap independent records found hfirst hsecond
  obtain ⟨values', hafter', same⟩ := Environment.foldlM_congr records found' hafter
  exact ⟨values', Outcome.foldlM_pair_eq_ok.mpr
    ⟨start', other, both', hbefore', hother, hboth, hafter'⟩, same⟩

/-- Independent bindings of a combination may be swapped. -/
theorem Combination.execute_swap {combination : Combination}
    (bindings : combination.bindings = before ++ first :: second :: after)
    (independent : first.Independent second) (nodup : (Binding.idsAll combination.bindings).Nodup)
    {code : List Token} (h : combination.execute library key = .ok code) :
    Combination.execute library key
      { combination with bindings := before ++ second :: first :: after } = .ok code := by
  rw [bindings] at nodup
  obtain ⟨values, hvalues, hcode⟩ := Outcome.bind_eq_ok.mp h
  obtain ⟨scope, hscope, hvalues⟩ := Outcome.bind_eq_ok.mp hvalues
  rw [bindings] at hscope hvalues
  obtain ⟨scope', hscope', same⟩ := Scope.resolveAll_swap independent nodup hscope
  obtain ⟨values', hvalues', found⟩ :=
    Environment.ofBindings_swap independent same.records hvalues
  refine Outcome.bind_eq_ok.mpr ⟨values', Outcome.bind_eq_ok.mpr ⟨scope', hscope', hvalues'⟩, ?_⟩
  rw [← substitute_congr found]
  exact hcode

namespace Invocation

variable {invocation : Invocation} {finish : List Token → List Token} {code : List Token}

/-- Independent bindings of an invocation may be swapped. -/
theorem execute_swap (bindings : invocation.bindings = before ++ first :: second :: after)
    (independent : first.Independent second) (nodup : invocation.ids.Nodup)
    (h : invocation.execute library key finish = .ok code) :
    Invocation.execute library key finish
      { invocation with bindings := before ++ second :: first :: after } = .ok code := by
  obtain ⟨combinations, hcombinations, -⟩ := Outcome.bind_eq_ok.mp h
  obtain ⟨shaped, rfl⟩ := combinations_eq_ok.mp hcombinations
  have hswapped : Invocation.combinations
      { invocation with bindings := before ++ second :: first :: after } = .ok _ :=
    combinations_eq_ok.mpr ⟨shaped, rfl⟩
  rw [execute_of_combinations hcombinations, Outcome.map_eq_ok] at h
  obtain ⟨blocks, hblocks, rfl⟩ := h
  rw [execute_of_combinations hswapped, Outcome.map_eq_ok]
  refine ⟨blocks, ?_, rfl⟩
  rw [List.mapM_map] at hblocks ⊢
  refine Outcome.mapM_ok_of (fun values mem block h => ?_) hblocks
  have ids := (ids_combination_sublist hcombinations (List.mem_map_of_mem mem)).nodup nodup
  have all : (invocation.combine values).bindings
      = (Loop.pairings invocation.loops values ++ before) ++ first :: second :: after := by
    rw [List.append_assoc, ← bindings]
    rfl
  have swapped := Combination.execute_swap all independent ids h
  rw [List.append_assoc] at swapped
  exact swapped

end Invocation

end

/-- Two aliases in a row that have different names and do not mention each other may be swapped:
    the code of the invocation stays the same, and so does its failing. -/
theorem Invocation.independent_aliases_commute {tokens : List Token} {nextId : NodeId}
    {invocation : Invocation} {state : ReadState}
    (read : ofTokens tokens nextId = .ok (invocation, state))
    {before after : List Binding} {first second : Binding}
    (bindings : invocation.bindings = before ++ first :: second :: after)
    (ne : first.name ≠ second.name) (left : second.name ∉ first.expr.mentions)
    (right : first.name ∉ second.expr.mentions) (library : Library) (key : String)
    (finish : List Token → List Token) (code : List Token) :
    Invocation.execute library key finish
        { invocation with bindings := before ++ second :: first :: after } = .ok code
      ↔ invocation.execute library key finish = .ok code := by
  have nodup : invocation.ids.Nodup := (numbers_read _ _ _ read).nodup
  have independent : first.Independent second := by
    refine ⟨ne, ?_, ?_⟩
    · rwa [names_read read (by rw [bindings]; simp)]
    · rwa [names_read read (by rw [bindings]; simp)]
  constructor
  · intro h
    have swapped : ({ invocation with bindings := before ++ second :: first :: after } :
        Invocation).ids.Nodup := by
      refine (List.Perm.nodup_iff ?_).mp nodup
      rw [Invocation.ids, Invocation.ids, bindings]
      refine .append_left _ (.flatMap_right _ (.append_left _ (.swap _ _ _)))
    have back := execute_swap rfl independent.symm swapped h
    rwa [← bindings] at back
  · exact execute_swap bindings independent nodup

/-- Two concatenations that use the same alias, in either order. -/
theorem Invocation.independent_aliases_commute_concatenations :
    ∃ tokens invocation state first second third,
      Token.read "a = x, b = concat(a, _y), c = concat(a, _z), \x7b b(c) \x7d" = .ok tokens
        ∧ ofTokens tokens 0 = .ok (invocation, state)
        ∧ invocation.bindings = [first, second, third] ∧ second.name ≠ third.name
        ∧ third.name ∉ second.expr.mentions ∧ second.name ∉ third.expr.mentions
        ∧ ∀ code, execute .builtin "" id { invocation with bindings := [first, third, second] }
              = .ok code ↔ invocation.execute .builtin "" id = .ok code := by
  have some_ :
      ((Token.read "a = x, b = concat(a, _y), c = concat(a, _z), \x7b b(c) \x7d").toOption.bind
      fun tokens => (ofTokens tokens 0).toOption.bind fun result =>
        if result.1.bindings.length = 3
          ∧ ∀ second ∈ result.1.bindings[1]?, ∀ third ∈ result.1.bindings[2]?,
            second.name ≠ third.name ∧ third.name ∉ second.expr.mentions
              ∧ second.name ∉ third.expr.mentions then some () else none).isSome = true := by
    decide +kernel
  obtain ⟨_, some_⟩ := Option.isSome_iff_exists.mp some_
  obtain ⟨tokens, lexed, some_⟩ := Option.bind_eq_some_iff.mp some_
  obtain ⟨⟨invocation, state⟩, read, some_⟩ := Option.bind_eq_some_iff.mp some_
  rw [Outcome.toOption_eq_some] at lexed read
  obtain ⟨⟨length, apart⟩, -⟩ := Option.ite_none_right_eq_some.mp some_
  obtain ⟨first, second, third, bindings⟩ := List.length_eq_three.mp length
  dsimp only at apart
  rw [bindings] at apart
  obtain ⟨ne, left, right⟩ := apart second rfl third rfl
  have placed : invocation.bindings = [first] ++ second :: third :: [] := bindings
  exact ⟨tokens, invocation, state, first, second, third, lexed, read, bindings, ne, left, right,
    fun code => independent_aliases_commute read placed ne left right .builtin "" id code⟩

end AliasExpansion
