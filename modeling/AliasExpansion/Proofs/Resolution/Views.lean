-- SUMMARY: Resolution sees of a scope only what it shows of the names that an expression mentions.
import AliasExpansion.Proofs.Resolution.Calls

/-!
# Views of a scope

The scope influences the resolution of an expression only through the names in it. Two scopes that
show the same of these names give the same costs and the same failures, and leave the same records
wherever they had the same records before (`Expr.resolve_alike`). A call, moreover, may stand at
another place: places turn up in errors only.
-/

namespace AliasExpansion

theorem Table.find?_insert {κ α : Type} [DecidableEq κ] (table : Table κ α) (key other : κ)
    (value : α) :
    (table.insert key value).find? other
      = if key = other then some value else table.find? other := by
  split
  · next eq => rw [eq, find?_insert_self]
  · next ne => rw [find?_insert_of_ne _ _ ne]

-- ---------------------------------------------------------------------------
-- Computations that come to the same
-- ---------------------------------------------------------------------------

/-- The error without its place. -/
def Error.unplaced : Error → Error
  | .parse fault _ => .parse fault none
  | .type fault _ => .type fault none
  | .evaluation fault _ => .evaluation fault none
  | .redefined name _ => .redefined name none
  | .signature signatures call _ => .signature signatures call none
  | .undefinedFunction name _ => .undefinedFunction name none
  | .substitution before after reason _ => .substitution before after reason none
  | .internal fault _ => .internal fault none
  | .decode error => .decode error
  | .keyTooLong => .keyTooLong
  | .noFrame => .noFrame

theorem Error.isRefusal_unplaced (error : Error) : error.unplaced.isRefusal = error.isRefusal := by
  cases error <;> rfl

namespace Outcome

variable {α α' β β' σ σ' : Type} {R : α → α' → Prop} {S : β → β' → Prop}

/-- Both computations succeed, with related results, or both fail, with errors that differ at most
    in their places. -/
inductive Alike (R : α → α' → Prop) : Except Error α → Except Error α' → Prop
  | ok {a : α} {a' : α'} (related : R a a') : Alike R (.ok a) (.ok a')
  | error {e e' : Error} (same : e.unplaced = e'.unplaced) : Alike R (.error e) (.error e')

namespace Alike

theorem of_eq {x : Except Error α} : Alike Eq x x := by
  cases x with
  | ok a => exact .ok rfl
  | error e => exact .error rfl

theorem mono {R' : α → α' → Prop} {x : Except Error α} {y : Except Error α'} (h : Alike R x y)
    (imp : ∀ a a', R a a' → R' a a') : Alike R' x y := by
  cases h with
  | ok related => exact .ok (imp _ _ related)
  | error same => exact .error same

theorem bind {x : Except Error α} {y : Except Error α'} {f : α → Except Error β}
    {g : α' → Except Error β'} (h : Alike R x y) (rest : ∀ a a', R a a' → Alike S (f a) (g a')) :
    Alike S (x >>= f) (y >>= g) := by
  cases h with
  | ok related => exact rest _ _ related
  | error same => exact .error same

theorem bind_same {x y : Except Error α} {f : α → Except Error β} {g : α → Except Error β'}
    (h : Alike Eq x y) (rest : ∀ a, Alike S (f a) (g a)) : Alike S (x >>= f) (y >>= g) :=
  h.bind fun a _ eq => eq ▸ rest a

theorem mapM {f : α → Except Error β} {g : α' → Except Error β'} {items : List α}
    {items' : List α'} (related : List.Forall₂ R items items')
    (h : ∀ a a', R a a' → Alike S (f a) (g a')) :
    Alike (List.Forall₂ S) (items.mapM f) (items'.mapM g) := by
  induction related with
  | nil => exact .ok .nil
  | cons first _ ih =>
    rw [List.mapM_cons, List.mapM_cons]
    exact (h _ _ first).bind fun b b' hb => ih.bind fun bs bs' hbs => .ok (.cons hb hbs)

/-- Steps that are alike lead on from states that are related to states that are related. -/
theorem foldlM {T : σ → σ' → Prop} {f : σ → α → Except Error σ} {g : σ' → α' → Except Error σ'}
    {items : List α} {items' : List α'} (related : List.Forall₂ R items items')
    (step : ∀ {s s' a a'}, T s s' → R a a' → Alike T (f s a) (g s' a')) {s : σ} {s' : σ'}
    (start : T s s') : Alike T (items.foldlM f s) (items'.foldlM g s') := by
  induction related generalizing s s' with
  | nil => exact .ok start
  | cons first _ ih =>
    rw [List.foldlM_cons, List.foldlM_cons]
    exact (step start first).bind fun after after' related => ih related

/-- Computations that are alike succeed alike. -/
theorem exists_ok {x : Except Error α} {y : Except Error α'} (h : Alike R x y) {a : α}
    (succeeds : x = .ok a) : ∃ a', y = .ok a' ∧ R a a' := by
  cases h with
  | ok related =>
    cases succeeds
    exact ⟨_, rfl, related⟩
  | error same => cases succeeds

end Alike

end Outcome

open Outcome

-- ---------------------------------------------------------------------------
-- Scopes that show the same
-- ---------------------------------------------------------------------------

namespace Expr

mutual

/-- The names in an expression: those of its leaves, and of the argument lists of its calls where
    they are a name. -/
def names : Expr → List String
  | .leaf node => node.value.name?.toList
  | .call _ _ arguments raw _ => raw.value.name?.toList ++ namesAll arguments

def namesAll : List Expr → List String
  | [] => []
  | argument :: rest => argument.names ++ namesAll rest

end

end Expr

/-- The same is on record for a node. -/
def Metadata.AgreeAt (metadata metadata' : Metadata) (id : NodeId) : Prop :=
  metadata.leaves.find? id = metadata'.leaves.find? id
    ∧ metadata.calls.find? id = metadata'.calls.find? id

namespace Metadata

variable {metadata metadata' : Metadata} {id : NodeId}

theorem AgreeAt.target? (h : metadata.AgreeAt metadata' id) :
    metadata.target? id = metadata'.target? id := by
  rw [Metadata.target?, Metadata.target?, h.1, h.2]

theorem AgreeAt.recordLeaf (h : metadata.AgreeAt metadata' id) (node : NodeId) (typing : Typing) :
    (metadata.recordLeaf node typing).AgreeAt (metadata'.recordLeaf node typing) id := by
  refine ⟨?_, h.2⟩
  simp only [Metadata.recordLeaf, Table.find?_insert, h.1]

theorem AgreeAt.recordCall (h : metadata.AgreeAt metadata' id) (node : NodeId)
    (selection : Selection) :
    (metadata.recordCall node selection).AgreeAt (metadata'.recordCall node selection) id := by
  refine ⟨h.1, ?_⟩
  simp only [Metadata.recordCall, Table.find?_insert, h.2]

end Metadata

namespace Scope

/-- Of a name the scopes show the same: it stands for a node with the same record in both, or for
    none in both. -/
structure ShowSame (scope scope' : Scope) (name : String) : Prop where
  node : (scope.aliases.find? name).map Expr.id = (scope'.aliases.find? name).map Expr.id
  record : ∀ id ∈ (scope.aliases.find? name).map Expr.id,
    scope.metadata.AgreeAt scope'.metadata id

/-- Two scopes have led to two others, and wherever the same was on record, it still is. -/
structure Parallel (scope scope' after after' : Scope) : Prop where
  left : after.aliases = scope.aliases
  right : after'.aliases = scope'.aliases
  agree : ∀ id, scope.metadata.AgreeAt scope'.metadata id →
    after.metadata.AgreeAt after'.metadata id

namespace Parallel

variable {scope scope' middle middle' after after' : Scope}

theorem refl (scope scope' : Scope) : Parallel scope scope' scope scope' :=
  ⟨rfl, rfl, fun _ h => h⟩

theorem trans (h : Parallel scope scope' middle middle')
    (h' : Parallel middle middle' after after') :
    Parallel scope scope' after after' :=
  ⟨h'.left.trans h.left, h'.right.trans h.right, fun id agree => h'.agree id (h.agree id agree)⟩

theorem showSame (h : Parallel scope scope' after after') {name : String}
    (shown : ShowSame scope scope' name) : ShowSame after after' name := by
  constructor
  · rw [h.left, h.right, shown.node]
  · rw [h.left]
    exact fun id mem => h.agree id (shown.record id mem)

end Parallel

theorem ShowSame.symm {scope scope' : Scope} {name : String} (h : ShowSame scope scope' name) :
    ShowSame scope' scope name := by
  refine ⟨h.node.symm, fun id mem => ?_⟩
  obtain ⟨leaves, calls⟩ := h.record id (h.node ▸ mem)
  exact ⟨leaves.symm, calls.symm⟩

theorem ShowSame.typeOf {scope scope' : Scope} {value : Value} (span span' : Span)
    (shown : ∀ name ∈ value.name?, ShowSame scope scope' name) :
    Alike Eq (scope.typeOf value span) (scope'.typeOf value span') := by
  simp only [Scope.typeOf]
  cases named : value.name? with
  | none => exact .ok rfl
  | some name =>
    have shown := shown name named
    have node := shown.node
    dsimp only
    cases found : scope.aliases.find? name with
    | none =>
      rw [found, Option.map_none, eq_comm, Option.map_eq_none_iff] at node
      rw [node]
      exact .ok rfl
    | some expr =>
      rw [found, Option.map_some, eq_comm, Option.map_eq_some_iff] at node
      obtain ⟨expr', found', id⟩ := node
      have record := shown.record expr.id (by rw [found]; rfl)
      rw [found']
      dsimp only
      rw [id, record.target?]
      cases scope'.metadata.target? expr.id with
      | none => exact .error rfl
      | some target => exact .ok rfl

end Scope

open Scope

-- ---------------------------------------------------------------------------
-- Leaves
-- ---------------------------------------------------------------------------

/-- Costs are the same, and the scopes have parallel histories. -/
def SameCost (scope scope' : Scope) (result result' : Nat × Scope) : Prop :=
  result.1 = result'.1 ∧ Parallel scope scope' result.2 result'.2

theorem ValueType.coerce_alike (source target : ValueType) (span span' : Span) :
    Alike Eq (source.coerce target span) (source.coerce target span') := by
  rw [ValueType.coerce, ValueType.coerce]
  cases source.coercionCost target with
  | none => exact .error rfl
  | some cost => exact .ok rfl

theorem Leaf.resolve_alike (leaf : Leaf) (span : Span) (expected : Option ValueType)
    {scope scope' : Scope} (shown : ∀ name ∈ leaf.value.name?, ShowSame scope scope' name) :
    Alike (SameCost scope scope') (leaf.resolve expected scope)
      (({ leaf with span } : Leaf).resolve expected scope') := by
  refine (ShowSame.typeOf _ _ shown).bind_same fun source => ?_
  refine (source.coerce_alike _ _ _).bind_same fun cost => ?_
  exact .ok ⟨rfl, rfl, rfl, fun id agree => agree.recordLeaf _ _⟩

-- ---------------------------------------------------------------------------
-- Calls
-- ---------------------------------------------------------------------------

/-- Attempts of one overload in scopes with parallel histories. -/
structure Attempt.Alike (scope scope' : Scope) (attempt attempt' : Attempt) : Prop where
  overload : attempt.overload = attempt'.overload
  cost : attempt.cost = attempt'.cost
  scope : Parallel scope scope' attempt.scope attempt'.scope

namespace Attempt

variable {scope scope' : Scope}

theorem precedes_alike {a a' b b' : Attempt} (ha : a.Alike scope scope' a')
    (hb : b.Alike scope scope' b') : a.precedes b = a'.precedes b' := by
  rw [precedes, precedes, ha.overload, ha.cost, hb.overload, hb.cost]

/-- Of attempts that are alike the preferred ones are. -/
theorem best?_alike {attempts attempts' : List Attempt}
    (h : List.Forall₂ (Attempt.Alike scope scope') attempts attempts') :
    Option.Rel (Attempt.Alike scope scope') (best? attempts) (best? attempts') := by
  induction h with
  | nil => exact .none
  | @cons attempt attempt' rest rest' first _ ih =>
    rw [best?, best?]
    generalize best? rest = others, best? rest' = others' at ih
    cases ih with
    | none => exact .some first
    | some other =>
      dsimp only
      rw [precedes_alike other first]
      split
      · exact .some other
      · exact .some first

theorem collect_alike {attempt attempt' : Overload → Except Error Attempt}
    (h : ∀ overload, Outcome.Alike (Attempt.Alike scope scope') (attempt overload)
      (attempt' overload)) (overloads : List Overload) :
    Outcome.Alike (List.Forall₂ (Attempt.Alike scope scope')) (collect attempt overloads)
      (collect attempt' overloads) := by
  induction overloads with
  | nil => exact .ok .nil
  | cons overload rest ih =>
    rw [collect, collect]
    have first := h overload
    generalize attempt overload = result, attempt' overload = result' at first
    cases first with
    | ok related => exact ih.bind fun others others' hothers => .ok (.cons related hothers)
    | error same =>
      have kind := congrArg Error.isRefusal same
      rw [Error.isRefusal_unplaced, Error.isRefusal_unplaced, Error.isRefusal,
        Error.isRefusal] at kind
      dsimp only
      rw [kind]
      split
      · exact ih
      · exact .error same

end Attempt

namespace Expr

/-- The expressions are the same, except that a call may stand at another place. -/
inductive Alike : Expr → Expr → Prop
  | leaf (node : Leaf) : Alike (.leaf node) (.leaf node)
  | call (id : NodeId) (name : String) (arguments : List Expr) (raw : Leaf)
      (span listSpan callSpan : Span) :
      Alike (.call id name arguments raw span)
        (.call id name arguments { raw with span := listSpan } callSpan)

theorem Alike.refl (expr : Expr) : expr.Alike expr := by
  cases expr with
  | leaf node => exact .leaf node
  | call id name arguments raw span => exact .call id name arguments raw span raw.span span

theorem Alike.id_eq {expr expr' : Expr} (h : expr.Alike expr') : expr'.id = expr.id := by
  cases h <;> rfl

theorem Alike.display {expr expr' : Expr} (h : expr.Alike expr') :
    expr'.display = expr.display := by
  cases h with
  | leaf node => rfl
  | call id name arguments raw span listSpan callSpan =>
    rw [Expr.display.eq_def, Expr.display.eq_def]

theorem refuse_alike {α : Type} {R : α → α → Prop} {call call' : Expr} (h : call.Alike call')
    (signatures : String) :
    Outcome.Alike R (call.refuse signatures) (call'.refuse signatures) := by
  rw [refuse, refuse, h.display]
  cases call.display with
  | ok text => exact .error rfl
  | error d => exact .error rfl

section

variable {library : Library} {id : NodeId} {name : String} {arguments : List Expr} {raw : Leaf}
  {scope scope' : Scope}

/-- Attempts of an overload are alike if the resolutions of the arguments are. -/
theorem attempt_alike (span listSpan callSpan : Span) (expected : Option ValueType)
    (shown : ∀ name ∈ raw.value.name?, ShowSame scope scope' name)
    (same : ∀ slots, Outcome.Alike (SameCost scope scope')
      (resolveAll library arguments slots scope) (resolveAll library arguments slots scope'))
    (overload : Overload) :
    Outcome.Alike (Attempt.Alike scope scope')
      (attempt library id name arguments raw span expected scope overload)
      (attempt library id name arguments { raw with span := listSpan } callSpan expected scope'
        overload) := by
  cases resultCost : overload.resultCost? expected with
  | none =>
    cases expected with
    | none => cases resultCost
    | some target =>
      rw [Overload.resultCost?] at resultCost
      simp only [attempt, ValueType.coerce, resultCost]
      exact .error rfl
  | some cost =>
    rw [attempt_of_resultCost resultCost, attempt_of_resultCost resultCost]
    split
    · exact (raw.resolve_alike listSpan _ shown).bind fun result result' related =>
        .ok ⟨rfl, rfl, related.2⟩
    · split
      · exact (same _).bind fun result result' related =>
          .ok ⟨rfl, congrArg (cost + ·) related.1, related.2⟩
      · exact (refuse_alike (R := SameCost scope scope')
          (.call id name arguments raw span listSpan callSpan) _).bind
            fun result result' related => .ok ⟨rfl, congrArg (cost + ·) related.1, related.2⟩

/-- Calls are resolved alike if their arguments are. -/
theorem resolve_call_alike (span listSpan callSpan : Span) (expected : Option ValueType)
    (shown : ∀ name ∈ raw.value.name?, ShowSame scope scope' name)
    (same : ∀ slots, Outcome.Alike (SameCost scope scope')
      (resolveAll library arguments slots scope) (resolveAll library arguments slots scope')) :
    Outcome.Alike (SameCost scope scope')
      (resolve library (.call id name arguments raw span) expected scope)
      (resolve library (.call id name arguments { raw with span := listSpan } callSpan) expected
        scope') := by
  rw [resolve_call, resolve_call]
  split
  · exact .error rfl
  · refine (Attempt.collect_alike (attempt_alike span listSpan callSpan expected shown same)
      (library.find name)).bind fun attempts attempts' related => ?_
    have best := Attempt.best?_alike related
    generalize Attempt.best? attempts = choice, Attempt.best? attempts' = choice' at best
    cases best with
    | none => exact refuse_alike (.call id name arguments raw span listSpan callSpan) _
    | some best =>
      obtain ⟨overload, cost, histories⟩ := best
      dsimp only
      rw [overload, cost]
      exact .ok ⟨rfl, histories.left, histories.right,
        fun id agree => (histories.agree id agree).recordCall _ _⟩

end

-- ---------------------------------------------------------------------------
-- Expressions
-- ---------------------------------------------------------------------------

mutual

theorem resolve_alike_self (library : Library) : ∀ (expr : Expr) (expected : Option ValueType)
    {scope scope' : Scope}, (∀ name ∈ expr.names, ShowSame scope scope' name) →
      Outcome.Alike (SameCost scope scope') (resolve library expr expected scope)
        (resolve library expr expected scope')
  | .leaf node, expected, scope, scope', shown => by
    rw [resolve, resolve]
    exact node.resolve_alike node.span expected fun name mem =>
      shown name (by rw [names]; exact Option.mem_toList.mpr mem)
  | .call id name arguments raw span, expected, scope, scope', shown => by
    rw [names, List.forall_mem_append] at shown
    exact resolve_call_alike span raw.span span expected
      (fun name mem => shown.1 name (Option.mem_toList.mpr mem))
      fun slots => resolveAll_alike library arguments slots shown.2

theorem resolveAll_alike (library : Library) : ∀ (arguments : List Expr)
    (slots : List (ValueType × Nat)) {scope scope' : Scope},
      (∀ name ∈ namesAll arguments, ShowSame scope scope' name) →
      Outcome.Alike (SameCost scope scope') (resolveAll library arguments slots scope)
        (resolveAll library arguments slots scope')
  | argument :: arguments, (target, weight) :: slots, scope, scope', shown => by
    rw [namesAll, List.forall_mem_append] at shown
    rw [resolveAll, resolveAll]
    refine (resolve_alike_self library argument (some target) shown.1).bind
      fun result result' related => ?_
    obtain ⟨cost, middle⟩ := result
    obtain ⟨cost', middle'⟩ := result'
    obtain ⟨eq, histories⟩ : cost = cost' ∧ Parallel scope scope' middle middle' := related
    subst eq
    have later := resolveAll_alike library arguments slots fun name mem =>
      histories.showSame (shown.2 name mem)
    refine later.bind fun rest rest' related => ?_
    obtain ⟨total, after⟩ := rest
    obtain ⟨total', after'⟩ := rest'
    obtain ⟨eq, later⟩ : total = total' ∧ Parallel middle middle' after after' := related
    subst eq
    exact .ok ⟨rfl, histories.trans later⟩
  | [], slots, scope, scope', _ => by
    rw [resolveAll, resolveAll]
    · exact .ok ⟨rfl, .refl scope scope'⟩
    · nofun
    · nofun
  | argument :: arguments, [], scope, scope', _ => by
    rw [resolveAll, resolveAll]
    · exact .ok ⟨rfl, .refl scope scope'⟩
    · nofun
    · nofun

end

/-- Expressions that differ at most in places are resolved alike in scopes that show the same of
    their names. -/
theorem resolve_alike (library : Library) {expr expr' : Expr} (h : expr.Alike expr')
    (expected : Option ValueType) {scope scope' : Scope}
    (shown : ∀ name ∈ expr.names, ShowSame scope scope' name) :
    Outcome.Alike (SameCost scope scope') (resolve library expr expected scope)
      (resolve library expr' expected scope') := by
  cases h with
  | leaf node => exact resolve_alike_self library (.leaf node) expected shown
  | call id name arguments raw span listSpan callSpan =>
    rw [names, List.forall_mem_append] at shown
    exact resolve_call_alike span listSpan callSpan expected
      (fun name mem => shown.1 name (Option.mem_toList.mpr mem))
      fun slots => resolveAll_alike library arguments slots shown.2

end Expr

end AliasExpansion
