-- SUMMARY: Resolution finds the cheapest assignment of an expression, if there is one.
import AliasExpansion.Proofs.Resolution.Settled

/-!
# Optimal resolution

Resolution chooses at every call by itself, knowing only what the arguments cost. The choices add up
to the best assignment of the whole expression, since an assignment of a call is an overload with
independent assignments of the arguments, and its cost grows with theirs.

A refused call is rendered for the message of the refusal, and a literal without a value has no
rendering. Where that happens resolution fails although an assignment may exist; `Stumbles` says
where.
-/

namespace AliasExpansion

open Assignment

-- ---------------------------------------------------------------------------
-- Expressions
-- ---------------------------------------------------------------------------

mutual

/-- Types of aliases stay what they are while an expression is resolved, so that all its nodes are
    resolved against the same types. -/
theorem resolve_settled (library : Library) :
    ∀ (expr : Expr) (expected : Option ValueType) (scope : Scope), scope.Hosts expr.ids →
      expr.ids.Nodup → Settled library scope.sourceType expr expected scope
        (expr.resolve library expected scope)
  | .leaf node, expected, scope, hosts, _ => settled_leaf hosts
  | .call id name arguments raw span, expected, scope, hosts, hnodup => by
    rw [Expr.ids, List.nodup_cons, List.nodup_cons] at hnodup
    obtain ⟨hid, -, harguments⟩ := hnodup
    refine settled_call hid fun overload hmem =>
      attempt_settled hmem (hosts.mono (by simp [Expr.ids])) fun htakes => ?_
    exact resolveAll_settled library arguments _ scope (hosts.mono (by simp [Expr.ids])) harguments
      (overload.signature.length_slots htakes)

theorem resolveAll_settled (library : Library) :
    ∀ (arguments : List Expr) (slots : List (ValueType × Nat)) (scope : Scope),
      scope.Hosts (Expr.idsAll arguments) → (Expr.idsAll arguments).Nodup →
      slots.length = arguments.length → SettledAll library scope.sourceType arguments slots scope
        (Expr.resolveAll library arguments slots scope)
  | [], slots, scope, _, _, hlength => settledAll_nil slots hlength
  | argument :: arguments, [], _, _, _, hlength => by cases hlength
  | argument :: arguments, (slot, weight) :: slots, scope, hosts, hnodup, hlength => by
    rw [Expr.idsAll] at hosts hnodup
    obtain ⟨hargument, harguments, hdisjoint⟩ := List.nodup_append'.1 hnodup
    have hhead : scope.Hosts argument.ids := hosts.mono (List.subset_append_left _ _)
    refine settledAll_cons hdisjoint
      (resolve_settled library argument (some slot) scope hhead hargument) fun middle hmiddle => ?_
    have hrest := (hosts.of_sameOutside (hmiddle.mono (List.subset_append_left _ _))).mono
      (List.subset_append_right _ _)
    rw [← hhead.sourceType_eq hmiddle]
    exact resolveAll_settled library arguments slots middle hrest harguments (Nat.succ.inj hlength)

end

/-- Where every literal of an expression has a value, resolution finds the best assignment exactly
    when there is one. -/
theorem resolve_isOk_iff {library : Library} {expr : Expr} {expected : Option ValueType}
    {scope : Scope} (hosts : scope.Hosts expr.ids) (hnodup : expr.ids.Nodup) {text : String}
    (hdisplay : expr.display = .ok text) :
    (∃ cost after, expr.resolve library expected scope = .ok (cost, after)) ↔
      ∃ assignment, Fits library scope.sourceType expr expected assignment := by
  have hsettled := resolve_settled library expr expected scope hosts hnodup
  have hsteady : ¬ Stumbles library scope.sourceType expr expected := by
    intro hstumble
    obtain ⟨d, hd⟩ := hstumble.display
    rw [hdisplay] at hd
    cases hd
  cases hresolve : expr.resolve library expected scope with
  | ok result =>
    rw [hresolve] at hsettled
    obtain ⟨-, -, assignment, hbest, -, -, -⟩ := hsettled
    exact ⟨fun _ => ⟨assignment, hbest.fits⟩, fun _ => ⟨result.1, result.2, rfl⟩⟩
  | error e =>
    rw [hresolve] at hsettled
    obtain ⟨-, -, hnone⟩ | ⟨-, hstumble⟩ := hsettled
    · exact ⟨nofun, fun ⟨assignment, hfits⟩ => absurd hfits (hnone assignment)⟩
    · exact absurd hstumble hsteady

/-- Resolution finds the best assignment of an expression exactly when there is an assignment at
    all and no refused call has a literal without a value. When it fails for want of an assignment
    it refuses, and when it stumbles it says so. -/
theorem resolve_optimal (library : Library) (expr : Expr) (expected : Option ValueType)
    (scope : Scope) (hosts : scope.Hosts expr.ids) (hnodup : expr.ids.Nodup) :
    ((∃ cost after, expr.resolve library expected scope = .ok (cost, after)) ↔
      (∃ assignment, Fits library scope.sourceType expr expected assignment) ∧
        ¬ Stumbles library scope.sourceType expr expected) ∧
    (∀ cost after, expr.resolve library expected scope = .ok (cost, after) →
      ∃ assignment, Best library scope.sourceType expr expected assignment ∧
        Recorded after.metadata expr assignment ∧ assignment.cost = cost) ∧
    ((∃ d, expr.resolve library expected scope = .error (.decode d)) ↔
      Stumbles library scope.sourceType expr expected) := by
  have hsettled := resolve_settled library expr expected scope hosts hnodup
  cases hresolve : expr.resolve library expected scope with
  | ok result =>
    obtain ⟨cost, after⟩ := result
    rw [hresolve] at hsettled
    obtain ⟨-, hsteady, assignment, hbest, hrecorded, hcost, -⟩ := hsettled
    refine ⟨⟨fun _ => ⟨⟨assignment, hbest.fits⟩, hsteady⟩, fun _ => ⟨cost, after, rfl⟩⟩, ?_, ?_⟩
    · rintro _ _ ⟨⟩
      exact ⟨assignment, hbest, hrecorded, hcost⟩
    · exact ⟨nofun, fun hstumble => absurd hstumble hsteady⟩
  | error e =>
    rw [hresolve] at hsettled
    obtain ⟨hrefusal, hsteady, hnone⟩ | ⟨⟨d, rfl⟩, hstumble⟩ := hsettled
    · refine ⟨⟨nofun, fun ⟨⟨assignment, hfits⟩, _⟩ => absurd hfits (hnone assignment)⟩, nofun, ?_⟩
      refine ⟨?_, fun hstumble => absurd hstumble hsteady⟩
      rintro ⟨d, ⟨⟩⟩
      simp at hrefusal
    · exact ⟨⟨nofun, fun ⟨_, hsteady⟩ => absurd hstumble hsteady⟩, nofun,
        fun _ => hstumble, fun _ => ⟨d, rfl⟩⟩

/-- The expression `concat(raw(literal))`. -/
def concatOfRaw (literal : String) : Expr :=
  ((Expr.read [.ident "concat" {}, .group .parenthesis [.ident "raw" {},
    .group .parenthesis [.literal { kind := .str, text := literal }] {}] {}]).run 0).1

/-- The best assignment of a concatenation of tokens costs nothing. -/
theorem resolve_optimal_concat :
    Scope.empty.Hosts (concatOfRaw "\"x\"").ids ∧ (concatOfRaw "\"x\"").ids.Nodup ∧
      ∃ after assignment,
        Expr.resolve .builtin (concatOfRaw "\"x\"") none .empty = .ok (0, after) ∧
        Best .builtin Scope.empty.sourceType (concatOfRaw "\"x\"") none assignment ∧
        Recorded after.metadata (concatOfRaw "\"x\"") assignment ∧ assignment.cost = 0 := by
  have hosts : Scope.empty.Hosts (concatOfRaw "\"x\"").ids := by
    intro name expr hfind
    cases hfind
  have hnodup : (concatOfRaw "\"x\"").ids.Nodup := by decide +kernel
  have hcost : (Expr.resolve .builtin (concatOfRaw "\"x\"") none .empty).toOption.map Prod.fst =
      some 0 := by decide +kernel
  obtain ⟨⟨cost, after⟩, hresolve, rfl⟩ := Option.map_eq_some_iff.1 hcost
  rw [Outcome.toOption_eq_some] at hresolve
  obtain ⟨assignment, hbest⟩ :=
    (resolve_optimal .builtin _ none .empty hosts hnodup).2.1 _ after hresolve
  exact ⟨hosts, hnodup, after, assignment, hresolve, hbest⟩

/-- The call can be assigned as a concatenation of tokens, whatever the literal. -/
theorem fits_concatOfRaw (literal : String) : ∃ assignment,
    Fits .builtin Scope.empty.sourceType (concatOfRaw literal) none assignment := by
  have hconcat : Library.concatFunctions[4] ∈ Library.builtin.find "concat" :=
    List.getElem_mem (l := Library.concatFunctions) (by decide)
  have hraw : Library.tokensFunctions[1] ∈ Library.builtin.find "raw" := List.mem_singleton_self _
  exact ⟨_, .call hconcat rfl rfl (Nat.le_refl 1) (.cons (.raw hraw rfl rfl) .nil)⟩

/-- With a literal that has no value the same call still has an assignment, but the attempt of the
    overload that needs two arguments ends the resolution. -/
theorem resolve_concat_stumbles :
    (∃ assignment, Fits .builtin Scope.empty.sourceType (concatOfRaw "\"\\u\x7b110000\x7d\"") none
      assignment) ∧
      Expr.resolve .builtin (concatOfRaw "\"\\u\x7b110000\x7d\"") none .empty =
        .error (.decode .codePointTooLarge) := by
  refine ⟨fits_concatOfRaw _, ?_⟩
  rw [← Outcome.failure?_eq_some]
  decide +kernel

end AliasExpansion
