-- SUMMARY: A resolved expression evaluates to a value of the type on record.
import AliasExpansion.Evaluation
import AliasExpansion.Proofs.Evaluation.Yields
import AliasExpansion.Proofs.Resolution.Calls

/-!
# Evaluation of resolved expressions

When an assignment of an expression is on record, and the values of aliases have the types that the
assignment was made for, every node evaluates to a value of its target type or fails for a reason
that is no internal error.
-/

namespace AliasExpansion

open Assignment

/-- The results have the types, and a failure is no internal error. -/
def YieldsAll (targets : List ValueType) : Except Error (List Value) → Prop
  | .ok values => values.map Value.type = targets
  | .error e => e.isInternal = false

theorem YieldsAll.ordinary {targets : List ValueType} {result : Except Error (List Value)}
    (h : YieldsAll targets result) : Ordinary result := by
  rintro e rfl
  exact h

namespace Assignment

variable {library : Library} {source : Value → ValueType}

theorem Fits.target_eq {expr : Expr} {target : ValueType} {assignment : Assignment}
    (h : Fits library source expr (some target) assignment) : assignment.target = target := by
  cases h <;> rfl

end Assignment

/-- A raw signature takes the argument list as a single argument. -/
theorem Signature.takes_one_of_isRaw {signature : Signature} (hraw : signature.isRaw = true) :
    signature.Takes 1 ∧ signature.parameterTypes 1 = [.raw] := by
  have hfixed : signature.fixed = [.raw] := by simpa [isRaw] using hraw
  have hvariadic := (signature.raw_alone (by rw [hfixed]; exact List.mem_singleton_self _)).2
  rw [Takes, parameterTypes, hvariadic, hfixed]
  exact ⟨rfl, rfl⟩

/-- Values of aliases have the types that leaves are resolved with. -/
def Environment.Types (environment : Environment) (source : Value → ValueType) : Prop :=
  ∀ value, (environment.deref value).type = source value

theorem Value.yields_castResolved {value : Value} {target : ValueType} (span : Span)
    (h : value.type.Widens target) : Yields target (value.castResolved target span) := by
  obtain ⟨result, hresult⟩ := exists_cast h
  have hyields := value.yields_cast target
  unfold castResolved
  rw [hresult] at hyields ⊢
  exact hyields

theorem Overload.Sound.not_takes_zero {overload : Overload} (hsound : overload.Sound) :
    ¬ overload.signature.Takes 0 := by
  intro htakes
  have hsome := hsound.takes_some
  rw [Signature.Takes] at htakes
  cases hvariadic : overload.signature.variadic with
  | none =>
    simp only [hvariadic] at htakes
    simp [hvariadic, List.length_eq_zero_iff.1 htakes.symm] at hsome
  | some target => simp [hvariadic] at htakes

section

variable {library : Library} {source : Value → ValueType} {metadata : Metadata}
  {environment : Environment}

theorem Leaf.yields_evaluate (htypes : environment.Types source) {node : Leaf} {typing : Typing}
    (hrecorded : metadata.leaves.find? node.id = some typing)
    (hwidens : (source node.value).Widens typing.target) :
    Yields typing.target (node.evaluate metadata environment) := by
  unfold evaluate
  simp only [hrecorded]
  exact Value.yields_castResolved _ (by rwa [htypes])

/-- The raw argument list casts to what a raw parameter takes. -/
theorem yieldsAll_raw (htypes : environment.Types source) {raw : Leaf} {cost : Nat}
    (hrecorded : metadata.leaves.find? raw.id = some { target := .raw, cost }) :
    YieldsAll [.raw] (do return [← raw.evaluate metadata environment]) := by
  have hraw := raw.yields_evaluate htypes hrecorded (.inr (.inr rfl))
  cases hevaluate : raw.evaluate metadata environment with
  | ok value =>
    rw [hevaluate] at hraw
    exact congrArg (fun target => [target]) hraw
  | error e =>
    rw [hevaluate] at hraw
    exact hraw

/-- A sound overload yields the target type from arguments of its parameter types. -/
theorem yields_compute {selection : Selection} (hsound : selection.overload.Sound)
    (hwidens : selection.overload.signature.output.Widens selection.target) {values : List Value}
    (htakes : selection.overload.signature.Takes values.length)
    (htypes : values.map Value.type = selection.overload.signature.parameterTypes values.length)
    (key : String) (span : Span) :
    Yields selection.target (do
      let result ← selection.overload.compute key (some span) values
      result.castResolved selection.target span) := by
  have hvalues : values ≠ [] := by
    rintro rfl
    exact hsound.not_takes_zero htakes
  have hyields := hsound.yields key (some span) values hvalues htypes
  refine .bind hyields.ordinary fun result hresult => ?_
  rw [hresult] at hyields
  refine Value.yields_castResolved span ?_
  rwa [show result.type = _ from hyields]

/-- A call yields its target type if its arguments yield the parameter types. -/
theorem yields_call {key : String} {id : NodeId} {name : String} {arguments : List Expr}
    {raw : Leaf} {span : Span} {selection : Selection} {count : Nat}
    (hsound : selection.overload.Sound)
    (hrecorded : metadata.calls.find? id = some selection)
    (hwidens : selection.overload.signature.output.Widens selection.target)
    (htakes : selection.overload.signature.Takes count)
    (hvalues : YieldsAll (selection.overload.signature.parameterTypes count)
      (if selection.isRaw then do return [← raw.evaluate metadata environment]
        else Expr.evaluateAll key metadata environment arguments)) :
    Yields selection.target
      (Expr.evaluate key metadata environment (.call id name arguments raw span)) := by
  have hcompute (result : Except Error (List Value)) (hresult : YieldsAll
      (selection.overload.signature.parameterTypes count) result) :
      Yields selection.target (do
        let result ← selection.overload.compute key (some span) (← result)
        result.castResolved selection.target span) := by
    refine .bind hresult.ordinary fun values heq => ?_
    rw [heq] at hresult
    have hlength : values.length = count := by
      have hmap := congrArg List.length (show values.map Value.type = _ from hresult)
      rwa [List.length_map, Signature.length_parameterTypes _ htakes] at hmap
    subst hlength
    exact yields_compute hsound hwidens htakes hresult key span
  rw [Expr.evaluate]
  simp only [hrecorded]
  split at hvalues
  · next hraw =>
    rw [if_pos hraw]
    simpa only [bind_assoc] using hcompute _ hvalues
  · next hraw =>
    rw [if_neg hraw]
    exact hcompute _ hvalues

theorem widens_of_resultCost {overload : Overload} {expected : Option ValueType} {cost : Nat}
    (hplain : ∀ target, expected = some target → target.Plain)
    (h : overload.resultCost? expected = some cost) :
    overload.signature.output.Widens (expected.getD overload.signature.output) := by
  cases expected with
  | none => exact .inl rfl
  | some target => exact (hplain target rfl).widens h

theorem Overload.Sound.plain_parameterTypes {overload : Overload} (hsound : overload.Sound)
    (count : Nat) : ∀ slot ∈ overload.signature.parameterTypes count, slot.Plain := by
  intro slot hslot
  refine hsound.plain slot ?_
  rw [Signature.parameterTypes] at hslot
  rcases List.mem_append.1 hslot with hfixed | hvariadic
  · exact List.mem_append_left _ hfixed
  · obtain ⟨target, htarget, hreplicate⟩ := List.mem_flatMap.1 hvariadic
    rw [List.eq_of_mem_replicate hreplicate]
    exact List.mem_append_right _ htarget

theorem Library.Sound.overload (hsound : library.Sound) {name : String} {overload : Overload}
    (hmem : overload ∈ library.find name) : overload.Sound :=
  hsound overload (List.mem_filter.1 hmem).1

mutual

theorem yields_evaluate (hsound : library.Sound) (htypes : environment.Types source)
    (key : String) : ∀ (expr : Expr) {expected : Option ValueType} {assignment : Assignment},
      Fits library source expr expected assignment → Recorded metadata expr assignment →
      (∀ target, expected = some target → target.Plain) →
      Yields assignment.target (expr.evaluate key metadata environment)
  | .leaf node, expected, _, .leaf hcost, hrecorded, hplain => by
    rw [Expr.evaluate]
    rw [Recorded] at hrecorded
    refine node.yields_evaluate htypes hrecorded ?_
    cases expected with
    | none => exact .inl rfl
    | some target => exact (hplain target rfl).widens hcost
  | .call _ _ _ _ _, _, _, .raw hmem hraw hresult, hrecorded, hplain => by
    obtain ⟨hcall, rawCost, hrest⟩ := hrecorded.of_raw hraw
    obtain ⟨htakes, hparameters⟩ := Signature.takes_one_of_isRaw hraw
    refine yields_call (hsound.overload hmem) hcall (widens_of_resultCost hplain hresult) htakes ?_
    rw [if_pos (by simp [Selection.isRaw, hraw]), hparameters]
    exact yieldsAll_raw htypes hrest
  | .call _ _ arguments _ _, _, _, .call hmem hraw hresult htakes hchildren, hrecorded, hplain => by
    obtain ⟨hcall, hrest⟩ := hrecorded.of_plain hraw
    have hoverload := hsound.overload hmem
    refine yields_call hoverload hcall (widens_of_resultCost hplain hresult) htakes ?_
    rw [if_neg (by simp [Selection.isRaw, hraw])]
    exact yieldsAll_evaluateAll hsound htypes key arguments hchildren hrest
      (hoverload.plain_parameterTypes _)

theorem yieldsAll_evaluateAll (hsound : library.Sound) (htypes : environment.Types source)
    (key : String) : ∀ (arguments : List Expr) {slots : List ValueType} {children : List Assignment},
      FitsAll library source arguments slots children → RecordedAll metadata arguments children →
      (∀ slot ∈ slots, slot.Plain) →
      YieldsAll slots (Expr.evaluateAll key metadata environment arguments)
  | [], _, _, .nil, _, _ => by
    rw [Expr.evaluateAll]
    rfl
  | argument :: arguments, _, _, .cons hchild hchildren, hrecorded, hplain => by
    rw [RecordedAll] at hrecorded
    rw [Expr.evaluateAll]
    have hfirst := yields_evaluate hsound htypes key argument hchild hrecorded.1
      (by rintro _ ⟨⟩; exact hplain _ List.mem_cons_self)
    have hrest := yieldsAll_evaluateAll hsound htypes key arguments hchildren hrecorded.2
      fun slot hslot => hplain slot (List.mem_cons_of_mem _ hslot)
    rw [hchild.target_eq] at hfirst
    cases hargument : argument.evaluate key metadata environment with
    | error e =>
      rw [hargument] at hfirst
      exact hfirst
    | ok value =>
      rw [hargument] at hfirst
      cases harguments : Expr.evaluateAll key metadata environment arguments with
      | error e =>
        rw [harguments] at hrest
        exact hrest
      | ok values =>
        rw [harguments] at hrest
        exact congrArg₂ List.cons hfirst hrest

end

end

end AliasExpansion
