-- SUMMARY: The names that an expression mentions; of an expression that was read there are no others.
import AliasExpansion.Proofs.Reading.Identities
import AliasExpansion.Proofs.Resolution.Views

/-!
# Mentioned names

An expression mentions the names that are leaves of it, at any depth of its arguments. The argument
list that a call keeps unread is a value of its own. When the expression was read, this value is
raw, so it stands for no name, and the mentioned names are all there are (`Invocation.names_read`).
-/

namespace AliasExpansion

namespace Expr

mutual

/-- The names among the leaves of an expression, at any depth of its arguments. -/
def mentions : Expr → List String
  | .leaf node => node.value.name?.toList
  | .call _ _ arguments _ _ => mentionsAll arguments

def mentionsAll : List Expr → List String
  | [] => []
  | argument :: rest => argument.mentions ++ mentionsAll rest

end

/-- No argument list of the expression is a name. -/
def Unnamed (expr : Expr) : Prop :=
  expr.names = expr.mentions

theorem unnamed_readLeaf (tokens : List Token) (next : NodeId) :
    ((readLeaf tokens).run next).1.Unnamed := by
  show Unnamed (.leaf _)
  rw [Unnamed, names, mentions]

theorem unnamed_mapM {read : List Token → StateM NodeId Expr}
    (h : ∀ tokens next, ((read tokens).run next).1.Unnamed) (parts : List (List Token))
    (next : NodeId) :
    namesAll ((parts.mapM read).run next).1 = mentionsAll ((parts.mapM read).run next).1 := by
  induction parts generalizing next with
  | nil =>
    show namesAll [] = mentionsAll []
    rw [namesAll, mentionsAll]
  | cons part parts ih =>
    rw [List.mapM_cons]
    exact congrArg₂ (· ++ ·) (h part next) (ih _)

theorem unnamed_readCall {readArgument : List Token → StateM NodeId Expr}
    (h : ∀ tokens next, ((readArgument tokens).run next).1.Unnamed) (name : String)
    (content : List Token) (listSpan span : Span) (next : NodeId) :
    ((readCall readArgument name content listSpan span).run next).1.Unnamed := by
  rw [run_readCall]
  dsimp only
  rw [Unnamed, names, mentions]
  show [] ++ namesAll _ = mentionsAll _
  rw [List.nil_append]
  split
  · show namesAll [] = mentionsAll []
    rw [namesAll, mentionsAll]
  · exact unnamed_mapM h _ next

theorem unnamed_readWithin : ∀ (depth : Nat) (tokens : List Token) (next : NodeId),
    ((readWithin depth tokens).run next).1.Unnamed
  | 0, tokens, next => unnamed_readLeaf tokens next
  | depth + 1, tokens, next => by
    unfold readWithin
    split
    · split
      · exact unnamed_readCall (unnamed_readWithin depth) _ _ _ _ next
      · exact unnamed_readLeaf _ next
    · exact unnamed_readLeaf _ next

end Expr

open Reading

namespace Invocation

theorem unnamed_readValue {tokens : List Token} {state after : ReadState} {expr : Expr}
    (h : (readValue tokens).run state = .ok (expr, after)) : expr.Unnamed := by
  have plain : ∀ {state after} {expr : Expr},
      (withFresh (Expr.read tokens)).run state = .ok (expr, after) → expr.Unnamed := by
    rintro state _ _ ⟨⟩
    exact Expr.unnamed_readWithin _ tokens state.nextId
  unfold readValue at h
  split at h
  · split at h
    · obtain ⟨_, middle, -, h⟩ := run_bind_eq_ok h
      cases h
      exact Expr.unnamed_readCall (fun tokens => Expr.unnamed_readWithin _ tokens) _ _ _ _ _
    · exact plain h
  · exact plain h

theorem unnamed_readBound {name : String} {span : Span} {state after : ReadState}
    {binding : Binding} (h : (readBound name span).run state = .ok (binding, after)) :
    binding.expr.Unnamed := by
  obtain ⟨_, third, -, h⟩ := run_bind_eq_ok h
  obtain ⟨_, fourth, -, h⟩ := run_bind_eq_ok h
  split at h
  · obtain ⟨_, _, failed, -⟩ := run_bind_eq_ok h
    cases failed
  · obtain ⟨expr, fifth, hexpr, h⟩ := run_bind_eq_ok h
    cases h
    exact unnamed_readValue hexpr

theorem unnamed_readBinding {state after : ReadState} {binding : Binding}
    (h : readBinding.run state = .ok (binding, after)) : binding.expr.Unnamed := by
  obtain ⟨name, first, -, h⟩ := run_bind_eq_ok h
  obtain ⟨token, second, -, h⟩ := run_bind_eq_ok h
  split at h
  · obtain ⟨_, third, -, h⟩ := run_bind_eq_ok h
    have bound : (readBound name.1 name.2).run third = .ok (binding, after) := h
    exact unnamed_readBound bound
  · obtain ⟨_, _, failed, -⟩ := run_bind_eq_ok h
    cases failed

theorem unnamed_readBindings : ∀ (limit : Nat) (used : Option Separator) {state after : ReadState}
    {result : List Binding × Option Separator},
    (readBindings limit used).run state = .ok (result, after) →
      ∀ binding ∈ result.1, binding.expr.Unnamed
  | 0, used, state, after, result, h => by
    cases h
    nofun
  | limit + 1, used, state, after, result, h => by
    unfold readBindings at h
    obtain ⟨token, first, -, h⟩ := run_bind_eq_ok h
    split at h
    · obtain ⟨binding, second, hbinding, h⟩ := run_bind_eq_ok h
      obtain ⟨token, third, -, h⟩ := run_bind_eq_ok h
      cases token with
      | none => cases h
      | some token =>
        cases hseparator : separatorOf? token with
        | none =>
          simp only [hseparator] at h
          cases h
        | some next =>
          simp only [hseparator] at h
          obtain ⟨used, fourth, -, h⟩ := run_bind_eq_ok h
          obtain ⟨_, fifth, -, h⟩ := run_bind_eq_ok h
          obtain ⟨rest, last, hrest, h⟩ := run_bind_eq_ok h
          cases h
          exact List.forall_mem_cons.mpr
            ⟨unnamed_readBinding hbinding, unnamed_readBindings limit _ hrest⟩
    · cases h
      nofun

/-- In an alias expression that was read, the mentioned names are all there are. -/
theorem names_read {tokens : List Token} {nextId : NodeId} {invocation : Invocation}
    {state : ReadState} (h : ofTokens tokens nextId = .ok (invocation, state)) {binding : Binding}
    (mem : binding ∈ invocation.bindings) : binding.expr.names = binding.expr.mentions := by
  obtain ⟨_, _, ⟨⟩, h⟩ := run_bind_eq_ok h
  obtain ⟨loops, first, -, h⟩ := run_bind_eq_ok h
  obtain ⟨⟨bindings, separator⟩, second, hbindings, h⟩ := run_bind_eq_ok h
  obtain ⟨block, third, -, h⟩ := run_bind_eq_ok h
  obtain ⟨_, fourth, -, h⟩ := run_bind_eq_ok h
  obtain ⟨_, last, -, h⟩ := run_bind_eq_ok h
  cases h
  exact unnamed_readBindings _ _ hbindings binding mem

end Invocation

end AliasExpansion
