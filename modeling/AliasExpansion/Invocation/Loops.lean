-- SUMMARY: Expanding loops into combinations of bindings.
import AliasExpansion.Error
import AliasExpansion.Invocation.Basic

/-!
# Loops

Each combination selects one value from every loop; the last loop varies fastest. A value is
taken apart by the pattern of its loop, which must have the same tuple shape. The bindings of the
loops come before the bindings of the invocation.
-/

namespace AliasExpansion

namespace LoopPattern

mutual

/-- Take a value apart into bindings of the names in a pattern. -/
def bind : LoopPattern → LoopValue → Except Error (List Binding)
  | .name text span, .expr expr => .ok [{ name := text, span, expr }]
  | .tuple patterns _, .tuple values span =>
    if patterns.length = values.length then bindAll patterns values
    else .error (.type .tupleLength (some span))
  | _, value => .error (.type .tupleMismatch (some value.span))

def bindAll : List LoopPattern → List LoopValue → Except Error (List Binding)
  | pattern :: patterns, value :: values =>
    if pattern.isTuple = value.isTuple then do
      let bindings ← bind pattern value
      return bindings ++ (← bindAll patterns values)
    else .error (.type .tupleShape (some value.span))
  | _, _ => .ok []

end

end LoopPattern

/-- All ways of selecting one element of each list, the last list varying fastest. -/
def selections {α : Type} : List (List α) → List (List α)
  | [] => [[]]
  | choices :: rest => choices.flatMap fun choice => (selections rest).map (choice :: ·)

namespace Invocation

/-- The bindings that the loops make from one selection of values. -/
def bindSelection (loops : List Loop) (values : List LoopValue) : Except Error (List Binding) := do
  let bindings ← (loops.zip values).mapM fun (loop, value) => loop.pattern.bind value
  return bindings.flatten

def combinations (invocation : Invocation) : Except Error (List Combination) :=
  (selections (invocation.loops.map Loop.values)).mapM fun values => do
    let bindings ← bindSelection invocation.loops values
    return { bindings := bindings ++ invocation.bindings, block := invocation.block }

end Invocation

end AliasExpansion
