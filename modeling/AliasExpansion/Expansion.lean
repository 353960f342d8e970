-- SUMMARY: Expanding an invocation into code.
import AliasExpansion.Evaluation
import AliasExpansion.Invocation.Loops
import AliasExpansion.Invocation.Reader
import AliasExpansion.Notice.Placement
import AliasExpansion.Resolution
import AliasExpansion.Substitution.Basic

/-!
# Expansion

An invocation is read, its loops are expanded, and for every combination the aliases are resolved
and evaluated and their values substituted into the block. The blocks follow each other in the
order of the combinations. The first error ends the expansion.
-/

namespace AliasExpansion

/-- What an expansion depends on besides its source. -/
structure Options where
  /-- What keys the function `hash`. -/
  key : String
  /-- What stands before every note. -/
  lead : String := Notice.defaultLead
  /-- Whether notices are attached to the generated code. -/
  emitNotices : Bool := true
deriving Repr

/-- The values of the aliases of a combination. -/
def Combination.evaluate (library : Library) (key : String) (combination : Combination) :
    Except Error Environment := do
  let scope ← Scope.empty.resolveAll library combination.bindings
  Environment.ofBindings key scope.metadata combination.bindings

/-- The block of a combination with its aliases replaced. -/
def Combination.execute (library : Library) (key : String) (combination : Combination) :
    Except Error (List Token) := do
  let values ← combination.evaluate library key
  substitute values .block combination.block

namespace Invocation

/-- The code of an invocation. `finish` is applied to the block of every combination. -/
def execute (library : Library) (key : String) (finish : List Token → List Token)
    (invocation : Invocation) : Except Error (List Token) := do
  let combinations ← invocation.combinations
  let blocks ← combinations.mapM fun combination =>
    return finish (← combination.execute library key)
  return blocks.flatten

end Invocation

/-- Expand an invocation given by its source into the tokens of its code. -/
def expand (options : Options) (source : String) : Except Error (List Token) := do
  let (invocation, state) ← (Invocation.ofSource source 0).mapError .ofSyntax
  let finish := if options.emitNotices then Notice.emit options.lead state.notices else id
  invocation.execute .builtin options.key finish

/-- Expand an invocation and render its code. -/
def compose (options : Options) (source : String) : Except Error String :=
  return Token.renderAll (← expand options source)

end AliasExpansion
