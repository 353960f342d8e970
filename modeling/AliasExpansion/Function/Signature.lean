-- SUMMARY: Function signatures: parameters, of which the last may be variadic, and a result type.
import AliasExpansion.Value.Type

/-!
# Signatures

A signature has fixed parameters and at most one variadic parameter after them. A raw parameter
takes the whole argument list unread, so it stands alone; the type keeps this invariant.
-/

namespace AliasExpansion

structure Signature where
  name : String
  fixed : List ValueType
  variadic : Option ValueType
  output : ValueType
  raw_alone : .raw ∈ fixed → fixed = [.raw] ∧ variadic = none := by decide
deriving DecidableEq

/-- Why a list of parameters forms no signature. -/
inductive SignatureFault where
  | severalVariadic (name : String)
  | variadicNotLast (name : String)
  | rawNotAlone (name : String)
deriving DecidableEq, Repr

def SignatureFault.message : SignatureFault → String
  | .severalVariadic name => name ++ ": at most one variadic parameter"
  | .variadicNotLast name => name ++ ": variadic parameter must be last"
  | .rawNotAlone name => name ++ ": raw parameter must be alone"

def ParamType.isVariadic : ParamType → Bool
  | .one _ => false
  | .many _ => true

def ParamType.valueType : ParamType → ValueType
  | .one value | .many value => value

namespace Signature

/-- The signature with given parts, unless a raw parameter has company. -/
def ofParts (name : String) (fixed : List ValueType) (variadic : Option ValueType)
    (output : ValueType) : Except SignatureFault Signature :=
  if h : .raw ∈ fixed → fixed = [.raw] ∧ variadic = none then
    .ok { name, fixed, variadic, output, raw_alone := h }
  else .error (.rawNotAlone name)

def ofParams (name : String) (params : List ParamType) (output : ValueType) :
    Except SignatureFault Signature :=
  match params.filter ParamType.isVariadic, params.getLast? with
  | [], _ => ofParts name (params.map ParamType.valueType) none output
  | [_], some (.many value) =>
    ofParts name (params.dropLast.map ParamType.valueType) (some value) output
  | [_], _ => .error (.variadicNotLast name)
  | _ :: _ :: _, _ => .error (.severalVariadic name)

def params (signature : Signature) : List ParamType :=
  signature.fixed.map .one ++ signature.variadic.toList.map .many

def isVariadic (signature : Signature) : Bool :=
  signature.variadic.isSome

def isRaw (signature : Signature) : Bool :=
  signature.fixed == [.raw]

def arity (signature : Signature) : Nat :=
  signature.params.length

/-- Whether the signature can be called with `count` arguments. A variadic parameter takes at
    least one. -/
def admits (signature : Signature) (count : Nat) : Bool :=
  if signature.isVariadic then signature.arity ≤ count else count == signature.arity

def render (signature : Signature) : String :=
  signature.name ++ "(" ++ ", ".intercalate (signature.params.map ParamType.name) ++ ") -> " ++
    signature.output.name

end Signature

end AliasExpansion
