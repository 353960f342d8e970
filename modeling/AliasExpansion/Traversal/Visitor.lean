-- SUMMARY: Walking a token stream with a visitor that keeps, drops or replaces what it meets.
import AliasExpansion.Traversal.Frames

/-!
# Visitors

A visitor decides for every token it is shown whether to keep, drop or replace it. A group is
shown three times: as a token before it is entered, by its content on entering, and by its
changed content on leaving. The outermost stream is shown on leaving only. What replaces a
token is not visited again; what replaces the content of a group on entering is.

The walk is a machine over `Frames`, so that a visitor sees the whole stream as it stands at any
moment. `Visitor.step` is one transition.
-/

namespace AliasExpansion

inductive Action where
  | keep
  | drop
  | replace (tokens : List Token)
deriving Repr

/-- A decision of a visitor with state `σ`. -/
abbrev Hook (σ α : Type) := StateT σ (Except Error) α

structure Visitor (σ : Type) where
  /-- Called on an atom. -/
  atom : Frames → Token → Hook σ Action := fun _ _ => return .keep
  /-- Called on a group before it is entered. -/
  group : Frames → Token → Hook σ Action := fun _ _ => return .keep
  /-- Called on the content of a group that has just been entered. -/
  enter : Frames → List Token → Hook σ Action := fun _ _ => return .keep
  /-- Called on the content of a frame at its end. -/
  leave : Frames → List Token → Hook σ Action := fun _ _ => return .keep
  /-- Called after every replacement. -/
  replaced : Frames → Hook σ Unit := fun _ => return ()

namespace Visitor

variable {σ : Type} (visitor : Visitor σ)

/-- Carry out a decision about the current token. -/
def apply (frames : Frames) : Action → Hook σ Frames
  | .keep => return frames.edit Frame.advance
  | .drop => return frames.edit Frame.remove
  | .replace tokens => do
    let frames := frames.edit (·.replace tokens)
    let frames := if tokens.isEmpty then frames else frames.edit Frame.advance
    visitor.replaced frames
    return frames

/-- Enter a group unless the visitor decides about it as a whole. -/
def enterGroup (frames : Frames) (token : Token) (content : List Token) : Hook σ Frames := do
  match ← visitor.group frames token with
  | .keep =>
    let inner := frames.push content
    match ← visitor.enter inner content with
    | .keep => return inner
    | .drop => inner.popRemove
    | .replace tokens =>
      let inner := inner.replaceContent tokens
      visitor.replaced inner
      return inner
  | action => visitor.apply frames action

/-- Close a frame that is not the bottom one. -/
def leaveGroup (frames : Frames) (content : List Token) : Hook σ Frames := do
  match ← visitor.leave frames content with
  | .keep => return (← frames.popFold).edit Frame.advance
  | .drop => frames.popRemove
  | .replace tokens =>
    let outer := (← (frames.replaceContent tokens).popFold).edit Frame.advance
    visitor.replaced outer
    return outer

/-- The final stream. -/
def finish (frames : Frames) (content : List Token) : Hook σ (List Token) := do
  match ← visitor.leave frames content with
  | .keep => return content
  | .drop => return []
  | .replace tokens =>
    visitor.replaced (frames.replaceContent tokens)
    return tokens

/-- One transition: to further frames, or to the result. -/
def step (frames : Frames) : Hook σ (Frames ⊕ List Token) := do
  let frame ← frames.top
  match frame.current? with
  | none =>
    if frames.depth = 1 then return .inr (← visitor.finish frames frame.tokens)
    else return .inl (← visitor.leaveGroup frames frame.tokens)
  | some (.group delimiter content span) =>
    return .inl (← visitor.enterGroup frames (.group delimiter content span) content)
  | some token => return .inl (← visitor.apply frames (← visitor.atom frames token))

/-- Walk on from `frames` for at most `limit` steps. -/
def walkFrom : (limit : Nat) → Frames → Hook σ (List Token)
  | 0, _ => throw (.internal .stepLimit none)
  | limit + 1, frames => do
    match ← visitor.step frames with
    | .inl frames => walkFrom limit frames
    | .inr tokens => return tokens

/-- Walk a stream in at most `limit` steps. -/
def walk (limit : Nat) (tokens : List Token) : Hook σ (List Token) :=
  visitor.walkFrom limit (.start tokens)

end Visitor

/-- The number of steps of a walk that enters groups with the content they have: one for every
    atom, two for every group, and one at the end. -/
def Token.walkLength (tokens : List Token) : Nat :=
  2 * Token.weights tokens + 1

end AliasExpansion
