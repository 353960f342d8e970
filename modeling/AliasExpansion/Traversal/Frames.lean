-- SUMMARY: Frames: a place inside nested groups, with edits of the tokens around it.
import AliasExpansion.Error
import AliasExpansion.Token.Render

/-!
# Frames

A frame is a token list with a cursor. Frames form a stack: the bottom frame is a whole stream,
and every other frame is the content of the group at the cursor of the frame below it, possibly
edited. Closing a frame folds its content back into that group.
-/

namespace AliasExpansion

structure Frame where
  cursor : Nat
  tokens : List Token
deriving Repr

namespace Frame

def current? (frame : Frame) : Option Token :=
  frame.tokens[frame.cursor]?

def isExhausted (frame : Frame) : Bool :=
  frame.tokens.length ≤ frame.cursor

/-- Move on to the next token, at most up to the end. -/
def advance (frame : Frame) : Frame :=
  { frame with cursor := min frame.tokens.length (frame.cursor + 1) }

/-- Splice tokens in place of the current one. The cursor moves onto the last of them, or stays
    where it is when there are none. -/
def replace (frame : Frame) (replacement : List Token) : Frame :=
  let tokens :=
    frame.tokens.take frame.cursor ++ replacement ++ frame.tokens.drop (frame.cursor + 1)
  { tokens, cursor := min tokens.length (frame.cursor + (replacement.length - 1)) }

def remove (frame : Frame) : Frame :=
  { frame with tokens := frame.tokens.eraseIdx frame.cursor }

/-- The frame with its current group holding `content`. -/
def fold (frame : Frame) (content : List Token) : Except Error Frame :=
  match frame.current? with
  | some (.group delimiter _ span) =>
    .ok { frame with tokens := frame.tokens.set frame.cursor (.group delimiter content span) }
  | some token => .error (.internal (.notAGroup token.render) none)
  | none => .error .noFrame

end Frame

/-- A stack of frames, innermost first. -/
structure Frames where
  stack : List Frame
deriving Repr

namespace Frames

def start (tokens : List Token) : Frames where
  stack := [{ cursor := 0, tokens }]

def depth (frames : Frames) : Nat :=
  frames.stack.length

/-- The innermost frame. -/
def top (frames : Frames) : Except Error Frame :=
  match frames.stack with
  | frame :: _ => .ok frame
  | [] => .error .noFrame

/-- Change the innermost frame. -/
def edit (frames : Frames) (change : Frame → Frame) : Frames where
  stack := frames.stack.modifyHead change

/-- Open a frame over `tokens`. -/
def push (frames : Frames) (tokens : List Token) : Frames where
  stack := { cursor := 0, tokens } :: frames.stack

/-- Close the innermost frame and fold its content into the group that it came from. -/
def popFold (frames : Frames) : Except Error Frames :=
  match frames.stack with
  | frame :: parent :: rest => return { stack := (← parent.fold frame.tokens) :: rest }
  | [_] => .ok { stack := [] }
  | [] => .error .noFrame

/-- Close the innermost frame and drop the group that it came from. -/
def popRemove (frames : Frames) : Except Error Frames :=
  match frames.stack with
  | _ :: parent :: rest =>
    if parent.isExhausted then .error .noFrame else .ok { stack := parent.remove :: rest }
  | [_] => .ok { stack := [] }
  | [] => .error .noFrame

/-- Put other content into the innermost frame. The cursor stays. -/
def replaceContent (frames : Frames) (content : List Token) : Frames :=
  frames.edit fun frame => { frame with tokens := content }

/-- The whole stream as it stands, with all open frames folded in. -/
def stream (frames : Frames) : Except Error (List Token) :=
  match frames.stack with
  | frame :: parents =>
    parents.foldlM (fun content parent => return (← parent.fold content).tokens) frame.tokens
  | [] => .error .noFrame

end Frames

end AliasExpansion
