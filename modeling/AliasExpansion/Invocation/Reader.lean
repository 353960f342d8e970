-- SUMMARY: Reading an invocation from tokens, and the notices that its spelling gives rise to.
import AliasExpansion.Invocation.Basic
import AliasExpansion.Notice.Basic
import AliasExpansion.Token.Tree

/-!
# Reading invocations

The form of an invocation is

* loops, each `for pattern in [values]`;
* bindings, each `name = value` with a separator after it;
* the block in braces, after which a separator may stand.

A pattern is a name or a parenthesized tuple of patterns; loop values may be tuples likewise. All
separators of an invocation must be the same. Two legacy spellings are accepted with a notice:
semicolons as separators, and a value in brackets for a concatenation.
-/

namespace AliasExpansion

/-- Where reading has got to. -/
structure ReadState where
  cursor : Cursor
  nextId : NodeId
  notices : List Notice

/-- A step of reading, which may fail. -/
abbrev Reading := StateT ReadState (Except SyntaxError)

namespace Cursor

/-- A fault at the next token, or at the last one when there is no next. -/
def fault (cursor : Cursor) (fault : InvocationFault) : SyntaxError where
  fault := .invocation fault
  span :=
    match cursor.rest with
    | token :: _ => some token.span
    | [] => cursor.previous.map Token.span

end Cursor

namespace Reading

def peek : Reading (Option Token) :=
  return (← get).cursor.rest.head?

def advance (count : Nat) : Reading Unit :=
  modify fun state => { state with cursor := state.cursor.advance count }

def failAtCursor {α : Type} (fault : InvocationFault) : Reading α := do
  throw ((← get).cursor.fault fault)

def notify (notice : Notice) : Reading Unit :=
  modify fun state => { state with notices := notice.insert state.notices }

/-- Run a reader of expressions on the supply of identities. -/
def withFresh {α : Type} (read : StateM NodeId α) : Reading α :=
  modifyGet fun state =>
    let (result, nextId) := read.run state.nextId
    (result, { state with nextId })

def identifier : Reading (String × Span) := do
  match ← peek with
  | some (.ident name span) =>
    if Name.isIdentifier name then
      advance 1
      return (name, span)
    else failAtCursor .expectedIdentifier
  | _ => failAtCursor .expectedIdentifier

def isWord (word : String) : Token → Bool
  | .ident name _ => name == word
  | _ => false

def word (word : String) : Reading Unit := do
  if (← peek).any (isWord word) then advance 1 else failAtCursor (.expectedWord word)

/-- The content of a group, and its span. -/
def group (delimiter : Delimiter) : Reading (List Token × Span) := do
  match ← peek with
  | some (.group d content span) =>
    if d = delimiter then
      advance 1
      return (content, span)
    else failAtCursor (.expectedGroup delimiter)
  | _ => failAtCursor (.expectedGroup delimiter)

end Reading

/-- The parts between commas, none of which may be empty. `span` is the place of the whole list. -/
def Token.items (tokens : List Token) (span : Span) : Except SyntaxError (List (List Token)) :=
  let parts := Token.commaParts tokens
  if parts.contains [] then .error { fault := .invocation .emptyItem, span := some span }
  else .ok parts

-- ---------------------------------------------------------------------------
-- Loops
-- ---------------------------------------------------------------------------

namespace LoopPattern

/-- Read the pattern at the start of `tokens`, a part of a tuple, which must not go on after it. -/
def readPart (readToken : Token → Except SyntaxError LoopPattern) (tokens : List Token) :
    Except SyntaxError LoopPattern :=
  match tokens with
  | [] => .error ((Cursor.start []).fault .expectedIdentifier)
  | token :: rest => do
    let pattern ← readToken token
    if rest.isEmpty then return pattern
    else throw ({ previous := some token, rest : Cursor }.fault .expectedComma)

/-- Read a pattern in which tuples are nested at most `depth` deep. -/
def readWithin : (depth : Nat) → Token → Except SyntaxError LoopPattern
  | depth + 1, .group .parenthesis content span => do
    let items ← Token.items content span
    return .tuple (← items.mapM (readPart (readWithin depth))) span
  | _, .ident text span =>
    if Name.isIdentifier text then .ok (.name text span)
    else .error { fault := .invocation .expectedIdentifier, span := some span }
  | _, token => .error { fault := .invocation .expectedIdentifier, span := some token.span }

def read (token : Token) : Except SyntaxError LoopPattern :=
  readWithin token.depth token

end LoopPattern

namespace LoopValue

/-- Read a value in which tuples are nested at most `depth` deep. -/
def readWithin : (depth : Nat) → List Token → Reading LoopValue
  | depth + 1, [.group .parenthesis content span] => do
    let items ← Token.items content span
    return .tuple (← items.mapM (readWithin depth)) span
  | _, tokens => return .expr (← Reading.withFresh (Expr.read tokens))

def read (tokens : List Token) : Reading LoopValue :=
  readWithin (Token.depths tokens) tokens

end LoopValue

namespace Invocation

open Reading

def readLoop (span : Span) : Reading Loop := do
  word "for"
  let pattern ←
    match ← peek with
    | some token =>
      let pattern ← LoopPattern.read token
      advance 1
      pure pattern
    | none => failAtCursor .expectedIdentifier
  word "in"
  let (content, listSpan) ← group .bracket
  let items ← Token.items content listSpan
  return { pattern, values := ← items.mapM LoopValue.read, span }

/-- Read loops, of which there are at most `limit`. -/
def readLoops : (limit : Nat) → Reading (List Loop)
  | 0 => return []
  | limit + 1 => do
    match ← peek with
    | some token =>
      if isWord "for" token then
        let loop ← readLoop token.span
        return loop :: (← readLoops limit)
      else return []
    | none => return []

-- ---------------------------------------------------------------------------
-- Bindings
-- ---------------------------------------------------------------------------

def separatorOf? : Token → Option Separator
  | .punct char _ _ =>
    if char == ',' then some .comma else if char == ';' then some .semicolon else none
  | _ => none

/-- Whether the token is a bracket group that may be a concatenation. -/
def isLegacyConcatenation : Token → Bool
  | .group .bracket content _ => !content.any (Token.isPunct ';')
  | _ => false

def readValue (tokens : List Token) : Reading Expr := do
  match tokens with
  | [.group delimiter content span] =>
    if isLegacyConcatenation (.group delimiter content span) then
      notify .bracketSyntax
      withFresh (Expr.readConcatenation content span)
    else withFresh (Expr.read tokens)
  | _ => withFresh (Expr.read tokens)

def readBinding : Reading Binding := do
  let (name, span) ← identifier
  match ← peek with
  | some (.punct '=' false _) => advance 1
  | _ => failAtCursor .expectedEquals
  let rest := (← get).cursor.rest
  let tokens := rest.takeWhile fun token => (separatorOf? token).isNone
  advance tokens.length
  if tokens.isEmpty then failAtCursor .expectedValue
  return { name, span, expr := ← readValue (Token.detach tokens) }

/-- Take account of a separator after the ones before it agreed on `used`. -/
def checkSeparator (used : Option Separator) (next : Separator) (span : Span) :
    Reading Separator := do
  match used with
  | none =>
    if next = .semicolon then notify .semicolonSeparator
    return next
  | some used =>
    if used = next then return used
    else throw { fault := .invocation .mixedSeparators, span := some span }

/-- Read bindings, of which there are at most `limit`, with a separator after each. -/
def readBindings : (limit : Nat) → Option Separator → Reading (List Binding × Option Separator)
  | 0, used => return ([], used)
  | limit + 1, used => do
    match ← peek with
    | some (.ident _ _) =>
      let binding ← readBinding
      match ← peek with
      | some token =>
        match separatorOf? token with
        | some next =>
          let used ← checkSeparator used next token.span
          advance 1
          let (bindings, used) ← readBindings limit (some used)
          return (binding :: bindings, used)
        | none => failAtCursor .expectedSeparator
      | none => failAtCursor .expectedSeparator
    | _ => return ([], used)

-- ---------------------------------------------------------------------------
-- Whole invocations
-- ---------------------------------------------------------------------------

/-- Read what may follow the block: one separator. -/
def readEnding (used : Option Separator) : Reading Unit := do
  match ← peek with
  | some token =>
    match separatorOf? token with
    | some next =>
      if used.isSome then
        let _ ← checkSeparator used next token.span
      advance 1
    | none => failAtCursor .afterBlock
  | none => pure ()
  if (← get).cursor.atEnd then return else failAtCursor .afterBlock

def read : Reading Invocation := do
  let tokens := (← get).cursor.rest
  let loops ← readLoops tokens.length
  let (bindings, separator) ← readBindings tokens.length none
  let (block, _) ← group .brace
  Category.check .block block
  readEnding separator
  return { loops, bindings, separator, block, span := Token.firstSpan tokens }

/-- Read an invocation that spans all of `tokens`, with identities from `nextId` on. The final
    state holds the notices and the first unused identity. -/
def ofTokens (tokens : List Token) (nextId : NodeId) : Except SyntaxError (Invocation × ReadState) :=
  read.run { cursor := .start tokens, nextId, notices := [] }

/-- Read an invocation from a source text. -/
def ofSource (source : String) (nextId : NodeId) : Except SyntaxError (Invocation × ReadState) := do
  ofTokens (← Token.read source) nextId

end Invocation

end AliasExpansion
