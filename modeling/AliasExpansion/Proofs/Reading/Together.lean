-- SUMMARY: Two runs of the readers of an invocation, over token lists that agree where they look.
import AliasExpansion.Invocation.Reader
import AliasExpansion.Proofs.Grammar.Runs
import AliasExpansion.Proofs.Outcome

/-!
# Reading side by side

Two readers that are run side by side either both fail, or both succeed with results that are
related (`Outcome.Both`). The rules for `Reading.Together` follow the sequence of two readers. What
comes next in the token lists, and the supply of identities, is all that the rules keep track of
(`ReadState.Beside`): neither faults nor notices matter.

Loops are read from four tokens each, so lists that agree in these tokens give the same loops
(`Invocation.together_readLoops`).
-/

namespace AliasExpansion

/-- Both computations fail, or both succeed with related results. -/
inductive Outcome.Both {ε α α' : Type} (R : α → α' → Prop) : Except ε α → Except ε α' → Prop
  | ok {a : α} {a' : α'} (related : R a a') : Both R (.ok a) (.ok a')
  | error (e e' : ε) : Both R (.error e) (.error e')

namespace Outcome.Both

variable {ε α α' β β' : Type} {R : α → α' → Prop} {x : Except ε α} {x' : Except ε α'}

theorem bind {S : β → β' → Prop} {f : α → Except ε β} {f' : α' → Except ε β'} (h : Both R x x')
    (hf : ∀ a a', R a a' → Both S (f a) (f' a')) : Both S (x >>= f) (x' >>= f') := by
  cases h with
  | ok related => exact hf _ _ related
  | error e e' => exact .error e e'

theorem mono {S : α → α' → Prop} (h : Both R x x') (imp : ∀ a a', R a a' → S a a') :
    Both S x x' := by
  cases h with
  | ok related => exact .ok (imp _ _ related)
  | error e e' => exact .error e e'

theorem exists_ok {a : α} (h : Both R (.ok a) x') : ∃ a', x' = .ok a' ∧ R a a' := by
  cases h with
  | ok related => exact ⟨_, rfl, related⟩

theorem exists_ok_left {a' : α'} (h : Both R x (.ok a')) : ∃ a, x = .ok a ∧ R a a' := by
  cases h with
  | ok related => exact ⟨_, rfl, related⟩

end Outcome.Both

/-- Two runs have got to `tokens` and `tokens'`, with the same identities left. -/
structure ReadState.Beside (tokens tokens' : List Token) (state state' : ReadState) : Prop where
  left : state.cursor.rest = tokens
  right : state'.cursor.rest = tokens'
  nextId : state.nextId = state'.nextId

-- ---------------------------------------------------------------------------
-- Sequences
-- ---------------------------------------------------------------------------

namespace Reading

open Outcome

variable {α α' β β' : Type} {P : ReadState → ReadState → Prop}
  {R : α → α' → ReadState → ReadState → Prop} {tokens tokens' : List Token}

/-- Run from states that `P` relates, both readers fail, or both succeed with results and states
    that `R` relates. -/
def Together (P : ReadState → ReadState → Prop) (R : α → α' → ReadState → ReadState → Prop)
    (read : Reading α) (read' : Reading α') : Prop :=
  ∀ state state', P state state' →
    Both (fun result result' => R result.1 result'.1 result.2 result'.2) (read.run state)
      (read'.run state')

/-- The readers give the same, and get to `tokens` and `tokens'`. -/
abbrev Same (tokens tokens' : List Token) (a b : α) (state state' : ReadState) : Prop :=
  a = b ∧ state.Beside tokens tokens' state'

namespace Together

theorem bind {read : Reading α} {read' : Reading α'} {f : α → Reading β} {f' : α' → Reading β'}
    {Q : β → β' → ReadState → ReadState → Prop} (h : Together P R read read')
    (hf : ∀ a a', Together (R a a') Q (f a) (f' a')) :
    Together P Q (read >>= f) (read' >>= f') := by
  intro state state' related
  rw [StateT.run_bind, StateT.run_bind]
  exact (h state state' related).bind fun result result' => hf _ _ _ _

/-- What the results of the first readers have to do with each other may be used for the second
    ones. -/
theorem bind_related {S : α → α' → Prop} {read : Reading α} {read' : Reading α'}
    {f : α → Reading β} {f' : α' → Reading β'} {Q : β → β' → ReadState → ReadState → Prop}
    (h : Together P (fun a a' state state' => S a a' ∧ state.Beside tokens tokens' state') read
      read')
    (hf : ∀ a a', S a a' → Together (ReadState.Beside tokens tokens') Q (f a) (f' a')) :
    Together P Q (read >>= f) (read' >>= f') :=
  h.bind fun a a' state state' related => hf a a' related.1 state state' related.2

theorem bind_same {read read' : Reading α} {f : α → Reading β} {f' : α → Reading β'}
    {Q : β → β' → ReadState → ReadState → Prop} (h : Together P (Same tokens tokens') read read')
    (hf : ∀ a, Together (ReadState.Beside tokens tokens') Q (f a) (f' a)) :
    Together P Q (read >>= f) (read' >>= f') :=
  h.bind_related (S := Eq) fun a _ eq => eq ▸ hf a

theorem pure {a : α} {a' : α'} (h : ∀ state state', P state state' → R a a' state state') :
    Together P R (Pure.pure a) (Pure.pure a') :=
  fun state state' related => .ok (h state state' related)

theorem throw (e e' : SyntaxError) :
    Together P R (MonadExcept.throw e : Reading α) (MonadExcept.throw e' : Reading α') :=
  fun _ _ _ => .error e e'

theorem failAtCursor (fault fault' : InvocationFault) :
    Together P R (Reading.failAtCursor fault : Reading α)
      (Reading.failAtCursor fault' : Reading α') :=
  fun _ _ _ => .error _ _

theorem failAtCursor_bind (fault fault' : InvocationFault) (f : α → Reading β)
    (f' : α' → Reading β') {Q : β → β' → ReadState → ReadState → Prop} :
    Together P Q (Reading.failAtCursor fault >>= f) (Reading.failAtCursor fault' >>= f') :=
  fun _ _ _ => .error _ _

theorem lift (result : Except SyntaxError α) :
    Together (ReadState.Beside tokens tokens') (Same tokens tokens') (liftM result : Reading α)
      (liftM result) := by
  intro state state' beside
  cases result with
  | ok a => exact .ok ⟨rfl, beside⟩
  | error e => exact .error e e

theorem withFresh {read : StateM NodeId α} {read' : StateM NodeId α'} {S : α → α' → Prop}
    (h : ∀ next, S (read.run next).1 (read'.run next).1 ∧ (read.run next).2 = (read'.run next).2) :
    Together (ReadState.Beside tokens tokens') (fun a a' state state' =>
      S a a' ∧ state.Beside tokens tokens' state') (withFresh read) (withFresh read') := by
  rintro ⟨cursor, next, notices⟩ ⟨cursor', next', notices'⟩ ⟨left, right, nextId⟩
  cases nextId
  exact .ok ⟨(h next).1, left, right, (h next).2⟩

theorem withFresh_self (read : StateM NodeId α) :
    Together (ReadState.Beside tokens tokens') (Same tokens tokens') (Reading.withFresh read)
      (Reading.withFresh read) :=
  withFresh fun _ => ⟨rfl, rfl⟩

theorem notify (notice notice' : Notice) :
    Together (ReadState.Beside tokens tokens') (Same tokens tokens') (Reading.notify notice)
      (Reading.notify notice') :=
  fun _ _ beside => .ok ⟨rfl, beside.left, beside.right, beside.nextId⟩

/-- A notice on one side makes no difference. -/
theorem notify_bind (notice : Notice) {f : Unit → Reading α} {read' : Reading α'}
    (h : Together (ReadState.Beside tokens tokens') R (f ()) read') :
    Together (ReadState.Beside tokens tokens') R (Reading.notify notice >>= f) read' :=
  fun _ state' beside => h _ state' ⟨beside.left, beside.right, beside.nextId⟩

theorem mapM {read read' : α → Reading β} (items : List α)
    (h : ∀ item, Together (ReadState.Beside tokens tokens') (Same tokens tokens') (read item)
      (read' item)) :
    Together (ReadState.Beside tokens tokens') (Same tokens tokens') (items.mapM read)
      (items.mapM read') := by
  induction items with
  | nil => exact .pure fun _ _ beside => ⟨rfl, beside⟩
  | cons item rest ih =>
    rw [List.mapM_cons, List.mapM_cons]
    refine (h item).bind_same fun first => ih.bind_same fun others => ?_
    exact .pure fun _ _ beside => ⟨rfl, beside⟩

end Together

-- ---------------------------------------------------------------------------
-- What comes next
-- ---------------------------------------------------------------------------

/-- After a look at the state, the next tokens are known. -/
theorem Together.get_bind {f : ReadState → Reading α} {f' : ReadState → Reading α'}
    (h : ∀ state state', state.Beside tokens tokens' state' →
      Together (ReadState.Beside tokens tokens') R (f state) (f' state')) :
    Together (ReadState.Beside tokens tokens') R (get >>= f) (get >>= f') :=
  fun state state' beside => h state state' beside state state' beside

/-- After a look at what comes next, it is known. -/
theorem Together.peek_bind {f : Option Token → Reading α} {f' : Option Token → Reading α'}
    (h : Together (ReadState.Beside tokens tokens') R (f tokens.head?) (f' tokens'.head?)) :
    Together (ReadState.Beside tokens tokens') R (peek >>= f) (peek >>= f') := by
  rintro state state' ⟨rfl, rfl, nextId⟩
  exact h state state' ⟨rfl, rfl, nextId⟩

theorem together_advance (count count' : Nat) :
    Together (ReadState.Beside tokens tokens')
      (Same (tokens.drop count) (tokens'.drop count')) (advance count) (advance count') := by
  rintro state state' ⟨rfl, rfl, nextId⟩
  exact .ok ⟨rfl, Cursor.advance_rest count _, Cursor.advance_rest count' _, nextId⟩

/-- The reader looks at one token, and goes on behind it. -/
def TakesOne (read : Reading α) : Prop :=
  ∀ ⦃tokens tokens' : List Token⦄ ⦃place : Nat⦄, tokens[place]? = tokens'[place]? →
    Together (ReadState.Beside (tokens.drop place) (tokens'.drop place))
      (Same (tokens.drop (place + 1)) (tokens'.drop (place + 1))) read read

theorem together_advance_drop {place : Nat} :
    Together (ReadState.Beside (tokens.drop place) (tokens'.drop place))
      (Same (tokens.drop (place + 1)) (tokens'.drop (place + 1))) (advance 1) (advance 1) := by
  rw [← List.drop_drop, ← List.drop_drop]
  exact together_advance 1 1

theorem TakesOne.first {read : Reading α} (h : TakesOne read)
    (same : tokens.head? = tokens'.head?) :
    Together (ReadState.Beside tokens tokens') (Same (tokens.drop 1) (tokens'.drop 1)) read read :=
  @h tokens tokens' 0 (by rwa [← List.head?_eq_getElem?, ← List.head?_eq_getElem?])

theorem takesOne_identifier : TakesOne identifier := by
  intro tokens tokens' place same
  refine .peek_bind ?_
  rw [List.head?_drop, List.head?_drop, ← same]
  split
  · split
    · refine together_advance_drop.bind_same fun _ => ?_
      exact .pure fun _ _ beside => ⟨rfl, beside⟩
    · exact .failAtCursor _ _
  · exact .failAtCursor _ _

theorem takesOne_word (text : String) : TakesOne (word text) := by
  intro tokens tokens' place same
  refine .peek_bind ?_
  rw [List.head?_drop, List.head?_drop, ← same]
  split
  · exact together_advance_drop
  · exact .failAtCursor _ _

theorem takesOne_group (delimiter : Delimiter) : TakesOne (group delimiter) := by
  intro tokens tokens' place same
  refine .peek_bind ?_
  rw [List.head?_drop, List.head?_drop, ← same]
  split
  · split
    · refine together_advance_drop.bind_same fun _ => ?_
      exact .pure fun _ _ beside => ⟨rfl, beside⟩
    · exact .failAtCursor _ _
  · exact .failAtCursor _ _

end Reading

-- ---------------------------------------------------------------------------
-- Loops
-- ---------------------------------------------------------------------------

open Reading

theorem LoopValue.together_readWithin {rest rest' : List Token} :
    ∀ (depth : Nat) (tokens : List Token),
      Together (ReadState.Beside rest rest') (Same rest rest') (readWithin depth tokens)
        (readWithin depth tokens)
  | 0, tokens => by
    unfold readWithin
    refine (Together.withFresh_self _).bind_same fun expr => ?_
    exact .pure fun _ _ beside => ⟨rfl, beside⟩
  | depth + 1, tokens => by
    unfold readWithin
    split
    · refine (Together.lift _).bind_same fun items => ?_
      refine (Together.mapM items (together_readWithin _)).bind_same fun values => ?_
      exact .pure fun _ _ beside => ⟨rfl, beside⟩
    · refine (Together.withFresh_self _).bind_same fun expr => ?_
      exact .pure fun _ _ beside => ⟨rfl, beside⟩

namespace Invocation

variable {tokens tokens' : List Token}

/-- Read the values of a loop with a given pattern, and make the loop. -/
def readLoopValues (pattern : LoopPattern) (span : Span) : Reading Loop := do
  word "in"
  let (content, listSpan) ← group .bracket
  let items ← Token.items content listSpan
  return { pattern, values := ← items.mapM LoopValue.read, span }

theorem together_readLoop (span : Span) (same : tokens.take 4 = tokens'.take 4) :
    Together (ReadState.Beside tokens tokens') (Same (tokens.drop 4) (tokens'.drop 4))
      (readLoop span) (readLoop span) := by
  have at_place (place : Nat) (lt : place < 4) : tokens[place]? = tokens'[place]? := by
    rw [← List.getElem?_take_of_lt lt, same, List.getElem?_take_of_lt lt]
  have values (pattern : LoopPattern) :
      Together (ReadState.Beside (tokens.drop 2) (tokens'.drop 2))
        (Same (tokens.drop 4) (tokens'.drop 4))
        (readLoopValues pattern span) (readLoopValues pattern span) := by
    refine (takesOne_word _ (at_place 2 (by decide))).bind_same fun _ => ?_
    refine (takesOne_group _ (at_place 3 (by decide))).bind_same fun list => ?_
    refine (Together.lift _).bind_same fun items => ?_
    refine (Together.mapM items (fun _ => LoopValue.together_readWithin _ _)).bind_same fun _ => ?_
    exact .pure fun _ _ beside => ⟨rfl, beside⟩
  refine ((takesOne_word _).first ?_).bind_same fun _ => ?_
  · rw [List.head?_eq_getElem?, List.head?_eq_getElem?, at_place 0 (by decide)]
  refine .peek_bind ?_
  rw [List.head?_drop, List.head?_drop, ← at_place 1 (by decide)]
  cases tokens[1]? with
  | some token =>
    refine (Together.lift _).bind_same fun pattern => ?_
    exact together_advance_drop.bind_same fun _ => values pattern
  | none => exact .failAtCursor_bind _ _ _ _

/-- The number of tokens that the loops at the start of a token list take up. -/
def loopLength : (limit : Nat) → List Token → Nat
  | limit + 1, token :: rest =>
    if isWord "for" token then loopLength limit (rest.drop 3) + 4 else 0
  | _, _ => 0

theorem loopLength_nil (limit : Nat) : loopLength limit [] = 0 := by
  cases limit <;> rfl

theorem readLoops_nil (limit : Nat) {state : ReadState} (h : state.cursor.rest = []) :
    (readLoops limit).run state = .ok ([], state) := by
  cases limit with
  | zero => rfl
  | succ limit =>
    have none : peek.run state = .ok (none, state) := by rw [← List.head?_nil, ← h]; rfl
    rw [readLoops, StateT.run_bind, none]
    rfl

theorem together_readLoops_nil (limit limit' : Nat) :
    Together (ReadState.Beside [] []) (Same [] []) (readLoops limit) (readLoops limit') := by
  intro state state' beside
  rw [readLoops_nil _ beside.left, readLoops_nil _ beside.right]
  exact .ok ⟨rfl, beside⟩

/-- Token lists that agree in the tokens of their loops, and in the next one, have the same
    loops. -/
theorem together_readLoops {limit limit' : Nat} {tokens tokens' : List Token}
    (le : tokens.length ≤ limit) (le' : tokens'.length ≤ limit')
    (same : tokens.take (loopLength limit tokens + 1)
      = tokens'.take (loopLength limit tokens + 1)) :
    Together (ReadState.Beside tokens tokens')
      (Same (tokens.drop (loopLength limit tokens)) (tokens'.drop (loopLength limit tokens)))
      (readLoops limit) (readLoops limit') := by
  induction limit generalizing limit' tokens tokens' with
  | zero =>
    obtain rfl := List.length_eq_zero_iff.mp (Nat.le_zero.mp le)
    obtain rfl : tokens' = [] := by simpa using same.symm
    exact together_readLoops_nil 0 limit'
  | succ limit ih =>
    obtain _ | ⟨token, rest⟩ := tokens
    · obtain rfl : tokens' = [] := by simpa using same.symm
      rw [loopLength_nil]
      exact together_readLoops_nil _ limit'
    obtain _ | ⟨token', rest'⟩ := tokens'
    · simp at same
    obtain rfl : token = token' := by simpa using congrArg List.head? same
    obtain _ | limit' := limit'
    · simp at le'
    unfold readLoops
    refine .peek_bind ?_
    rw [List.head?_cons, List.head?_cons]
    by_cases isFor : isWord "for" token = true
    · simp only [if_pos isFor, loopLength] at same ⊢
      have first : (token :: rest).take 4 = (token :: rest').take 4 := by
        simpa [List.take_take] using congrArg (List.take 4) same
      have others : (rest.drop 3).take (loopLength limit (rest.drop 3) + 1)
          = (rest'.drop 3).take (loopLength limit (rest.drop 3) + 1) := by
        have dropped := congrArg (List.drop 4) same
        rw [List.drop_take, List.drop_take, Nat.add_right_comm, Nat.add_sub_cancel] at dropped
        exact dropped
      have fewer : (rest.drop 3).length ≤ limit := by
        simp only [List.length_cons, List.length_drop] at le ⊢
        omega
      have fewer' : (rest'.drop 3).length ≤ limit' := by
        simp only [List.length_cons, List.length_drop] at le' ⊢
        omega
      have loops := ih fewer fewer' others
      refine (together_readLoop _ first).bind_same fun loop => ?_
      refine loops.bind_same fun loops => ?_
      rw [Nat.add_comm, ← List.drop_drop, ← List.drop_drop]
      exact .pure fun _ _ beside => ⟨rfl, beside⟩
    · simp only [if_neg isFor, loopLength]
      exact .pure fun _ _ beside => ⟨rfl, beside⟩

-- ---------------------------------------------------------------------------
-- Values of bindings
-- ---------------------------------------------------------------------------

/-- Whether a token may be part of the value of a binding. -/
def isOfValue (token : Token) : Bool :=
  (separatorOf? token).isNone

/-- Read the value of a binding of `name`, and make the binding. -/
def readBound (name : String) (span : Span) : Reading Binding := do
  let rest := (← get).cursor.rest
  let tokens := rest.takeWhile isOfValue
  advance tokens.length
  if tokens.isEmpty then failAtCursor .expectedValue
  return { name, span, expr := ← readValue (Token.detach tokens) }

end Invocation

end AliasExpansion
