-- SUMMARY: The nodes of an invocation have distinct identities.
import AliasExpansion.Invocation.Reader
import AliasExpansion.Proofs.Outcome
import AliasExpansion.Proofs.Reading.Together
import AliasExpansion.Proofs.Resolution.Assignment
import Mathlib.Data.List.Nodup

/-!
# Identities

Reading numbers the nodes of an invocation from a supply that only grows. Every reader takes its
identities from between the states before and after it, so those of two readers that follow each
other are distinct.
-/

namespace AliasExpansion

-- ---------------------------------------------------------------------------
-- Ranges
-- ---------------------------------------------------------------------------

/-- Distinct identities that were handed out while the supply went from `first` to `next`. -/
structure Numbered (first next : NodeId) (ids : List NodeId) : Prop where
  le : first ≤ next
  nodup : ids.Nodup
  bounds : ∀ id ∈ ids, first ≤ id ∧ id < next

namespace Numbered

variable {first middle next : NodeId} {ids ids' : List NodeId}

theorem nil (h : first ≤ next) : Numbered first next [] :=
  ⟨h, List.nodup_nil, nofun⟩

theorem singleton (next : NodeId) : Numbered next (next + 1) [next] where
  le := Nat.le_succ next
  nodup := List.nodup_singleton next
  bounds := by simp

theorem append (h : Numbered first middle ids) (h' : Numbered middle next ids') :
    Numbered first next (ids ++ ids') where
  le := h.le.trans h'.le
  nodup := by
    refine List.nodup_append'.2 ⟨h.nodup, h'.nodup, fun id hid hid' => ?_⟩
    exact lt_irrefl middle ((h'.bounds id hid').1.trans_lt (h.bounds id hid).2)
  bounds := by
    intro id hid
    rcases List.mem_append.1 hid with hid | hid
    · exact ⟨(h.bounds id hid).1, (h.bounds id hid).2.trans_le h'.le⟩
    · exact ⟨h.le.trans (h'.bounds id hid).1, (h'.bounds id hid).2⟩

theorem perm (h : Numbered first next ids) (hperm : ids.Perm ids') : Numbered first next ids' where
  le := h.le
  nodup := hperm.nodup_iff.1 h.nodup
  bounds := fun id hid => h.bounds id (hperm.mem_iff.2 hid)

end Numbered

-- ---------------------------------------------------------------------------
-- Expressions
-- ---------------------------------------------------------------------------

namespace Expr

theorem idsAll_eq_flatMap (arguments : List Expr) : idsAll arguments = arguments.flatMap ids := by
  induction arguments with
  | nil => rw [idsAll]; rfl
  | cons argument rest ih => rw [idsAll, ih, List.flatMap_cons]

/-- A reader of expressions takes the identities of its result from the supply. -/
def Numbers {α : Type} (ids : α → List NodeId) (read : StateM NodeId α) : Prop :=
  ∀ next, Numbered next (read.run next).2 (ids (read.run next).1)

theorem Numbers.mapM {α β : Type} {ids : β → List NodeId} {read : α → StateM NodeId β}
    (h : ∀ a, Numbers ids (read a)) (items : List α) :
    Numbers (List.flatMap ids) (items.mapM read) := by
  induction items with
  | nil => exact fun next => .nil le_rfl
  | cons item rest ih =>
    intro next
    rw [List.mapM_cons]
    exact (h item next).append (ih _)

theorem numbers_readLeaf (tokens : List Token) : Numbers ids (readLeaf tokens) :=
  fun next => Numbered.singleton next

theorem run_readCall (readArgument : List Token → StateM NodeId Expr) (name : String)
    (content : List Token) (listSpan span : Span) (next : NodeId) :
    (readCall readArgument name content listSpan span).run next =
      let parts := Token.commaParts content
      let arguments :=
        (if parts.contains [] then pure [] else parts.mapM readArgument : StateM NodeId _).run next
      let raw := { id := arguments.2, value := { type := .raw, tokens := content }, span := listSpan }
      (.call (arguments.2 + 1) name arguments.1 raw span, arguments.2 + 1 + 1) := by
  by_cases hempty : (Token.commaParts content).contains [] = true
  · simp only [readCall, if_pos hempty]
    rfl
  · simp only [readCall, if_neg hempty]
    rfl

theorem numbers_readCall {readArgument : List Token → StateM NodeId Expr}
    (h : ∀ tokens, Numbers ids (readArgument tokens)) (name : String) (content : List Token)
    (listSpan span : Span) : Numbers ids (readCall readArgument name content listSpan span) := by
  intro next
  have harguments : Numbers (List.flatMap ids)
      (if (Token.commaParts content).contains [] then pure []
        else (Token.commaParts content).mapM readArgument) := by
    split
    · exact fun next => .nil le_rfl
    · exact Numbers.mapM h _
  have hids := (harguments next).append ((Numbered.singleton _).append (Numbered.singleton _))
  rw [run_readCall]
  refine hids.perm ?_
  rw [ids, idsAll_eq_flatMap]
  exact List.perm_append_comm.trans (.swap _ _ _)

theorem numbers_readWithin : ∀ (depth : Nat) (tokens : List Token),
    Numbers ids (readWithin depth tokens)
  | 0, tokens => numbers_readLeaf tokens
  | depth + 1, tokens => by
    unfold readWithin
    split
    · split
      · exact numbers_readCall (numbers_readWithin depth) _ _ _ _
      · exact numbers_readLeaf _
    · exact numbers_readLeaf _

theorem numbers_read (tokens : List Token) : Numbers ids (read tokens) :=
  numbers_readWithin _ tokens

theorem numbers_readConcatenation (content : List Token) (span : Span) :
    Numbers ids (readConcatenation content span) :=
  numbers_readCall numbers_read _ _ _ _

end Expr

-- ---------------------------------------------------------------------------
-- Readers of invocations
-- ---------------------------------------------------------------------------

mutual

/-- The identities of all nodes of a loop value. -/
def LoopValue.ids : LoopValue → List NodeId
  | .expr e => e.ids
  | .tuple items _ => idsAll items

def LoopValue.idsAll : List LoopValue → List NodeId
  | [] => []
  | item :: rest => item.ids ++ idsAll rest

end

theorem LoopValue.idsAll_eq_flatMap (items : List LoopValue) :
    idsAll items = items.flatMap ids := by
  induction items with
  | nil => rw [idsAll]; rfl
  | cons item rest ih => rw [idsAll, ih, List.flatMap_cons]

def Loop.ids (loop : Loop) : List NodeId :=
  loop.values.flatMap LoopValue.ids

def Binding.ids (binding : Binding) : List NodeId :=
  binding.expr.ids

def Invocation.ids (invocation : Invocation) : List NodeId :=
  invocation.loops.flatMap Loop.ids ++ invocation.bindings.flatMap Binding.ids

namespace Reading

variable {α β : Type}

/-- A reader that may fail takes the identities of its result from the supply. -/
def Numbers (ids : α → List NodeId) (read : Reading α) : Prop :=
  ∀ state a after, read.run state = .ok (a, after) → Numbered state.nextId after.nextId (ids a)

/-- A reader leaves the supply alone. -/
def Still (read : Reading α) : Prop :=
  ∀ state a after, read.run state = .ok (a, after) → after.nextId = state.nextId

theorem run_bind_eq_ok {read : Reading α} {f : α → Reading β} {state : ReadState} {b : β}
    {after : ReadState} (h : (read >>= f).run state = .ok (b, after)) :
    ∃ a middle, read.run state = .ok (a, middle) ∧ (f a).run middle = .ok (b, after) := by
  rw [StateT.run_bind] at h
  obtain ⟨⟨a, middle⟩, hread, hf⟩ := Outcome.bind_eq_ok.1 h
  exact ⟨a, middle, hread, hf⟩

theorem Still.numbers {read : Reading α} (h : Still read) : Numbers (fun _ => []) read :=
  fun state a after hrun => .nil (h state a after hrun).ge

theorem Still.pure (a : α) : Still (Pure.pure a) := by
  rintro state _ _ ⟨⟩
  rfl

theorem Still.throw (e : SyntaxError) : Still (MonadExcept.throw e : Reading α) := nofun

theorem Still.bind {read : Reading α} {f : α → Reading β} (h : Still read)
    (hf : ∀ a, Still (f a)) : Still (read >>= f) := by
  intro state b after hrun
  obtain ⟨a, middle, hread, hrest⟩ := run_bind_eq_ok hrun
  rw [hf a middle b after hrest, h state a middle hread]

theorem Still.bind_numbers {ids : β → List NodeId} {read : Reading α} {f : α → Reading β}
    (h : Still read) (hf : ∀ a, Numbers ids (f a)) : Numbers ids (read >>= f) := by
  intro state b after hrun
  obtain ⟨a, middle, hread, hrest⟩ := run_bind_eq_ok hrun
  rw [← h state a middle hread]
  exact hf a middle b after hrest

/-- What is made of the result has the identities of the result. -/
theorem Numbers.bind_pure {ids : α → List NodeId} {ids' : β → List NodeId} {read : Reading α}
    {f : α → β} (h : Numbers ids read) (hf : ∀ a, ids' (f a) = ids a) :
    Numbers ids' (read >>= fun a => Pure.pure (f a)) := by
  intro state b after hrun
  obtain ⟨a, middle, hread, hrest⟩ := run_bind_eq_ok hrun
  cases hrest
  rw [hf]
  exact h state a _ hread

theorem Still.numbers_nil {ids : α → List NodeId} {read : Reading α} (h : Still read)
    (hids : ∀ state a after, read.run state = .ok (a, after) → ids a = []) : Numbers ids read := by
  intro state a after hrun
  rw [hids state a after hrun]
  exact .nil (h state a after hrun).ge

theorem still_get : Still (get : Reading ReadState) := by
  rintro state _ _ ⟨⟩
  rfl

theorem still_lift (result : Except SyntaxError α) : Still (liftM result : Reading α) := by
  cases result with
  | ok a => rintro state _ _ ⟨⟩; rfl
  | error e => nofun

theorem still_peek : Still peek := by
  rintro state _ _ ⟨⟩
  rfl

theorem still_advance (count : Nat) : Still (advance count) := by
  rintro state _ _ ⟨⟩
  rfl

theorem still_notify (notice : Notice) : Still (notify notice) := by
  rintro state _ _ ⟨⟩
  rfl

theorem still_failAtCursor (fault : InvocationFault) : Still (failAtCursor fault : Reading α) :=
  still_get.bind fun _ => .throw _

theorem still_identifier : Still identifier := by
  refine still_peek.bind fun token => ?_
  split
  · split
    · exact (still_advance 1).bind fun _ => .pure _
    · exact still_failAtCursor _
  · exact still_failAtCursor _

theorem still_word (text : String) : Still (word text) := by
  refine still_peek.bind fun token => ?_
  split
  · exact still_advance 1
  · exact still_failAtCursor _

theorem still_group (delimiter : Delimiter) : Still (group delimiter) := by
  refine still_peek.bind fun token => ?_
  split
  · split
    · exact (still_advance 1).bind fun _ => .pure _
    · exact still_failAtCursor _
  · exact still_failAtCursor _

theorem still_checkSeparator (used : Option Separator) (next : Separator) (span : Span) :
    Still (Invocation.checkSeparator used next span) := by
  unfold Invocation.checkSeparator
  split
  · split
    · exact (still_notify _).bind fun _ => .pure _
    · exact .pure _
  · split
    · exact .pure _
    · exact .throw _

theorem numbers_withFresh {ids : α → List NodeId} {read : StateM NodeId α}
    (h : Expr.Numbers ids read) : Numbers ids (withFresh read) := by
  rintro state _ _ ⟨⟩
  exact h state.nextId

theorem Numbers.mapM {ids : β → List NodeId} {read : α → Reading β}
    (h : ∀ a, Numbers ids (read a)) (items : List α) :
    Numbers (List.flatMap ids) (items.mapM read) := by
  induction items with
  | nil =>
    rintro state _ _ ⟨⟩
    exact .nil le_rfl
  | cons item rest ih =>
    intro state _ after hrun
    rw [List.mapM_cons] at hrun
    obtain ⟨value, middle, hitem, hrun⟩ := run_bind_eq_ok hrun
    obtain ⟨values, last, hrest, hrun⟩ := run_bind_eq_ok hrun
    cases hrun
    exact (h item state value middle hitem).append (ih middle values _ hrest)

end Reading

open Reading

namespace LoopValue

theorem numbers_readExpr (tokens : List Token) :
    Numbers ids (return .expr (← withFresh (Expr.read tokens))) :=
  (numbers_withFresh (Expr.numbers_read tokens)).bind_pure fun e => by rw [ids]

theorem numbers_readWithin : ∀ (depth : Nat) (tokens : List Token),
    Numbers ids (readWithin depth tokens)
  | 0, tokens => numbers_readExpr tokens
  | depth + 1, tokens => by
    unfold readWithin
    split
    · next hdepth =>
      cases hdepth
      refine (still_lift _).bind_numbers fun items => ?_
      exact (Numbers.mapM (numbers_readWithin depth) items).bind_pure fun values => by
        rw [ids, idsAll_eq_flatMap]
    · exact numbers_readExpr _

theorem numbers_read (tokens : List Token) : Numbers ids (read tokens) :=
  numbers_readWithin _ tokens

end LoopValue

namespace Invocation

theorem numbers_readLoopValues (pattern : LoopPattern) (span : Span) :
    Numbers Loop.ids (readLoopValues pattern span) := by
  refine (still_word _).bind_numbers fun _ => (still_group _).bind_numbers fun list =>
    (still_lift _).bind_numbers fun items => ?_
  exact (Numbers.mapM LoopValue.numbers_read items).bind_pure fun values => rfl

theorem numbers_readLoop (span : Span) : Numbers Loop.ids (readLoop span) := by
  refine (still_word _).bind_numbers fun _ => still_peek.bind_numbers fun token => ?_
  split
  · refine (still_lift _).bind_numbers fun pattern => (still_advance 1).bind_numbers fun _ => ?_
    exact numbers_readLoopValues pattern span
  · exact (still_failAtCursor _).bind_numbers fun pattern => numbers_readLoopValues pattern span

theorem numbers_readLoops : ∀ limit : Nat, Numbers (List.flatMap Loop.ids) (readLoops limit)
  | 0 => (Still.pure _).numbers_nil (by rintro _ _ _ ⟨⟩; rfl)
  | limit + 1 => by
    unfold readLoops
    refine still_peek.bind_numbers fun token => ?_
    have hnone : Numbers (List.flatMap Loop.ids) (pure []) :=
      (Still.pure _).numbers_nil (by rintro _ _ _ ⟨⟩; rfl)
    split
    · split
      · intro state _ after hrun
        obtain ⟨loop, middle, hloop, hrun⟩ := run_bind_eq_ok hrun
        obtain ⟨loops, last, hloops, hrun⟩ := run_bind_eq_ok hrun
        cases hrun
        exact (numbers_readLoop _ _ _ _ hloop).append (numbers_readLoops limit _ _ _ hloops)
      · exact hnone
    · exact hnone

theorem numbers_readValue (tokens : List Token) : Numbers Expr.ids (readValue tokens) := by
  unfold readValue
  split
  · split
    · exact (still_notify _).bind_numbers fun _ =>
        numbers_withFresh (Expr.numbers_readConcatenation _ _)
    · exact numbers_withFresh (Expr.numbers_read _)
  · exact numbers_withFresh (Expr.numbers_read _)

theorem numbers_readBound (name : String) (span : Span) :
    Numbers Binding.ids (readBound name span) := by
  refine still_get.bind_numbers fun state => (still_advance _).bind_numbers fun _ => ?_
  have made (tokens : List Token) : Numbers Binding.ids (do
      return { name, span, expr := ← readValue tokens }) :=
    (numbers_readValue tokens).bind_pure fun expr => rfl
  split
  · exact (still_failAtCursor _).bind_numbers fun _ => made _
  · exact made _

theorem numbers_readBinding : Numbers Binding.ids readBinding := by
  refine still_identifier.bind_numbers fun name => still_peek.bind_numbers fun token => ?_
  split
  · exact (still_advance 1).bind_numbers fun _ => numbers_readBound name.1 name.2
  · exact (still_failAtCursor _).bind_numbers fun _ => numbers_readBound name.1 name.2

/-- The identities of the bindings that were read, and of nothing else. -/
def readIds (result : List Binding × Option Separator) : List NodeId :=
  result.1.flatMap Binding.ids

theorem numbers_readBindings : ∀ (limit : Nat) (used : Option Separator),
    Numbers readIds (readBindings limit used)
  | 0, used => (Still.pure _).numbers_nil (by rintro _ _ _ ⟨⟩; rfl)
  | limit + 1, used => by
    unfold readBindings
    refine still_peek.bind_numbers fun token => ?_
    split
    · intro state result after hrun
      obtain ⟨binding, first, hbinding, hrun⟩ := run_bind_eq_ok hrun
      obtain ⟨token, second, hpeek, hrun⟩ := run_bind_eq_ok hrun
      have hfirst := numbers_readBinding _ _ _ hbinding
      rw [← still_peek _ _ _ hpeek] at hfirst
      cases token with
      | none => cases hrun
      | some token =>
        cases hseparator : separatorOf? token with
        | none =>
          simp only [hseparator] at hrun
          cases hrun
        | some next =>
          simp only [hseparator] at hrun
          obtain ⟨used, third, hcheck, hrun⟩ := run_bind_eq_ok hrun
          obtain ⟨_, fourth, hadvance, hrun⟩ := run_bind_eq_ok hrun
          obtain ⟨rest, last, hrest, hrun⟩ := run_bind_eq_ok hrun
          cases hrun
          have hlast := numbers_readBindings limit _ _ _ _ hrest
          rw [still_advance _ _ _ _ hadvance, still_checkSeparator _ _ _ _ _ _ hcheck] at hlast
          exact hfirst.append hlast
    · exact (Still.pure _).numbers_nil (by rintro _ _ _ ⟨⟩; rfl)

theorem still_readEnding (used : Option Separator) : Still (readEnding used) := by
  unfold readEnding
  have hend : Still (do if (← get).cursor.atEnd then return else failAtCursor .afterBlock) := by
    refine still_get.bind fun state => ?_
    split
    · exact .pure _
    · exact still_failAtCursor _
  refine still_peek.bind fun token => ?_
  split
  · split
    · split
      · exact (still_checkSeparator _ _ _).bind fun _ => (still_advance 1).bind fun _ => hend
      · exact (still_advance 1).bind fun _ => hend
    · exact (still_failAtCursor _).bind fun _ => hend
  · exact hend

theorem numbers_read : Numbers ids read := by
  intro state invocation after hrun
  obtain ⟨_, _, ⟨⟩, hrun⟩ := run_bind_eq_ok hrun
  obtain ⟨loops, first, hloops, hrun⟩ := run_bind_eq_ok hrun
  obtain ⟨⟨bindings, separator⟩, second, hbindings, hrun⟩ := run_bind_eq_ok hrun
  have hids := (numbers_readLoops _ _ _ _ hloops).append (numbers_readBindings _ _ _ _ _ hbindings)
  obtain ⟨block, third, hblock, hrun⟩ := run_bind_eq_ok hrun
  obtain ⟨_, fourth, hcheck, hrun⟩ := run_bind_eq_ok hrun
  obtain ⟨_, last, hending, hrun⟩ := run_bind_eq_ok hrun
  cases hrun
  rw [← still_group _ _ _ _ hblock, ← still_lift _ _ _ _ hcheck,
    ← still_readEnding _ _ _ _ hending] at hids
  exact hids

/-- All nodes of an invocation have identities of their own, from `nextId` on. -/
theorem numbered_of_ofSource {source : String} {nextId : NodeId} {invocation : Invocation}
    {state : ReadState} (h : ofSource source nextId = .ok (invocation, state)) :
    Numbered nextId state.nextId invocation.ids := by
  obtain ⟨tokens, -, hread⟩ := Outcome.bind_eq_ok.1 h
  exact numbers_read _ _ _ hread

end Invocation

end AliasExpansion
