-- SUMMARY: Reading an invocation makes no literals of its own.
import AliasExpansion.Proofs.Failures.Resolution
import AliasExpansion.Proofs.Reading.Combinations
import AliasExpansion.Proofs.Token.Parts

/-!
# Literals of an invocation

Reading an invocation cuts its tokens into parts and makes no literals of its own. So when the
literals of the tokens are accounted for, those of the values, of the block and of every combination
are.
-/

namespace AliasExpansion

variable {known : DecodeError → Prop}

-- ---------------------------------------------------------------------------
-- Parts
-- ---------------------------------------------------------------------------

namespace Token

theorem accounted_of_sublist {part tokens : List Token} (h : Accounted known tokens)
    (hsub : part.Sublist tokens) : Accounted known part := by
  induction hsub with
  | slnil => exact h
  | cons _ _ ih => exact ih (accounted_cons.mp h).2
  | cons_cons _ _ ih =>
    exact accounted_cons.mpr ⟨(accounted_cons.mp h).1, ih (accounted_cons.mp h).2⟩

theorem accounted_detach {tokens : List Token} (h : Accounted known tokens) :
    Accounted known (detach tokens) := by
  induction tokens with
  | nil => exact h
  | cons token rest ih =>
    rw [detach.eq_def]
    split
    · exact accounted_nil
    · intro lit mem
      simp [atomsAll, atoms] at mem
    · next eq =>
      cases eq
      exact accounted_cons.mpr ⟨(accounted_cons.mp h).1, ih (accounted_cons.mp h).2⟩

theorem accounted_commaParts {tokens : List Token} (h : Accounted known tokens) :
    ∀ part ∈ commaParts tokens, Accounted known part := by
  intro part mem
  obtain ⟨piece, sublist, rfl⟩ := exists_sublist_of_mem_commaParts mem
  exact accounted_detach (accounted_of_sublist h sublist)

theorem accounted_items {tokens : List Token} {span : Span} {items : List (List Token)}
    (h : Accounted known tokens) (hitems : Token.items tokens span = .ok items) :
    ∀ item ∈ items, Accounted known item := by
  rw [Token.items] at hitems
  split at hitems
  · cases hitems
  · cases hitems
    exact accounted_commaParts h

end Token

-- ---------------------------------------------------------------------------
-- Expressions
-- ---------------------------------------------------------------------------

namespace Expr

/-- Whatever the supply of identities is, the result is good. -/
def Makes {α : Type} (good : α → Prop) (read : StateM NodeId α) : Prop :=
  ∀ next, good (read.run next).1

theorem Makes.mapM {α β : Type} {good : β → Prop} {read : α → StateM NodeId β} {items : List α}
    (h : ∀ item ∈ items, Makes good (read item)) :
    Makes (fun results => ∀ b ∈ results, good b) (items.mapM read) := by
  induction items with
  | nil => exact fun next => (nofun : ∀ b ∈ [], good b)
  | cons item rest ih =>
    intro next
    rw [List.mapM_cons]
    exact List.forall_mem_cons.mpr ⟨h item List.mem_cons_self next,
      ih (fun item mem => h item (List.mem_cons_of_mem _ mem)) _⟩

theorem makes_readLeaf {tokens : List Token} (h : Token.Accounted known tokens) :
    Makes (Accounted known) (readLeaf tokens) := by
  intro next
  show Accounted known (.leaf _)
  rw [Accounted]
  exact Value.accounted_classify h

theorem makes_readCall {readArgument : List Token → StateM NodeId Expr}
    (hread : ∀ tokens, Token.Accounted known tokens → Makes (Accounted known) (readArgument tokens))
    (name : String) {content : List Token} (h : Token.Accounted known content)
    (listSpan span : Span) :
    Makes (Accounted known) (readCall readArgument name content listSpan span) := by
  intro next
  have harguments : Makes (fun arguments => ∀ argument ∈ arguments, Accounted known argument)
      (if (Token.commaParts content).contains [] then pure []
        else (Token.commaParts content).mapM readArgument) := by
    split
    · exact fun next => (nofun : ∀ argument ∈ [], Accounted known argument)
    · exact Makes.mapM fun part mem => hread part (Token.accounted_commaParts h part mem)
  rw [run_readCall]
  dsimp only
  rw [Accounted, accountedAll_iff]
  exact ⟨harguments next, .of_tokens h nofun nofun⟩

theorem makes_readWithin : ∀ (depth : Nat) (tokens : List Token), Token.Accounted known tokens →
    Makes (Accounted known) (readWithin depth tokens)
  | 0, tokens, h => makes_readLeaf h
  | depth + 1, tokens, h => by
    unfold readWithin
    split
    · split
      · have hcontent := (Token.accounted_cons.mp h).2
        exact makes_readCall (makes_readWithin depth) _ (Token.accounted_group.mp hcontent) _ _
      · exact makes_readLeaf h
    · exact makes_readLeaf h

theorem makes_read {tokens : List Token} (h : Token.Accounted known tokens) :
    Makes (Accounted known) (read tokens) :=
  makes_readWithin _ tokens h

theorem makes_readConcatenation {content : List Token} (h : Token.Accounted known content)
    (span : Span) : Makes (Accounted known) (readConcatenation content span) :=
  makes_readCall (fun _ => makes_read) _ h _ _

end Expr

-- ---------------------------------------------------------------------------
-- Readers
-- ---------------------------------------------------------------------------

namespace Reading

variable {α β : Type} {good : α → Prop} {good' : β → Prop}

/-- Reading on from accounted tokens gives a good result, and the tokens left are accounted for. -/
def Keeps (known : DecodeError → Prop) (good : α → Prop) (read : Reading α) : Prop :=
  ∀ state a after, Token.Accounted known state.cursor.rest → read.run state = .ok (a, after) →
    good a ∧ Token.Accounted known after.cursor.rest

theorem Keeps.bind {read : Reading α} {f : α → Reading β} (h : Keeps known good read)
    (hf : ∀ a, good a → Keeps known good' (f a)) : Keeps known good' (read >>= f) := by
  intro state b after haccounted hrun
  obtain ⟨a, middle, hread, hrest⟩ := run_bind_eq_ok hrun
  obtain ⟨ha, hmiddle⟩ := h state a middle haccounted hread
  exact hf a ha middle b after hmiddle hrest

theorem Keeps.pure {a : α} (h : good a) : Keeps known good (Pure.pure a) := by
  rintro state _ _ haccounted ⟨⟩
  exact ⟨h, haccounted⟩

theorem Keeps.throw (e : SyntaxError) : Keeps known good (MonadExcept.throw e : Reading α) :=
  nofun

theorem Keeps.imp {read : Reading α} {better : α → Prop} (h : Keeps known good read)
    (himp : ∀ a, good a → better a) : Keeps known better read :=
  fun state a after haccounted hrun =>
    (h state a after haccounted hrun).imp_left (himp a)

theorem keeps_get :
    Keeps known (fun state => Token.Accounted known state.cursor.rest)
      (get : Reading ReadState) := by
  rintro state _ _ haccounted ⟨⟩
  exact ⟨haccounted, haccounted⟩

theorem keeps_lift {result : Except SyntaxError α} (h : ∀ a, result = .ok a → good a) :
    Keeps known good (liftM result : Reading α) := by
  cases result with
  | ok a => rintro state _ _ haccounted ⟨⟩; exact ⟨h a rfl, haccounted⟩
  | error e => nofun

theorem keeps_failAtCursor (fault : InvocationFault) :
    Keeps known good (failAtCursor fault : Reading α) :=
  keeps_get.bind fun _ _ => .throw _

/-- Nothing is read after a failure. -/
theorem keeps_failAtCursor_bind (fault : InvocationFault) (f : α → Reading β) :
    Keeps known good' (failAtCursor fault >>= f) :=
  have hfails : Keeps known (fun _ => False) (failAtCursor fault : Reading α) :=
    keeps_failAtCursor fault
  hfails.bind fun _ h => h.elim

theorem keeps_peek :
    Keeps known (fun token => ∀ found ∈ token, Token.Accounted known [found]) peek := by
  rintro state _ _ haccounted ⟨⟩
  refine ⟨fun found mem => ?_, haccounted⟩
  exact Token.accounted_of_sublist haccounted
    (List.singleton_sublist.mpr (List.mem_of_mem_head? mem))

theorem rest_advance : ∀ (count : Nat) (cursor : Cursor),
    (cursor.advance count).rest.Sublist cursor.rest
  | 0, cursor => by
    rw [Cursor.advance]
    · nofun
  | count + 1, ⟨previous, []⟩ => by
    rw [Cursor.advance]
    · nofun
  | count + 1, ⟨previous, token :: rest⟩ => by
    rw [Cursor.advance]
    exact (rest_advance count _).trans (List.sublist_cons_self token rest)

theorem keeps_advance (count : Nat) : Keeps known (fun _ => True) (advance count) := by
  rintro state _ _ haccounted ⟨⟩
  exact ⟨trivial, Token.accounted_of_sublist haccounted (rest_advance count state.cursor)⟩

theorem keeps_notify (notice : Notice) : Keeps known (fun _ => True) (notify notice) := by
  rintro state _ _ haccounted ⟨⟩
  exact ⟨trivial, haccounted⟩

theorem keeps_withFresh {read : StateM NodeId α} (h : Expr.Makes good read) :
    Keeps known good (withFresh read) := by
  rintro state _ _ haccounted ⟨⟩
  exact ⟨h state.nextId, haccounted⟩

theorem keeps_identifier : Keeps known (fun _ => True) identifier := by
  refine keeps_peek.bind fun token _ => ?_
  split
  · split
    · exact (keeps_advance 1).bind fun _ _ => .pure trivial
    · exact keeps_failAtCursor _
  · exact keeps_failAtCursor _

theorem keeps_word (text : String) : Keeps known (fun _ => True) (word text) := by
  refine keeps_peek.bind fun token _ => ?_
  split
  · exact keeps_advance 1
  · exact keeps_failAtCursor _

theorem keeps_group (delimiter : Delimiter) :
    Keeps known (fun found => Token.Accounted known found.1) (group delimiter) := by
  refine keeps_peek.bind fun token htoken => ?_
  split
  · next content span =>
    split
    · exact (keeps_advance 1).bind fun _ _ => .pure (Token.accounted_group.mp (htoken _ rfl))
    · exact keeps_failAtCursor _
  · exact keeps_failAtCursor _

theorem Keeps.mapM {read : α → Reading β} {items : List α}
    (h : ∀ item ∈ items, Keeps known good' (read item)) :
    Keeps known (fun results => ∀ b ∈ results, good' b) (items.mapM read) := by
  induction items with
  | nil => exact .pure nofun
  | cons item rest ih =>
    rw [List.mapM_cons]
    refine (h item List.mem_cons_self).bind fun b hb => ?_
    refine (ih fun item mem => h item (List.mem_cons_of_mem _ mem)).bind fun bs hbs => ?_
    exact .pure (List.forall_mem_cons.mpr ⟨hb, hbs⟩)

end Reading

open Reading

-- ---------------------------------------------------------------------------
-- Invocations
-- ---------------------------------------------------------------------------

mutual

/-- The expressions in a loop value. -/
def LoopValue.exprs : LoopValue → List Expr
  | .expr e => [e]
  | .tuple items _ => exprsAll items

def LoopValue.exprsAll : List LoopValue → List Expr
  | [] => []
  | item :: rest => item.exprs ++ exprsAll rest

end

theorem LoopValue.mem_exprsAll {items : List LoopValue} {e : Expr} :
    e ∈ exprsAll items ↔ ∃ item ∈ items, e ∈ item.exprs := by
  induction items with
  | nil => simp [exprsAll]
  | cons item rest ih => simp [exprsAll, ih]

/-- The expressions of an invocation, first those of its loops. -/
def Invocation.exprs (invocation : Invocation) : List Expr :=
  invocation.loops.flatMap (·.values.flatMap LoopValue.exprs) ++ invocation.bindings.map (·.expr)

/-- The function is called in an expression of the invocation. -/
def Invocation.Calls (function : String) (invocation : Invocation) : Prop :=
  ∃ e ∈ invocation.exprs, e.Calls function

/-- All values in a loop value are accounted for. -/
def LoopValue.Accounted (known : DecodeError → Prop) (value : LoopValue) : Prop :=
  ∀ e ∈ value.exprs, e.Accounted known

def Binding.Accounted (known : DecodeError → Prop) (binding : Binding) : Prop :=
  binding.expr.Accounted known

def Loop.Accounted (known : DecodeError → Prop) (loop : Loop) : Prop :=
  ∀ value ∈ loop.values, value.Accounted known

structure Invocation.Accounted (known : DecodeError → Prop) (invocation : Invocation) : Prop where
  exprs : ∀ e ∈ invocation.exprs, e.Accounted known
  block : Token.Accounted known invocation.block

namespace LoopValue

theorem keeps_readExpr {tokens : List Token} (h : Token.Accounted known tokens) :
    Keeps known (Accounted known) (return .expr (← withFresh (Expr.read tokens))) :=
  (keeps_withFresh (Expr.makes_read h)).bind fun e he => .pure (by
    rw [Accounted, exprs]
    exact List.forall_mem_singleton.mpr he)

theorem keeps_readWithin : ∀ (depth : Nat) (tokens : List Token), Token.Accounted known tokens →
    Keeps known (Accounted known) (readWithin depth tokens)
  | 0, tokens, h => keeps_readExpr h
  | depth + 1, tokens, h => by
    unfold readWithin
    split
    · next hdepth =>
      cases hdepth
      have hitems := Token.accounted_group.mp h
      refine (keeps_lift fun items => Token.accounted_items hitems).bind fun items hitems => ?_
      refine (Keeps.mapM fun item mem =>
        keeps_readWithin depth item (hitems item mem)).bind fun values hvalues => .pure ?_
      intro e mem
      rw [exprs, mem_exprsAll] at mem
      obtain ⟨value, hvalue, mem⟩ := mem
      exact hvalues value hvalue e mem
    · exact keeps_readExpr h

theorem keeps_read {tokens : List Token} (h : Token.Accounted known tokens) :
    Keeps known (Accounted known) (read tokens) :=
  keeps_readWithin _ tokens h

end LoopValue

namespace Invocation

theorem keeps_readLoopValues (pattern : LoopPattern) (span : Span) :
    Keeps known (Loop.Accounted known) (readLoopValues pattern span) := by
  refine (keeps_word _).bind fun _ _ => (keeps_group _).bind fun list hlist => ?_
  refine (keeps_lift fun items => Token.accounted_items hlist).bind fun items hitems => ?_
  exact (Keeps.mapM fun item mem => LoopValue.keeps_read (hitems item mem)).bind
    fun values hvalues => .pure hvalues

theorem keeps_readLoop (span : Span) : Keeps known (Loop.Accounted known) (readLoop span) := by
  refine (keeps_word _).bind fun _ _ => keeps_peek.bind fun token _ => ?_
  split
  · next token _ =>
    have hpattern : Keeps known (fun _ => True)
        (liftM (LoopPattern.read token) : Reading LoopPattern) :=
      keeps_lift fun _ _ => trivial
    exact hpattern.bind fun pattern _ =>
      (keeps_advance 1).bind fun _ _ => keeps_readLoopValues pattern span
  · exact keeps_failAtCursor_bind _ _

theorem keeps_readLoops : ∀ limit : Nat,
    Keeps known (fun loops => ∀ loop ∈ loops, loop.Accounted known) (readLoops limit)
  | 0 => .pure nofun
  | limit + 1 => by
    unfold readLoops
    refine keeps_peek.bind fun token _ => ?_
    split
    · split
      · refine (keeps_readLoop _).bind fun loop hloop => ?_
        refine (keeps_readLoops limit).bind fun loops hloops => ?_
        exact .pure (List.forall_mem_cons.mpr ⟨hloop, hloops⟩)
      · exact .pure nofun
    · exact .pure nofun

theorem keeps_readValue {tokens : List Token} (h : Token.Accounted known tokens) :
    Keeps known (Expr.Accounted known) (readValue tokens) := by
  unfold readValue
  split
  · split
    · exact (keeps_notify _).bind fun _ _ =>
        keeps_withFresh (Expr.makes_readConcatenation (Token.accounted_group.mp h) _)
    · exact keeps_withFresh (Expr.makes_read h)
  · exact keeps_withFresh (Expr.makes_read h)

theorem keeps_readBound (name : String) (span : Span) :
    Keeps known (Binding.Accounted known) (readBound name span) := by
  refine keeps_get.bind fun state hstate => (keeps_advance _).bind fun _ _ => ?_
  have htokens := Token.accounted_detach
    (Token.accounted_of_sublist hstate (List.takeWhile_sublist isOfValue))
  split
  · exact keeps_failAtCursor_bind _ _
  · exact (keeps_readValue htokens).bind fun expr hexpr => .pure hexpr

theorem keeps_readBinding :
    Keeps known (Binding.Accounted known) readBinding := by
  refine keeps_identifier.bind fun name _ => keeps_peek.bind fun token _ => ?_
  split
  · exact (keeps_advance 1).bind fun _ _ => keeps_readBound name.1 name.2
  · exact keeps_failAtCursor_bind _ _

theorem keeps_checkSeparator (used : Option Separator) (next : Separator) (span : Span) :
    Keeps known (fun _ => True) (checkSeparator used next span) := by
  unfold checkSeparator
  split
  · split
    · exact (keeps_notify _).bind fun _ _ => .pure trivial
    · exact .pure trivial
  · split
    · exact .pure trivial
    · exact .throw _

theorem keeps_readBindings : ∀ (limit : Nat) (used : Option Separator),
    Keeps known (fun result => ∀ binding ∈ result.1, binding.Accounted known)
      (readBindings limit used)
  | 0, used => .pure nofun
  | limit + 1, used => by
    unfold readBindings
    refine keeps_peek.bind fun token _ => ?_
    split
    · refine keeps_readBinding.bind fun binding hbinding => keeps_peek.bind fun token _ => ?_
      split
      · split
        · refine (keeps_checkSeparator _ _ _).bind fun used _ => ?_
          refine (keeps_advance 1).bind fun _ _ => ?_
          refine (keeps_readBindings limit _).bind fun rest hrest => ?_
          exact .pure (List.forall_mem_cons.mpr ⟨hbinding, hrest⟩)
        · exact keeps_failAtCursor _
      · exact keeps_failAtCursor _
    · exact .pure nofun

/-- Reading an invocation makes no literals. -/
theorem accounted_of_ofTokens {tokens : List Token} {nextId : NodeId} {invocation : Invocation}
    {state : ReadState} (h : Token.Accounted known tokens)
    (hread : ofTokens tokens nextId = .ok (invocation, state)) : invocation.Accounted known := by
  obtain ⟨_, _, ⟨⟩, hread⟩ := run_bind_eq_ok hread
  obtain ⟨loops, first, hloops, hread⟩ := run_bind_eq_ok hread
  obtain ⟨⟨bindings, separator⟩, second, hbindings, hread⟩ := run_bind_eq_ok hread
  obtain ⟨⟨block, span⟩, third, hblock, hread⟩ := run_bind_eq_ok hread
  obtain ⟨_, fourth, hcheck, hread⟩ := run_bind_eq_ok hread
  obtain ⟨_, last, hending, hread⟩ := run_bind_eq_ok hread
  cases hread
  obtain ⟨hloops, hfirst⟩ := keeps_readLoops _ _ _ _ h hloops
  obtain ⟨hbindings, hsecond⟩ := keeps_readBindings _ _ _ _ _ hfirst hbindings
  refine ⟨List.forall_mem_append.mpr ⟨fun e mem => ?_, List.forall_mem_map.mpr hbindings⟩,
    (keeps_group _ _ _ _ hsecond hblock).1⟩
  obtain ⟨loop, hloop, mem⟩ := List.mem_flatMap.mp mem
  obtain ⟨value, hvalue, mem⟩ := List.mem_flatMap.mp mem
  exact hloops loop hloop value hvalue e mem

end Invocation

-- ---------------------------------------------------------------------------
-- Combinations
-- ---------------------------------------------------------------------------

namespace LoopPattern

mutual

/-- The values that a pattern binds are expressions of the loop value. -/
theorem mem_exprs_of_bind :
    ∀ {pattern : LoopPattern} {value : LoopValue} {bindings : List Binding},
      bind pattern value = .ok bindings → ∀ binding ∈ bindings, binding.expr ∈ value.exprs
  | .name _ _, .expr e, bindings, h => by
    rw [bind] at h
    cases h
    rw [LoopValue.exprs]
    exact List.forall_mem_singleton.mpr List.mem_cons_self
  | .tuple patterns _, .tuple values span, bindings, h => by
    rw [bind] at h
    split at h
    · rw [LoopValue.exprs]
      exact mem_exprs_of_bindAll h
    · cases h
  | .name .., .tuple .., _, h => by simp [bind] at h
  | .tuple .., .expr _, _, h => by simp [bind] at h

theorem mem_exprs_of_bindAll :
    ∀ {patterns : List LoopPattern} {values : List LoopValue} {bindings : List Binding},
      bindAll patterns values = .ok bindings →
        ∀ binding ∈ bindings, binding.expr ∈ LoopValue.exprsAll values
  | pattern :: patterns, value :: values, bindings, h => by
    rw [bindAll] at h
    split at h
    · obtain ⟨first, hfirst, h⟩ := Outcome.bind_eq_ok.mp h
      obtain ⟨rest, hrest, h⟩ := Outcome.bind_eq_ok.mp h
      cases h
      rw [LoopValue.exprsAll, List.forall_mem_append]
      exact ⟨fun binding mem => List.mem_append_left _ (mem_exprs_of_bind hfirst binding mem),
        fun binding mem => List.mem_append_right _ (mem_exprs_of_bindAll hrest binding mem)⟩
    · cases h
  | [], _, _, h => by
    rw [bindAll] at h
    · cases h
      nofun
    · nofun
  | _ :: _, [], _, h => by
    rw [bindAll] at h
    · cases h
      nofun
    · nofun

end

end LoopPattern

theorem mem_of_mem_selections {α : Type} {lists : List (List α)} {choice : List α}
    (h : choice ∈ selections lists) : ∀ a ∈ choice, ∃ list ∈ lists, a ∈ list := by
  induction lists generalizing choice with
  | nil =>
    rw [selections, List.mem_singleton] at h
    subst h
    exact List.forall_mem_nil _
  | cons first rest ih =>
    rw [selections] at h
    obtain ⟨a, ha, h⟩ := List.mem_flatMap.mp h
    obtain ⟨others, hothers, rfl⟩ := List.mem_map.mp h
    refine List.forall_mem_cons.mpr ⟨⟨first, List.mem_cons_self, ha⟩, fun b hb => ?_⟩
    obtain ⟨list, hlist, hmem⟩ := ih hothers b hb
    exact ⟨list, List.mem_cons_of_mem _ hlist, hmem⟩

namespace Invocation

/-- Every combination has the block of the invocation, and binds expressions of the invocation. -/
theorem mem_exprs_of_combination {invocation : Invocation} {combinations : List Combination}
    (hcombinations : invocation.combinations = .ok combinations) {combination : Combination}
    (hmem : combination ∈ combinations) :
    (∀ binding ∈ combination.bindings, binding.expr ∈ invocation.exprs) ∧
      combination.block = invocation.block := by
  obtain ⟨values, hvalues, hbind⟩ := Outcome.exists_of_mem_mapM hcombinations hmem
  obtain ⟨bindings, hbindings, hbind⟩ := Outcome.bind_eq_ok.mp hbind
  cases hbind
  refine ⟨List.forall_mem_append.mpr ⟨?_, fun binding mem =>
    List.mem_append_right _ (List.mem_map_of_mem mem)⟩, rfl⟩
  obtain ⟨parts, hparts, hbindings⟩ := Outcome.bind_eq_ok.mp hbindings
  cases hbindings
  intro binding hbinding
  obtain ⟨part, hpart, hbinding⟩ := List.mem_flatten.mp hbinding
  obtain ⟨⟨loop, value⟩, hzip, hbind⟩ := Outcome.exists_of_mem_mapM hparts hpart
  obtain ⟨list, hlist, hvalue⟩ := mem_of_mem_selections hvalues value (List.of_mem_zip hzip).2
  obtain ⟨source, hsource, rfl⟩ := List.mem_map.mp hlist
  refine List.mem_append_left _ (List.mem_flatMap.mpr ⟨source, hsource, ?_⟩)
  exact List.mem_flatMap.mpr ⟨value, hvalue, LoopPattern.mem_exprs_of_bind hbind binding hbinding⟩

end Invocation

end AliasExpansion
