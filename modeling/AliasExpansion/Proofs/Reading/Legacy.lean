-- SUMMARY: The legacy spelling of an invocation means the same as the modern one.
import AliasExpansion.Proofs.Evaluation.Views
import AliasExpansion.Proofs.Reading.Identities
import AliasExpansion.Proofs.Reading.Together
import AliasExpansion.Proofs.Token.Atoms
import AliasExpansion.Proofs.Token.Parts
import Mathlib.Data.List.TakeWhile

/-!
# Legacy spellings

An invocation in the legacy spelling has semicolons for separators, or concatenations written as
their arguments in brackets. Its modern spelling has commas, and calls of `concat`
(`Invocation.modern`). The two are read side by side: they stand at the same loops, then at the same
bindings, each with a value that reads as the same expression, and then at the same block.
-/

namespace AliasExpansion

-- ---------------------------------------------------------------------------
-- Concatenations
-- ---------------------------------------------------------------------------

namespace Expr

theorem mapM_congr {read read' : List Token → StateM NodeId Expr} {items : List (List Token)}
    (h : ∀ item ∈ items, read item = read' item) : items.mapM read = items.mapM read' := by
  induction items with
  | nil => rfl
  | cons item rest ih =>
    obtain ⟨first, others⟩ := List.forall_mem_cons.mp h
    rw [List.mapM_cons, List.mapM_cons, first, ih others]

theorem readCall_congr {read read' : List Token → StateM NodeId Expr} (name : String)
    {content : List Token} (listSpan span : Span)
    (h : ∀ part ∈ Token.commaParts content, read part = read' part) :
    readCall read name content listSpan span = readCall read' name content listSpan span := by
  rw [readCall, readCall, mapM_congr h]

theorem depths_call (name : String) (span : Span) (content : List Token) (listSpan : Span) :
    Token.depths [.ident name span, .group .parenthesis content listSpan]
      = Token.depths content + 1 := by
  simp [Token.depths, Token.depth]

theorem readWithin_of_flat {depth : Nat} {tokens : List Token} (flat : Token.depths tokens = 0) :
    readWithin depth tokens = readLeaf tokens := by
  cases depth with
  | zero => rfl
  | succ depth =>
    unfold readWithin
    split
    · rw [depths_call] at flat
      contradiction
    · rfl

theorem readWithin_eq_of_le {depth depth' : Nat} {tokens : List Token}
    (le : Token.depths tokens ≤ depth) (le' : Token.depths tokens ≤ depth') :
    readWithin depth tokens = readWithin depth' tokens := by
  induction depth generalizing depth' tokens with
  | zero => rw [readWithin_of_flat (Nat.le_zero.mp le), readWithin_of_flat (Nat.le_zero.mp le)]
  | succ depth ih =>
    obtain _ | depth' := depth'
    · rw [readWithin_of_flat (Nat.le_zero.mp le'), readWithin_of_flat (Nat.le_zero.mp le')]
    unfold readWithin
    split
    · rw [depths_call] at le le'
      refine ite_congr rfl (fun _ => readCall_congr _ _ _ fun part mem => ?_) fun _ => rfl
      have part_le := Token.depths_of_mem_commaParts mem
      exact ih (by omega) (by omega)
    · rfl

/-- How deep calls may be nested does not matter as long as it is enough. -/
theorem readWithin_of_le {depth : Nat} {tokens : List Token} (le : Token.depths tokens ≤ depth) :
    readWithin depth tokens = read tokens :=
  readWithin_eq_of_le le le_rfl

/-- The arguments of a concatenation may be written in brackets. -/
theorem readConcatenation_alike (content : List Token) (span nameSpan listSpan : Span)
    (next : NodeId) :
    ((readConcatenation content span).run next).1.Alike
        ((read [.ident "concat" nameSpan, .group .parenthesis content listSpan]).run next).1
      ∧ ((readConcatenation content span).run next).2
        = ((read [.ident "concat" nameSpan, .group .parenthesis content listSpan]).run next).2 := by
  have called : read [.ident "concat" nameSpan, .group .parenthesis content listSpan]
      = readCall read "concat" content listSpan nameSpan := by
    rw [read, depths_call, readWithin, if_pos (by decide)]
    exact readCall_congr _ _ _ fun part mem => readWithin_of_le (Token.depths_of_mem_commaParts mem)
  rw [called, readConcatenation, run_readCall, run_readCall]
  exact ⟨.call _ _ _ _ _ _ _, rfl⟩

end Expr

namespace Invocation

open Reading

-- ---------------------------------------------------------------------------
-- Spellings
-- ---------------------------------------------------------------------------

/-- A semicolon becomes a comma. -/
def modernSeparator : Token → Token
  | .punct ';' joint span => .punct ',' joint span
  | token => token

section

-- Where the name and the argument list of a call stand that replaces a list in brackets.
variable (nameSpan listSpan : Span → Span)

/-- A list in brackets becomes a call of `concat`, when it may be a concatenation. -/
def modernValue : List Token → List Token
  | [.group delimiter content span] =>
    if isLegacyConcatenation (.group delimiter content span) then
      [.ident "concat" (nameSpan span), .group .parenthesis content (listSpan span)]
    else [.group delimiter content span]
  | tokens => tokens

/-- The block and what follows it, with a comma for a separator. -/
def modernEnding : List Token → List Token
  | block :: rest => block :: rest.modifyHead modernSeparator
  | [] => []

/-- Bindings, of which there are at most `limit`, and the ending, in the modern spelling. -/
def modernBindings : (limit : Nat) → List Token → List Token
  | limit + 1, .ident name span :: equals :: rest =>
    .ident name span :: equals :: modernValue nameSpan listSpan (rest.takeWhile isOfValue) ++
      match rest.dropWhile isOfValue with
      | separator :: rest => modernSeparator separator :: modernBindings limit rest
      | [] => []
  | _, tokens => modernEnding tokens

/-- The tokens of an invocation in the modern spelling: separators are commas, and concatenations
    are calls. -/
def modern (tokens : List Token) : List Token :=
  let loops := loopLength tokens.length tokens
  tokens.take loops ++ modernBindings nameSpan listSpan tokens.length (tokens.drop loops)

end

def endingSeparators (tokens : List Token) : List Separator :=
  (tokens[1]?.bind separatorOf?).toList

/-- The separators after bindings, of which there are at most `limit`, and after the block. -/
def bindingSeparators : (limit : Nat) → List Token → List Separator
  | limit + 1, .ident _ _ :: _ :: rest =>
    match rest.dropWhile isOfValue with
    | separator :: rest => (separatorOf? separator).toList ++ bindingSeparators limit rest
    | [] => []
  | _, tokens => endingSeparators tokens

/-- The separators of an invocation, as they are written. -/
def separators (tokens : List Token) : List Separator :=
  bindingSeparators tokens.length (tokens.drop (loopLength tokens.length tokens))

-- ---------------------------------------------------------------------------
-- Separators
-- ---------------------------------------------------------------------------

theorem modernSeparator_of_isOfValue {token : Token} (h : isOfValue token = true) :
    modernSeparator token = token := by
  unfold modernSeparator
  split
  · contradiction
  · rfl

theorem separatorOf?_modernSeparator {token : Token} {separator : Separator}
    (h : separatorOf? token = some separator) :
    separatorOf? (modernSeparator token) = some .comma := by
  unfold modernSeparator
  split
  · rfl
  · next notSemicolon =>
    rw [separatorOf?.eq_def] at h ⊢
    split at h
    · next char joint span =>
      split at h
      · next comma => simp only [if_pos comma]
      · split at h
        · next semicolon =>
          cases eq_of_beq semicolon
          exact absurd rfl (notSemicolon joint span)
        · contradiction
    · contradiction

/-- The separators so far were all `shared` in the one spelling, and commas in the other. -/
inductive Agreed (shared : Separator) : Option Separator → Option Separator → Prop
  | none : Agreed shared none none
  | some : Agreed shared (some shared) (some .comma)

theorem run_checkSeparator {used : Option Separator} {next : Separator}
    (h : ∀ separator ∈ used, separator = next) (span : Span) (state : ReadState) :
    ∃ notices, (checkSeparator used next span).run state = .ok (next, { state with notices }) := by
  cases used with
  | none =>
    cases next with
    | comma => exact ⟨_, rfl⟩
    | semicolon => exact ⟨_, rfl⟩
  | some used =>
    obtain rfl := h used rfl
    rw [checkSeparator, if_pos rfl]
    exact ⟨_, rfl⟩

theorem together_checkSeparator {shared : Separator} {used used' : Option Separator}
    (h : Agreed shared used used') (span span' : Span) {tokens tokens' : List Token} :
    Together (ReadState.Beside tokens tokens') (fun next next' state state' =>
      (next = shared ∧ next' = .comma) ∧ state.Beside tokens tokens' state')
      (checkSeparator used shared span) (checkSeparator used' .comma span') := by
  intro state state' beside
  have same : ∀ separator ∈ used, separator = shared := by cases h <;> simp
  have same' : ∀ separator ∈ used', separator = .comma := by cases h <;> simp
  obtain ⟨notices, run⟩ := run_checkSeparator same span state
  obtain ⟨notices', run'⟩ := run_checkSeparator same' span' state'
  rw [run, run']
  exact .ok ⟨⟨rfl, rfl⟩, beside.left, beside.right, beside.nextId⟩

-- ---------------------------------------------------------------------------
-- Bindings
-- ---------------------------------------------------------------------------

section

variable {nameSpan listSpan : Span → Span} {tokens tokens' : List Token}

theorem modernValue_eq_nil {value : List Token} :
    modernValue nameSpan listSpan value = [] ↔ value = [] := by
  unfold modernValue
  split
  · split <;> simp
  · rfl

/-- The modern spelling of a value is a value. -/
theorem isOfValue_modernValue {value : List Token} (h : ∀ token ∈ value, isOfValue token = true) :
    ∀ token ∈ modernValue nameSpan listSpan value, isOfValue token = true := by
  unfold modernValue
  split
  · split
    · simp [isOfValue, separatorOf?]
    · exact h
  · exact h

/-- A value reads the same in both spellings. -/
theorem together_readValue (value : List Token) :
    Together (ReadState.Beside tokens tokens') (fun expr expr' state state' =>
      expr.Alike expr' ∧ state.Beside tokens tokens' state')
      (readValue (Token.detach value))
      (readValue (Token.detach (modernValue nameSpan listSpan value))) := by
  have same (value : List Token) : Together (ReadState.Beside tokens tokens')
      (fun expr expr' state state' => expr.Alike expr' ∧ state.Beside tokens tokens' state')
      (readValue value) (readValue value) := by
    have expressions (read : StateM NodeId Expr) : Together (ReadState.Beside tokens tokens')
        (fun expr expr' state state' => expr.Alike expr' ∧ state.Beside tokens tokens' state')
        (withFresh read) (withFresh read) :=
      Together.withFresh fun next => ⟨.refl _, rfl⟩
    unfold readValue
    split
    · split
      · exact (Together.notify _ _).bind_same fun _ => expressions _
      · exact expressions _
    · exact expressions _
  unfold modernValue
  split
  · next delimiter content span =>
    split
    · next legacy =>
      have bracketed : readValue (Token.detach [.group delimiter content span])
          = (notify .bracketSyntax >>= fun _ =>
              withFresh (Expr.readConcatenation content span)) := if_pos legacy
      rw [bracketed]
      exact .notify_bind _ (.withFresh fun next => Expr.readConcatenation_alike _ _ _ _ next)
    · exact same _
  · exact same _

theorem drop_takeWhile (p : Token → Bool) (tokens : List Token) :
    tokens.drop (tokens.takeWhile p).length = tokens.dropWhile p := by
  conv_lhs =>
    rw [← List.takeWhile_append_dropWhile (p := p) (l := tokens)]
  exact List.drop_left' (by simp)

/-- A value that a separator or the end follows is all of it a value. -/
theorem takeWhile_isOfValue {value after : List Token} (h : ∀ token ∈ value, isOfValue token = true)
    (stop : ∀ token ∈ after.head?, isOfValue token = false) :
    (value ++ after).takeWhile isOfValue = value := by
  rw [List.takeWhile_append_of_pos h]
  cases after with
  | nil => simp
  | cons token rest => simp [stop token rfl]

theorem together_readBound (name : String) (span : Span) (rest after : List Token)
    (stop : ∀ token ∈ after.head?, isOfValue token = false) :
    Together
      (ReadState.Beside rest
        (modernValue nameSpan listSpan (rest.takeWhile isOfValue) ++ after))
      (fun binding binding' state state' =>
        binding.Alike binding' ∧ state.Beside (rest.dropWhile isOfValue) after state')
      (readBound name span) (readBound name span) := by
  have value : (modernValue nameSpan listSpan (rest.takeWhile isOfValue) ++ after).takeWhile
      isOfValue = modernValue nameSpan listSpan (rest.takeWhile isOfValue) :=
    takeWhile_isOfValue (isOfValue_modernValue fun token mem => List.mem_takeWhile_imp mem) stop
  refine .get_bind fun state state' beside => ?_
  dsimp only
  rw [beside.left, beside.right, value]
  refine (together_advance _ _).bind_same fun _ => ?_
  rw [drop_takeWhile, List.drop_left]
  by_cases empty : rest.takeWhile isOfValue = []
  · simp only [List.isEmpty_iff, modernValue_eq_nil, if_pos empty]
    exact .failAtCursor_bind _ _ _ _
  · simp only [List.isEmpty_iff, modernValue_eq_nil, if_neg empty]
    refine (together_readValue _).bind_related fun expr expr' alike => ?_
    exact .pure fun _ _ beside => ⟨⟨rfl, alike⟩, beside⟩

/-- A binding reads the same in both spellings, up to the separator after it. -/
theorem together_readBinding (nameSpan listSpan : Span → Span) (name : String) (span : Span)
    (equals : Token) (rest after : List Token)
    (stop : ∀ token ∈ after.head?, isOfValue token = false) :
    Together
      (ReadState.Beside (.ident name span :: equals :: rest)
        (.ident name span :: equals ::
          (modernValue nameSpan listSpan (rest.takeWhile isOfValue) ++ after)))
      (fun binding binding' state state' =>
        binding.Alike binding' ∧ state.Beside (rest.dropWhile isOfValue) after state')
      readBinding readBinding := by
  refine (takesOne_identifier.first (by rfl)).bind_same fun found => ?_
  refine .peek_bind ?_
  dsimp only [List.drop, List.head?]
  split
  · refine (together_advance 1 1).bind_same fun _ => ?_
    exact together_readBound found.1 found.2 rest after stop
  · exact .failAtCursor_bind _ _ _ _

theorem readBindings_of_head? (limit : Nat) (used : Option Separator) {state : ReadState}
    (h : ∀ name span, state.cursor.rest.head? ≠ some (.ident name span)) :
    (readBindings limit used).run state = .ok (([], used), state) := by
  cases limit with
  | zero => rfl
  | succ limit =>
    have found : peek.run state = .ok (state.cursor.rest.head?, state) := rfl
    rw [readBindings, StateT.run_bind, found, Outcome.ok_bind]
    dsimp only
    split
    · next found =>
      exact absurd found (h _ _)
    · rfl

theorem head?_modernEnding (tokens : List Token) : (modernEnding tokens).head? = tokens.head? := by
  cases tokens <;> rfl

theorem modernBindings_of_head? (limit : Nat)
    (h : ∀ name span, tokens.head? ≠ some (.ident name span)) :
    modernBindings nameSpan listSpan limit tokens = modernEnding tokens := by
  unfold modernBindings
  split
  · exact absurd rfl (h _ _)
  · rfl

theorem bindingSeparators_of_head? (limit : Nat)
    (h : ∀ name span, tokens.head? ≠ some (.ident name span)) :
    bindingSeparators limit tokens = endingSeparators tokens := by
  unfold bindingSeparators
  split
  · exact absurd rfl (h _ _)
  · rfl

/-- A name without an equals sign after it is no binding. -/
theorem together_readBinding_name {R : Binding → Binding → ReadState → ReadState → Prop}
    (name : String) (span : Span) :
    Together (ReadState.Beside [.ident name span] [.ident name span]) R readBinding readBinding :=
  (takesOne_identifier.first rfl).bind_same fun _ => .peek_bind (.failAtCursor_bind _ _ _ _)

/-- Two runs have read the same bindings, and the same ending is left in the two spellings. -/
def BindingsRead (shared : Separator) (result result' : List Binding × Option Separator)
    (state state' : ReadState) : Prop :=
  List.Forall₂ Binding.Alike result.1 result'.1 ∧ Agreed shared result.2 result'.2
    ∧ ∃ ending, (∀ separator ∈ endingSeparators ending, separator = shared)
      ∧ state.Beside ending (modernEnding ending) state'

theorem together_readBindings_of_head? {limit limit' : Nat} {shared : Separator}
    {used used' : Option Separator} (agreed : Agreed shared used used')
    (uniform : ∀ separator ∈ bindingSeparators limit tokens, separator = shared)
    (h : ∀ name span, tokens.head? ≠ some (.ident name span)) :
    Together (ReadState.Beside tokens (modernBindings nameSpan listSpan limit tokens))
      (BindingsRead shared) (readBindings limit used) (readBindings limit' used') := by
  rw [bindingSeparators_of_head? limit h] at uniform
  rw [modernBindings_of_head? limit h]
  intro state state' beside
  rw [readBindings_of_head? limit used (by rwa [beside.left]),
    readBindings_of_head? limit' used' (by rwa [beside.right, head?_modernEnding])]
  exact .ok ⟨.nil, agreed, tokens, uniform, beside⟩

/-- A binding that ends with the text fails in both spellings. -/
theorem together_readBindings_last {R : List Binding × Option Separator →
      List Binding × Option Separator → ReadState → ReadState → Prop}
    {limit limit' : Nat} {used used' : Option Separator} {name : String} {span : Span}
    {equals : Token} {rest : List Token} (split : rest.dropWhile isOfValue = []) :
    Together
      (ReadState.Beside (.ident name span :: equals :: rest)
        (.ident name span :: equals ::
          (modernValue nameSpan listSpan (rest.takeWhile isOfValue) ++ [])))
      R (readBindings (limit + 1) used) (readBindings (limit' + 1) used') := by
  have binding := together_readBinding nameSpan listSpan name span equals rest [] nofun
  rw [split] at binding
  refine .peek_bind ?_
  refine binding.bind_related fun binding binding' alike => ?_
  exact .peek_bind (.failAtCursor _ _)

/-- A binding and the separator behind it are read, then the other bindings. -/
theorem together_readBindings_cons {limit limit' : Nat} {shared : Separator}
    {used used' : Option Separator} {name : String} {span : Span} {equals separator : Token}
    {rest after : List Token} (split : rest.dropWhile isOfValue = separator :: after)
    (found : separatorOf? separator = some shared) (agreed : Agreed shared used used')
    (others : Together (ReadState.Beside after (modernBindings nameSpan listSpan limit after))
      (BindingsRead shared) (readBindings limit (some shared)) (readBindings limit' (some .comma))) :
    Together
      (ReadState.Beside (.ident name span :: equals :: rest)
        (.ident name span :: equals ::
          (modernValue nameSpan listSpan (rest.takeWhile isOfValue) ++
            modernSeparator separator :: modernBindings nameSpan listSpan limit after)))
      (BindingsRead shared) (readBindings (limit + 1) used) (readBindings (limit' + 1) used') := by
  have modernFound := separatorOf?_modernSeparator found
  have binding := together_readBinding nameSpan listSpan name span equals rest
    (modernSeparator separator :: modernBindings nameSpan listSpan limit after)
    (by simp [isOfValue, modernFound])
  rw [split] at binding
  refine .peek_bind ?_
  refine binding.bind_related fun binding binding' alike => ?_
  refine .peek_bind ?_
  simp only [List.head?_cons, found, modernFound]
  refine (together_checkSeparator agreed _ _).bind_related fun first first' eqs => ?_
  obtain ⟨rfl, rfl⟩ := eqs
  refine (together_advance 1 1).bind_same fun _ => ?_
  simp only [List.drop_succ_cons, List.drop_zero]
  refine others.bind fun result result' => ?_
  exact .pure fun _ _ related => ⟨.cons alike related.1, related.2⟩

/-- The same bindings are read in both spellings. -/
theorem together_readBindings {limit limit' : Nat} {shared : Separator}
    {used used' : Option Separator} (le : tokens.length ≤ limit)
    (le' : (modernBindings nameSpan listSpan limit tokens).length ≤ limit')
    (agreed : Agreed shared used used')
    (uniform : ∀ separator ∈ bindingSeparators limit tokens, separator = shared) :
    Together (ReadState.Beside tokens (modernBindings nameSpan listSpan limit tokens))
      (BindingsRead shared) (readBindings limit used) (readBindings limit' used') := by
  induction limit generalizing limit' tokens used used' with
  | zero =>
    obtain rfl := List.length_eq_zero_iff.mp (Nat.le_zero.mp le)
    exact together_readBindings_of_head? agreed uniform nofun
  | succ limit ih =>
    by_cases named : ∃ name span, tokens.head? = some (.ident name span)
    swap
    · exact together_readBindings_of_head? agreed uniform (by simpa using named)
    obtain ⟨name, span, head⟩ := named
    obtain ⟨_ | ⟨equals, rest⟩, rfl⟩ := List.head?_eq_some_iff.mp head
    · obtain _ | limit' := limit'
      · simp [modernBindings, modernEnding] at le'
      refine .peek_bind ?_
      refine (together_readBinding_name (R := fun _ _ _ _ => False) name span).bind fun _ _ => ?_
      exact fun _ _ => False.elim
    obtain _ | limit' := limit'
    · simp [modernBindings] at le'
    rw [modernBindings] at le' ⊢
    rw [bindingSeparators] at uniform
    have stop := List.head?_dropWhile_not isOfValue rest
    cases split : rest.dropWhile isOfValue with
    | nil => exact together_readBindings_last split
    | cons separator after =>
      rw [split] at le' uniform stop
      have isSome : (separatorOf? separator).isSome := by
        simpa [isOfValue, Option.isSome_iff_ne_none] using stop
      obtain ⟨next, found⟩ := Option.isSome_iff_exists.mp isSome
      obtain ⟨rfl, uniform⟩ : next = shared ∧ _ := by
        simpa only [found, Option.toList_some, List.singleton_append, List.forall_mem_cons]
          using uniform
      have after_le : after.length < rest.length := by
        have suffix := (List.dropWhile_suffix (l := rest) isOfValue).length_le
        rw [split] at suffix
        exact suffix
      simp only [List.length_cons, List.length_append] at le le'
      exact together_readBindings_cons split found agreed
        (ih (by omega) (by omega) .some uniform)

end

-- ---------------------------------------------------------------------------
-- Whole invocations
-- ---------------------------------------------------------------------------

/-- What may follow the block is accepted in both spellings. -/
theorem together_readEnding {shared : Separator} {used used' : Option Separator}
    (agreed : Agreed shared used used') {rest : List Token}
    (uniform : ∀ separator ∈ rest.head?.bind separatorOf?, separator = shared) :
    Together (ReadState.Beside rest (rest.modifyHead modernSeparator)) (fun _ _ _ _ => True)
      (readEnding used) (readEnding used') := by
  have atEnd {rest : List Token} : Together (ReadState.Beside rest rest) (fun _ _ _ _ => True)
      (do if (← get).cursor.atEnd then return else failAtCursor .afterBlock)
      (do if (← get).cursor.atEnd then return else failAtCursor .afterBlock) := by
    refine .get_bind fun state state' beside => ?_
    rw [Cursor.atEnd, Cursor.atEnd, beside.left, beside.right]
    split
    · exact .pure fun _ _ _ => trivial
    · exact .failAtCursor _ _
  refine .peek_bind ?_
  obtain _ | ⟨token, rest⟩ := rest
  · exact atEnd
  simp only [List.head?_cons, List.modifyHead_cons]
  cases found : separatorOf? token with
  | none =>
    rw [modernSeparator_of_isOfValue (by simp [isOfValue, found]), found]
    exact .failAtCursor_bind _ _ _ _
  | some next =>
    obtain rfl := uniform next (by simpa using found)
    simp only [separatorOf?_modernSeparator found]
    cases agreed with
    | none => exact (together_advance 1 1).bind_same fun _ => atEnd
    | some =>
      refine (together_checkSeparator .some _ _).bind_related fun _ _ _ => ?_
      exact (together_advance 1 1).bind_same fun _ => atEnd

/-- The two invocations are the same up to spans and the separator. -/
structure Alike (invocation invocation' : Invocation) : Prop where
  loops : invocation.loops = invocation'.loops
  bindings : List.Forall₂ Binding.Alike invocation.bindings invocation'.bindings
  block : invocation.block = invocation'.block

/-- Read the block and what follows it, and make the invocation. -/
def readBlock (loops : List Loop) (span : Span) (bindings : List Binding × Option Separator) :
    Reading Invocation := do
  let (block, _) ← group .brace
  Category.check .block block
  readEnding bindings.2
  return { loops, bindings := bindings.1, separator := bindings.2, block, span }

/-- The same block is read in both spellings. -/
theorem together_readBlock {shared : Separator} (loops : List Loop) (span span' : Span)
    (result result' : List Binding × Option Separator) :
    Together (BindingsRead shared result result')
      (fun invocation invocation' _ _ => invocation.Alike invocation')
      (readBlock loops span result) (readBlock loops span' result') := by
  rintro state state' ⟨bindings, agreed, ending, uniform, beside⟩
  suffices Together (ReadState.Beside ending (modernEnding ending))
      (fun invocation invocation' _ _ => invocation.Alike invocation')
      (readBlock loops span result) (readBlock loops span' result') from this state state' beside
  refine ((takesOne_group _).first (head?_modernEnding _).symm).bind_same fun block => ?_
  refine (Together.lift _).bind_same fun _ => ?_
  have after : (modernEnding ending).drop 1 = (ending.drop 1).modifyHead modernSeparator := by
    cases ending <;> rfl
  rw [after]
  refine (together_readEnding agreed fun separator mem => ?_).bind fun _ _ => ?_
  · rw [List.head?_drop] at mem
    exact uniform separator (Option.mem_toList.mpr mem)
  exact .pure fun _ _ _ => ⟨rfl, bindings, rfl⟩

section

variable {nameSpan listSpan : Span → Span} {tokens : List Token}

theorem head?_modernBindings (limit : Nat) :
    (modernBindings nameSpan listSpan limit tokens).head? = tokens.head? := by
  unfold modernBindings
  split
  · rfl
  · exact head?_modernEnding _

theorem modernBindings_nil (limit : Nat) : modernBindings nameSpan listSpan limit [] = [] := by
  cases limit <;> rfl

theorem drop_modern :
    (modern nameSpan listSpan tokens).drop (loopLength tokens.length tokens)
      = modernBindings nameSpan listSpan tokens.length
          (tokens.drop (loopLength tokens.length tokens)) := by
  rw [modern, List.drop_append, List.drop_eq_nil_of_le (List.length_take_le _ _), List.nil_append]
  rcases le_total (loopLength tokens.length tokens) tokens.length with le | le
  · rw [List.length_take_of_le le, Nat.sub_self, List.drop_zero]
  · rw [List.drop_eq_nil_of_le le, modernBindings_nil, List.drop_nil]

/-- The modern spelling is the same in the loops and in the first token after them. -/
theorem take_modern :
    tokens.take (loopLength tokens.length tokens + 1)
      = (modern nameSpan listSpan tokens).take (loopLength tokens.length tokens + 1) := by
  have loops : (modern nameSpan listSpan tokens).take (loopLength tokens.length tokens)
      = tokens.take (loopLength tokens.length tokens) := by
    rw [modern, List.take_append, List.take_take, Nat.min_self]
    rcases le_total (loopLength tokens.length tokens) tokens.length with le | le
    · rw [List.length_take_of_le le, Nat.sub_self, List.take_zero, List.append_nil]
    · rw [List.drop_eq_nil_of_le le, modernBindings_nil, List.take_nil, List.append_nil]
  rw [List.take_add_one, List.take_add_one, loops, ← List.head?_drop, ← List.head?_drop,
    drop_modern, head?_modernBindings]

theorem together_read (nameSpan listSpan : Span → Span) {shared : Separator}
    (uniform : ∀ separator ∈ separators tokens, separator = shared) :
    Together (ReadState.Beside tokens (modern nameSpan listSpan tokens))
      (fun invocation invocation' _ _ => invocation.Alike invocation') read read := by
  refine .get_bind fun state state' beside => ?_
  rw [beside.left, beside.right]
  refine (together_readLoops le_rfl le_rfl take_modern).bind_same fun loops => ?_
  have limit : (modernBindings nameSpan listSpan tokens.length
      (tokens.drop (loopLength tokens.length tokens))).length
      ≤ (modern nameSpan listSpan tokens).length := by
    rw [← drop_modern, List.length_drop]
    exact Nat.sub_le _ _
  rw [drop_modern]
  refine (together_readBindings (by simp) limit .none uniform).bind fun result result' => ?_
  exact together_readBlock loops _ _ result result'

end

/-- The legacy spelling means the same as the modern one: both are refused, or both are read, as
    invocations that are the same up to spans and the separator, and come to the same code or fail
    alike. -/
theorem legacy_spelling_means_the_same (nameSpan listSpan : Span → Span) (tokens : List Token)
    (nextId : NodeId) (shared : Separator)
    (uniform : ∀ separator ∈ separators tokens, separator = shared) :
    Outcome.Both (fun result result' => result.1.Alike result'.1
        ∧ ∀ key finish, Outcome.Alike Eq (result.1.execute .builtin key finish)
          (result'.1.execute .builtin key finish))
      (ofTokens tokens nextId) (ofTokens (modern nameSpan listSpan tokens) nextId) := by
  have both := together_read nameSpan listSpan uniform
    { cursor := .start tokens, nextId, notices := [] }
    { cursor := .start (modern nameSpan listSpan tokens), nextId, notices := [] } ⟨rfl, rfl, rfl⟩
  refine both.mono fun result result' alike => ⟨alike, fun key finish => ?_⟩
  exact execute_alike Library.placeFree_builtin key finish alike.loops alike.bindings alike.block

/-- A concatenation in brackets and an array, after a loop and with semicolons. -/
theorem legacy_spelling_means_the_same_brackets :
    ∃ tokens modernTokens result,
      Token.read "for x in [1, 2] ab = [a_, x]; n = [3; 4]; \x7b ab(n) \x7d;" = .ok tokens
      ∧ Token.read "for x in [1, 2] ab = concat(a_, x), n = [3; 4], \x7b ab(n) \x7d,"
          = .ok modernTokens
      ∧ Token.bareAll (modern id id tokens) = Token.bareAll modernTokens
      ∧ ofTokens tokens 0 = .ok result
      ∧ (∀ separator ∈ separators tokens, separator = .semicolon)
      ∧ Outcome.Both (fun result result' => result.1.Alike result'.1
          ∧ ∀ key finish, Outcome.Alike Eq (result.1.execute .builtin key finish)
            (result'.1.execute .builtin key finish))
        (ofTokens tokens 0) (ofTokens (modern id id tokens) 0) := by
  have some_ :
      ((Token.read "for x in [1, 2] ab = [a_, x]; n = [3; 4]; \x7b ab(n) \x7d;").toOption.bind
      fun tokens =>
        (Token.read
          "for x in [1, 2] ab = concat(a_, x), n = [3; 4], \x7b ab(n) \x7d,").toOption.bind
        fun modernTokens => (ofTokens tokens 0).toOption.bind fun _ =>
          if Token.bareAll (modern id id tokens) = Token.bareAll modernTokens
            ∧ ∀ separator ∈ separators tokens, separator = .semicolon then some () else none).isSome
        = true := by
    decide +kernel
  obtain ⟨_, some_⟩ := Option.isSome_iff_exists.mp some_
  obtain ⟨tokens, lexed, some_⟩ := Option.bind_eq_some_iff.mp some_
  obtain ⟨modernTokens, modernLexed, some_⟩ := Option.bind_eq_some_iff.mp some_
  obtain ⟨result, read, some_⟩ := Option.bind_eq_some_iff.mp some_
  rw [Outcome.toOption_eq_some] at lexed modernLexed read
  obtain ⟨⟨same, uniform⟩, -⟩ := Option.ite_none_right_eq_some.mp some_
  exact ⟨tokens, modernTokens, result, lexed, modernLexed, same, read, uniform,
    legacy_spelling_means_the_same id id tokens 0 .semicolon uniform⟩

end Invocation

end AliasExpansion
