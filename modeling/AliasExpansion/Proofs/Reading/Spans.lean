-- SUMMARY: Reading an invocation looks at no spans: bare tokens give the bare invocation.
import AliasExpansion.Proofs.Grammar.Likeness
import AliasExpansion.Proofs.Reading.Identities
import AliasExpansion.Proofs.Reading.Together
import AliasExpansion.Proofs.Token.Atoms

/-!
# Reading without spans

The places of tokens show in the places of what is read and in messages, and nowhere else. Every
reader is run on tokens and, beside it, on the bare tokens: the second run gives what the first one
gives, without its spans (`Reading.Bares`). So token lists that differ in their spans only are the
same invocation (`Invocation.ofTokens_of_bareAll_eq`).
-/

namespace AliasExpansion

-- ---------------------------------------------------------------------------
-- Bare tokens
-- ---------------------------------------------------------------------------

namespace Token

theorem bareAll_eq_map (tokens : List Token) : bareAll tokens = tokens.map bare := by
  induction tokens with
  | nil => rfl
  | cons token rest ih => rw [bareAll, ih, List.map_cons]

theorem bareAll_eq_nil {tokens : List Token} : bareAll tokens = [] ↔ tokens = [] := by
  rw [bareAll_eq_map, List.map_eq_nil_iff]

theorem length_bareAll (tokens : List Token) : (bareAll tokens).length = tokens.length := by
  rw [bareAll_eq_map, List.length_map]

theorem span_bare (token : Token) : token.bare.span = {} := by
  cases token <;> rfl

theorem firstSpan_bareAll (tokens : List Token) : firstSpan (bareAll tokens) = {} := by
  cases tokens with
  | nil => rfl
  | cons token rest => exact span_bare token

mutual

theorem alike_bare (token : Token) : Alike token token.bare := by
  match token with
  | .ident _ _ => exact .ident (.inl rfl)
  | .punct _ _ _ => exact .punct
  | .literal _ => exact .literal (.inl rfl)
  | .group _ content _ => exact .group (alikeAll_bareAll content)

theorem alikeAll_bareAll (tokens : List Token) : AlikeAll tokens (bareAll tokens) := by
  match tokens with
  | [] => exact .nil
  | token :: rest => exact .cons (alike_bare token) (alikeAll_bareAll rest)

end

mutual

theorem depth_bare (token : Token) : token.bare.depth = token.depth := by
  match token with
  | .ident _ _ | .punct _ _ _ | .literal _ => rfl
  | .group _ content _ => rw [bare, depth, depth, depths_bareAll content]

theorem depths_bareAll (tokens : List Token) : depths (bareAll tokens) = depths tokens := by
  match tokens with
  | [] => rfl
  | token :: rest => rw [bareAll, depths, depths, depth_bare token, depths_bareAll rest]

end

theorem detach_bareAll (tokens : List Token) :
    detach (bareAll tokens) = bareAll (detach tokens) := by
  induction tokens with
  | nil => rfl
  | cons token rest ih =>
    cases rest with
    | nil => cases token <;> rfl
    | cons next rest =>
      have goesOn (token next : Token) (rest : List Token) :
          detach (token :: next :: rest) = token :: detach (next :: rest) := by
        cases token <;> rfl
      rw [goesOn, bareAll, bareAll, goesOn, bareAll, ← ih, bareAll]

theorem isSeparator_bare (separators : List Char) (token : Token) :
    token.bare.isSeparator separators = token.isSeparator separators := by
  cases token <;> rfl

theorem cut_bareAll (separators : List Char) (tokens : List Token) :
    cut separators (bareAll tokens) = (cut separators tokens).map bareAll := by
  induction tokens with
  | nil => rfl
  | cons token rest ih =>
    rw [bareAll, cut, cut, isSeparator_bare, ih]
    split
    · rfl
    · cases cut separators rest <;> rfl

theorem commaParts_bareAll (tokens : List Token) :
    commaParts (bareAll tokens) = (commaParts tokens).map bareAll := by
  have all : parts [','] (bareAll tokens) = (parts [','] tokens).map bareAll := by
    rw [parts, parts, cut_bareAll, List.map_map, List.map_map]
    exact List.map_congr_left fun part _ => detach_bareAll part
  have last : ((parts [','] tokens).map bareAll).getLast? = some []
      ↔ (parts [','] tokens).getLast? = some [] := by
    rw [List.getLast?_map, Option.map_eq_some_iff]
    simp only [bareAll_eq_nil, exists_eq_right]
  rw [commaParts, commaParts, all]
  simp only [last]
  split
  · rw [List.map_dropLast]
  · rfl

theorem contains_nil_bareAll (parts : List (List Token)) :
    (parts.map bareAll).contains [] = parts.contains [] := by
  simp only [List.contains_eq_mem, List.mem_map, bareAll_eq_nil, exists_eq_right]

end Token

-- ---------------------------------------------------------------------------
-- Bare expressions
-- ---------------------------------------------------------------------------

namespace Value

def bare (value : Value) : Value where
  type := value.type
  tokens := Token.bareAll value.tokens

theorem tokenType?_bare (token : Token) : tokenType? token.bare = tokenType? token := by
  cases token <;> rfl

theorem categoryType_bareAll (tokens : List Token) :
    categoryType (Token.bareAll tokens) = categoryType tokens := by
  simp only [categoryType, Category.accepts_of_alike (Token.alikeAll_bareAll tokens)]

theorem classify_bareAll (tokens : List Token) :
    classify (Token.bareAll tokens) = (classify tokens).bare := by
  have category := categoryType_bareAll tokens
  match tokens with
  | [] => simp only [classify, bare, category]; rfl
  | [token] =>
    simp only [classify, bare]
    rw [← category, ← tokenType?_bare]
    rfl
  | _ :: _ :: _ =>
    simp only [classify, bare, ← category]
    rfl

end Value

def Leaf.bare (leaf : Leaf) : Leaf where
  id := leaf.id
  value := leaf.value.bare
  span := {}

namespace Expr

mutual

/-- The expression with every span at the start of a text. -/
def bare : Expr → Expr
  | .leaf node => .leaf node.bare
  | .call id name arguments raw _ => .call id name (bareAll arguments) raw.bare {}

def bareAll : List Expr → List Expr
  | [] => []
  | expr :: rest => bare expr :: bareAll rest

end

theorem bareAll_eq_map (exprs : List Expr) : bareAll exprs = exprs.map bare := by
  induction exprs with
  | nil => rfl
  | cons expr rest ih => rw [bareAll, ih, List.map_cons]

/-- Run beside a reader of expressions, the second one gives the image of what the first one
    gives. -/
def Maps {α β : Type} (f : α → β) (read : StateM NodeId α) (read' : StateM NodeId β) : Prop :=
  ∀ next, read'.run next = (f (read.run next).1, (read.run next).2)

section

variable {α β γ δ : Type} {f : α → β} {g : γ → δ}

theorem Maps.bind {read : StateM NodeId α} {read' : StateM NodeId β} {next : α → StateM NodeId γ}
    {next' : β → StateM NodeId δ} (h : Maps f read read')
    (h' : ∀ a, Maps g (next a) (next' (f a))) : Maps g (read >>= next) (read' >>= next') := by
  intro first
  change (next' (read'.run first).1).run (read'.run first).2 = _
  rw [h first]
  exact h' _ _

theorem Maps.mapM {read : α → StateM NodeId γ} {read' : β → StateM NodeId δ}
    (h : ∀ a, Maps g (read a) (read' (f a))) (items : List α) :
    Maps (List.map g) (items.mapM read) ((items.map f).mapM read') := by
  induction items with
  | nil => exact fun next => rfl
  | cons item rest ih =>
    rw [List.map_cons, List.mapM_cons, List.mapM_cons]
    exact (h item).bind fun first => ih.bind fun others next => rfl

end

theorem maps_readLeaf (tokens : List Token) :
    Maps bare (readLeaf tokens) (readLeaf (Token.bareAll tokens)) := by
  intro next
  have run (tokens : List Token) : (readLeaf tokens).run next
      = (.leaf ⟨next, Value.classify tokens, Token.firstSpan tokens⟩, next + 1) := rfl
  rw [run, run, Value.classify_bareAll, Token.firstSpan_bareAll]
  rfl

theorem maps_readCall {readArgument : List Token → StateM NodeId Expr}
    (h : ∀ tokens, Maps bare (readArgument tokens) (readArgument (Token.bareAll tokens)))
    (name : String) (content : List Token) (listSpan span : Span) :
    Maps bare (readCall readArgument name content listSpan span)
      (readCall readArgument name (Token.bareAll content) {} {}) := by
  intro next
  rw [run_readCall, run_readCall]
  simp only [Token.commaParts_bareAll, Token.contains_nil_bareAll]
  split
  · rfl
  · rw [Maps.mapM h]
    simp only [bare, bareAll_eq_map]
    rfl

theorem call_of_bareAll {tokens content : List Token} {name : String} {span listSpan : Span}
    (h : Token.bareAll tokens = [.ident name span, .group .parenthesis content listSpan]) :
    ∃ span content listSpan,
      tokens = [.ident name span, .group .parenthesis content listSpan] := by
  match tokens with
  | [] | [_] | _ :: _ :: _ :: _ => simp [Token.bareAll] at h
  | [first, second] =>
    simp only [Token.bareAll, List.cons.injEq, and_true] at h
    cases first with
    | ident =>
      cases second with
      | group =>
        simp only [Token.bare, Token.ident.injEq, Token.group.injEq] at h
        obtain ⟨⟨rfl, -⟩, rfl, -⟩ := h
        exact ⟨_, _, _, rfl⟩
      | _ => cases h.2
    | _ => cases h.1

theorem readWithin_of_no_call {tokens : List Token} (depth : Nat)
    (other : ∀ name span content listSpan,
      tokens ≠ [.ident name span, .group .parenthesis content listSpan]) :
    readWithin depth tokens = readLeaf tokens := by
  cases depth with
  | zero => rfl
  | succ depth =>
    unfold readWithin
    split
    · exact absurd rfl (other _ _ _ _)
    · rfl

theorem maps_readWithin (depth : Nat) (tokens : List Token) :
    Maps bare (readWithin depth tokens) (readWithin depth (Token.bareAll tokens)) := by
  induction depth generalizing tokens with
  | zero => exact maps_readLeaf tokens
  | succ depth ih =>
    by_cases called : ∃ name span content listSpan,
        tokens = [.ident name span, .group .parenthesis content listSpan]
    · obtain ⟨name, span, content, listSpan, rfl⟩ := called
      have bared : Token.bareAll [.ident name span, .group .parenthesis content listSpan]
          = [.ident name {}, .group .parenthesis (Token.bareAll content) {}] := rfl
      rw [bared, readWithin, readWithin]
      split
      · exact maps_readCall ih name content listSpan span
      · exact maps_readLeaf [.ident name span, .group .parenthesis content listSpan]
    · rw [readWithin_of_no_call _ fun name span content listSpan eq =>
          called ⟨name, span, content, listSpan, eq⟩, readWithin_of_no_call]
      · exact maps_readLeaf tokens
      · intro name span content listSpan eq
        obtain ⟨span, content, listSpan, eq⟩ := call_of_bareAll eq
        exact called ⟨name, span, content, listSpan, eq⟩

theorem maps_read (tokens : List Token) :
    Maps bare (read tokens) (read (Token.bareAll tokens)) := by
  rw [read, read, Token.depths_bareAll]
  exact maps_readWithin _ tokens

theorem maps_readConcatenation (content : List Token) (span : Span) :
    Maps bare (readConcatenation content span) (readConcatenation (Token.bareAll content) {}) :=
  maps_readCall maps_read "concat" content span span

end Expr

-- ---------------------------------------------------------------------------
-- Bare loops and bindings
-- ---------------------------------------------------------------------------

namespace LoopPattern

mutual

def bare : LoopPattern → LoopPattern
  | .name text _ => .name text {}
  | .tuple items _ => .tuple (bareAll items) {}

def bareAll : List LoopPattern → List LoopPattern
  | [] => []
  | pattern :: rest => bare pattern :: bareAll rest

end

theorem bareAll_eq_map (patterns : List LoopPattern) : bareAll patterns = patterns.map bare := by
  induction patterns with
  | nil => rfl
  | cons pattern rest ih => rw [bareAll, ih, List.map_cons]

end LoopPattern

namespace LoopValue

mutual

def bare : LoopValue → LoopValue
  | .expr e => .expr e.bare
  | .tuple items _ => .tuple (bareAll items) {}

def bareAll : List LoopValue → List LoopValue
  | [] => []
  | value :: rest => bare value :: bareAll rest

end

theorem bareAll_eq_map (values : List LoopValue) : bareAll values = values.map bare := by
  induction values with
  | nil => rfl
  | cons value rest ih => rw [bareAll, ih, List.map_cons]

end LoopValue

def Loop.bare (loop : Loop) : Loop where
  pattern := loop.pattern.bare
  values := loop.values.map LoopValue.bare
  span := {}

def Binding.bare (binding : Binding) : Binding where
  name := binding.name
  span := {}
  expr := binding.expr.bare

/-- The invocation with every span at the start of a text. -/
def Invocation.bare (invocation : Invocation) : Invocation where
  loops := invocation.loops.map Loop.bare
  bindings := invocation.bindings.map Binding.bare
  separator := invocation.separator
  block := Token.bareAll invocation.block
  span := {}

-- ---------------------------------------------------------------------------
-- Loop patterns
-- ---------------------------------------------------------------------------

/-- The second computation fails if the first does, and else gives the image of its result. -/
abbrev Outcome.Image {ε α β : Type} (f : α → β) : Except ε α → Except ε β → Prop :=
  Both fun a b => b = f a

namespace Outcome.Image

variable {ε α β γ δ : Type} {f : α → β} {g : γ → δ}

theorem bind {x : Except ε α} {x' : Except ε β} {next : α → Except ε γ} {next' : β → Except ε δ}
    (h : Image f x x') (h' : ∀ a, Image g (next a) (next' (f a))) :
    Image g (x >>= next) (x' >>= next') :=
  Both.bind h fun a _ eq => eq ▸ h' a

theorem mapM {read : α → Except ε γ} {read' : β → Except ε δ}
    (h : ∀ a, Image g (read a) (read' (f a))) (items : List α) :
    Image (List.map g) (items.mapM read) ((items.map f).mapM read') := by
  induction items with
  | nil => exact .ok rfl
  | cons item rest ih =>
    rw [List.map_cons, List.mapM_cons, List.mapM_cons]
    exact bind (h item) fun first => bind ih fun others => .ok rfl

end Outcome.Image

open Outcome

theorem Token.image_items (tokens : List Token) (span span' : Span) :
    Image (List.map bareAll) (items tokens span) (items (bareAll tokens) span') := by
  simp only [items, commaParts_bareAll, contains_nil_bareAll]
  split
  · exact .error _ _
  · exact .ok rfl

namespace LoopPattern

theorem image_readPart {read : Token → Except SyntaxError LoopPattern}
    (h : ∀ token, Image bare (read token) (read token.bare)) (tokens : List Token) :
    Image bare (readPart read tokens) (readPart read (Token.bareAll tokens)) := by
  cases tokens with
  | nil => exact .error _ _
  | cons token rest =>
    refine (h token).bind fun pattern => ?_
    cases rest with
    | nil => exact .ok rfl
    | cons => exact .error _ _

theorem image_readWithin (depth : Nat) (token : Token) :
    Image bare (readWithin depth token) (readWithin depth token.bare) := by
  induction depth generalizing token with
  | zero =>
    cases token with
    | ident name span =>
      rw [Token.bare, readWithin, readWithin]
      split
      · exact .ok rfl
      · exact .error _ _
    | _ => exact .error _ _
  | succ depth ih =>
    cases token with
    | ident name span =>
      rw [Token.bare, readWithin, readWithin]
      split
      · exact .ok rfl
      · exact .error _ _
    | group delimiter content span =>
      cases delimiter with
      | parenthesis =>
        refine (Token.image_items content span {}).bind fun items => ?_
        refine (Image.mapM (image_readPart ih) items).bind fun patterns => ?_
        refine .ok ?_
        rw [bare, bareAll_eq_map]
      | _ => exact .error _ _
    | _ => exact .error _ _

theorem image_read (token : Token) : Image bare (read token) (read token.bare) := by
  rw [read, read, Token.depth_bare]
  exact image_readWithin _ token

end LoopPattern

-- ---------------------------------------------------------------------------
-- Readers
-- ---------------------------------------------------------------------------

/-- The second state is the first one without the spans of the tokens. -/
structure ReadState.Bare (state state' : ReadState) : Prop where
  rest : state'.cursor.rest = Token.bareAll state.cursor.rest
  nextId : state'.nextId = state.nextId
  notices : state'.notices = state.notices

namespace Reading

variable {α β γ δ : Type} {f : α → β} {g : γ → δ}

/-- Run beside a reader, on the bare tokens, the second one fails if the first does, and else gives
    the image of its result. -/
abbrev Bares (f : α → β) (read : Reading α) (read' : Reading β) : Prop :=
  Together ReadState.Bare (fun a b state state' => b = f a ∧ state.Bare state') read read'

namespace Bares

theorem bind {read : Reading α} {read' : Reading β} {next : α → Reading γ} {next' : β → Reading δ}
    (h : Bares f read read') (h' : ∀ a, Bares g (next a) (next' (f a))) :
    Bares g (read >>= next) (read' >>= next') :=
  Together.bind h fun a _ state state' related => related.1 ▸ h' a state state' related.2

theorem pure {a : α} {b : β} (eq : b = f a) : Bares f (Pure.pure a) (Pure.pure b) :=
  fun _ _ bare => .ok ⟨eq, bare⟩

theorem lift {x : Except SyntaxError α} {x' : Except SyntaxError β} (h : Image f x x') :
    Bares f (liftM x) (liftM x') := by
  intro state state' bare
  cases h with
  | ok eq => exact .ok ⟨eq, bare⟩
  | error e e' => exact .error e e'

theorem withFresh {read : StateM NodeId α} {read' : StateM NodeId β} (h : Expr.Maps f read read') :
    Bares f (Reading.withFresh read) (Reading.withFresh read') := by
  rintro ⟨cursor, supply, notices⟩ ⟨cursor', supply', notices'⟩ ⟨rest, nextId, rfl⟩
  obtain rfl : supply' = supply := nextId
  have image := h supply'
  exact .ok ⟨congrArg Prod.fst image, rest, congrArg Prod.snd image, rfl⟩

theorem notify (notice : Notice) : Bares id (Reading.notify notice) (Reading.notify notice) :=
  fun _ _ bare => .ok ⟨rfl, bare.rest, bare.nextId, congrArg notice.insert bare.notices⟩

theorem advance (count : Nat) : Bares id (Reading.advance count) (Reading.advance count) := by
  intro state state' bare
  refine .ok ⟨rfl, ?_, bare.nextId, bare.notices⟩
  rw [Cursor.advance_rest, Cursor.advance_rest, bare.rest, Token.bareAll_eq_map,
    Token.bareAll_eq_map, List.map_drop]

theorem mapM {read : α → Reading γ} {read' : β → Reading δ}
    (h : ∀ a, Bares g (read a) (read' (f a))) (items : List α) :
    Bares (List.map g) (items.mapM read) ((items.map f).mapM read') := by
  induction items with
  | nil => exact pure rfl
  | cons item rest ih =>
    rw [List.map_cons, List.mapM_cons, List.mapM_cons]
    exact (h item).bind fun first => ih.bind fun others => pure rfl

/-- After a look at the state, both readers know what is left. -/
theorem get_bind {next : ReadState → Reading γ} {next' : ReadState → Reading δ}
    (h : ∀ state state', state.Bare state' → Bares g (next state) (next' state')) :
    Bares g (get >>= next) (get >>= next') :=
  fun state state' bare => h state state' bare state state' bare

theorem peek_bind {next : Option Token → Reading γ} {next' : Option Token → Reading δ}
    (h : ∀ token, Bares g (next token) (next' (token.map Token.bare))) :
    Bares g (peek >>= next) (peek >>= next') := by
  intro state state' bare
  have head : state'.cursor.rest.head? = state.cursor.rest.head?.map Token.bare := by
    rw [bare.rest, Token.bareAll_eq_map, List.head?_map]
  have run : (peek >>= next').run state'
      = (next' (state.cursor.rest.head?.map Token.bare)).run state' := by
    rw [← head]
    rfl
  rw [run]
  exact h _ state state' bare

end Bares

theorem bares_identifier : Bares (fun found => (found.1, {})) identifier identifier := by
  refine .peek_bind fun token => ?_
  match token with
  | some (.ident name span) =>
    dsimp only [Option.map, Token.bare]
    split
    · exact (Bares.advance 1).bind fun _ => .pure rfl
    · exact .failAtCursor _ _
  | none | some (.punct ..) | some (.literal _) | some (.group ..) => exact .failAtCursor _ _

theorem bares_word (text : String) : Bares id (word text) (word text) := by
  refine .peek_bind fun token => ?_
  have same : (token.map Token.bare).any (isWord text) = token.any (isWord text) := by
    cases token with
    | none => rfl
    | some token => cases token <;> rfl
  rw [same]
  split
  · exact .advance 1
  · exact .failAtCursor _ _

theorem bares_group (delimiter : Delimiter) :
    Bares (fun found => (Token.bareAll found.1, {})) (group delimiter) (group delimiter) := by
  refine .peek_bind fun token => ?_
  match token with
  | some (.group d content span) =>
    dsimp only [Option.map, Token.bare]
    split
    · exact (Bares.advance 1).bind fun _ => .pure rfl
    · exact .failAtCursor _ _
  | none | some (.punct ..) | some (.literal _) | some (.ident ..) => exact .failAtCursor _ _

end Reading

-- ---------------------------------------------------------------------------
-- Loops
-- ---------------------------------------------------------------------------

open Reading

theorem LoopValue.bares_readWithin (depth : Nat) (tokens : List Token) :
    Bares bare (readWithin depth tokens) (readWithin depth (Token.bareAll tokens)) := by
  have expr (tokens : List Token) :
      Bares bare (do return .expr (← Reading.withFresh (Expr.read tokens)))
        (do return .expr (← Reading.withFresh (Expr.read (Token.bareAll tokens)))) :=
    (Bares.withFresh (Expr.maps_read tokens)).bind fun _ => .pure rfl
  induction depth generalizing tokens with
  | zero => exact expr tokens
  | succ depth ih =>
    match tokens with
    | [.group .parenthesis content span] =>
      refine (Bares.lift (Token.image_items content span {})).bind fun items => ?_
      refine (Bares.mapM ih items).bind fun values => .pure ?_
      rw [bare, bareAll_eq_map]
    | [.group .bracket ..] | [.group .brace ..] | [.group .none ..] | [.ident ..] | [.punct ..]
    | [.literal _] | [] => exact expr _
    | .group delimiter .. :: _ :: _ => cases delimiter <;> exact expr _
    | .ident .. :: _ :: _ | .punct .. :: _ :: _ | .literal _ :: _ :: _ => exact expr _

theorem LoopValue.bares_read (tokens : List Token) :
    Bares bare (read tokens) (read (Token.bareAll tokens)) := by
  rw [read, read, Token.depths_bareAll]
  exact bares_readWithin _ tokens

namespace Invocation

theorem bares_readLoop (span : Span) : Bares Loop.bare (readLoop span) (readLoop {}) := by
  refine (bares_word "for").bind fun _ => .peek_bind fun token => ?_
  cases token with
  | none => exact .failAtCursor_bind _ _ _ _
  | some token =>
    refine (Bares.lift (LoopPattern.image_read token)).bind fun pattern => ?_
    refine (Bares.advance 1).bind fun _ => ?_
    refine Bares.bind (f := LoopPattern.bare) (.pure rfl) fun pattern => ?_
    refine (bares_word "in").bind fun _ => ?_
    refine (bares_group .bracket).bind fun list => ?_
    refine (Bares.lift (Token.image_items _ _ _)).bind fun items => ?_
    exact (Bares.mapM LoopValue.bares_read items).bind fun values => .pure rfl

theorem isWord_bare (text : String) (token : Token) :
    isWord text token.bare = isWord text token := by
  cases token <;> rfl

theorem bares_readLoops (limit : Nat) :
    Bares (List.map Loop.bare) (readLoops limit) (readLoops limit) := by
  induction limit with
  | zero => exact .pure rfl
  | succ limit ih =>
    refine .peek_bind fun token => ?_
    cases token with
    | none => exact .pure rfl
    | some token =>
      simp only [Option.map_some, isWord_bare, Token.span_bare]
      split
      · exact (bares_readLoop token.span).bind fun loop => ih.bind fun loops => .pure rfl
      · exact .pure rfl

-- ---------------------------------------------------------------------------
-- Bindings
-- ---------------------------------------------------------------------------

theorem separatorOf?_bare (token : Token) : separatorOf? token.bare = separatorOf? token := by
  cases token <;> rfl

theorem takeWhile_bareAll (tokens : List Token) :
    (Token.bareAll tokens).takeWhile isOfValue = Token.bareAll (tokens.takeWhile isOfValue) := by
  have same (token : Token) : isOfValue token.bare = isOfValue token := by
    rw [isOfValue, isOfValue, separatorOf?_bare]
  simp only [Token.bareAll_eq_map, List.takeWhile_map, Function.comp_def, same]

theorem isLegacyConcatenation_bare (token : Token) :
    isLegacyConcatenation token.bare = isLegacyConcatenation token := by
  cases token with
  | group delimiter content span =>
    have semicolon (token : Token) : token.bare.isPunct ';' = token.isPunct ';' := by
      cases token <;> rfl
    cases delimiter with
    | bracket =>
      simp only [Token.bare, isLegacyConcatenation, Token.bareAll_eq_map, List.any_map]
      simp only [Function.comp_def, semicolon]
    | _ => rfl
  | _ => rfl

theorem bares_readValue (tokens : List Token) :
    Bares Expr.bare (readValue tokens) (readValue (Token.bareAll tokens)) := by
  have expr (tokens : List Token) : Bares Expr.bare (withFresh (Expr.read tokens))
      (withFresh (Expr.read (Token.bareAll tokens))) :=
    .withFresh (Expr.maps_read tokens)
  match tokens with
  | [.group delimiter content span] =>
    have legacy := isLegacyConcatenation_bare (.group delimiter content span)
    simp only [Token.bare] at legacy
    simp only [Token.bareAll, Token.bare, readValue, legacy]
    split
    · refine (Bares.notify _).bind fun _ => ?_
      exact .withFresh (Expr.maps_readConcatenation content span)
    · exact expr [.group delimiter content span]
  | [] => exact expr []
  | [.ident name span] => exact expr [.ident name span]
  | [.punct char joint span] => exact expr [.punct char joint span]
  | [.literal lit] => exact expr [.literal lit]
  | .group .. :: _ :: _ | .ident .. :: _ :: _ | .punct .. :: _ :: _ | .literal _ :: _ :: _ =>
    exact expr _

theorem bares_checkSeparator (used : Option Separator) (found : Separator) (span : Span) :
    Bares id (checkSeparator used found span) (checkSeparator used found {}) := by
  cases used with
  | none =>
    cases found with
    | comma => exact .pure rfl
    | semicolon => exact (Bares.notify _).bind fun _ => .pure rfl
  | some used =>
    rw [checkSeparator, checkSeparator]
    split
    · exact .pure rfl
    · exact .throw _ _

theorem bares_readBound (name : String) (span : Span) :
    Bares Binding.bare (readBound name span) (readBound name {}) := by
  refine .get_bind fun state state' bare => ?_
  dsimp only
  rw [bare.rest, takeWhile_bareAll, Token.length_bareAll]
  refine (Bares.advance _).bind fun _ => ?_
  generalize state.cursor.rest.takeWhile isOfValue = tokens
  cases tokens with
  | nil => exact .failAtCursor_bind _ _ _ _
  | cons first others =>
    rw [Token.detach_bareAll]
    exact (bares_readValue _).bind fun expr => .pure rfl

theorem bares_readBinding : Bares Binding.bare readBinding readBinding := by
  refine bares_identifier.bind fun found => .peek_bind fun token => ?_
  split
  · exact (Bares.advance 1).bind fun _ => bares_readBound found.1 found.2
  · next other =>
    have other' (span : Span) : token.map Token.bare ≠ some (.punct '=' false span) := by
      intro eq
      obtain ⟨token, rfl, bare⟩ := Option.map_eq_some_iff.mp eq
      cases token with
      | punct c joint span =>
        cases bare
        exact other span rfl
      | _ => cases bare
    split
    · next found => exact absurd found (other' _)
    · exact .failAtCursor_bind _ _ _ _

theorem bares_readBindings (limit : Nat) (used : Option Separator) :
    Bares (fun found => (found.1.map Binding.bare, found.2)) (readBindings limit used)
      (readBindings limit used) := by
  induction limit generalizing used with
  | zero => exact .pure rfl
  | succ limit ih =>
    refine .peek_bind fun token => ?_
    match token with
    | some (.ident name span) =>
      refine bares_readBinding.bind fun binding => .peek_bind fun token => ?_
      cases token with
      | none => exact .failAtCursor _ _
      | some token =>
        simp only [Option.map_some, separatorOf?_bare, Token.span_bare]
        cases separatorOf? token with
        | none => exact .failAtCursor _ _
        | some found =>
          refine (bares_checkSeparator used found token.span).bind fun used => ?_
          refine (Bares.advance 1).bind fun _ => ?_
          exact (ih (some used)).bind fun others => .pure rfl
    | none | some (.punct ..) | some (.literal _) | some (.group ..) => exact .pure rfl

-- ---------------------------------------------------------------------------
-- Whole invocations
-- ---------------------------------------------------------------------------

theorem bares_readEnding (used : Option Separator) :
    Bares id (readEnding used) (readEnding used) := by
  have atEnd : Bares id
      (do if (← get).cursor.atEnd then return else failAtCursor .afterBlock)
      (do if (← get).cursor.atEnd then return else failAtCursor .afterBlock) := by
    refine .get_bind fun state state' bare => ?_
    have same : state'.cursor.atEnd = state.cursor.atEnd := by
      rw [Cursor.atEnd, Cursor.atEnd, bare.rest]
      cases state.cursor.rest <;> rfl
    rw [same]
    split
    · exact .pure rfl
    · exact .failAtCursor _ _
  refine .peek_bind fun token => ?_
  cases token with
  | none => exact atEnd
  | some token =>
    simp only [Option.map_some, separatorOf?_bare, Token.span_bare]
    cases separatorOf? token with
    | none => exact .failAtCursor_bind _ _ _ _
    | some found =>
      cases used with
      | none => exact (Bares.advance 1).bind fun _ => atEnd
      | some used =>
        refine (bares_checkSeparator (some used) found token.span).bind fun _ => ?_
        exact (Bares.advance 1).bind fun _ => atEnd

theorem image_check (category : Category) (tokens : List Token) :
    Image id (category.check tokens) (category.check (Token.bareAll tokens)) := by
  have same : category.accepts (Token.bareAll tokens) = category.accepts tokens :=
    Category.accepts_of_alike (Token.alikeAll_bareAll tokens)
  rw [Bool.eq_iff_iff, Category.accepts_iff, Category.accepts_iff] at same
  cases check : category.check tokens with
  | ok =>
    rw [same.mpr check]
    exact .ok rfl
  | error e =>
    cases check' : category.check (Token.bareAll tokens) with
    | ok =>
      cases check.symm.trans (same.mp check')
    | error e' => exact .error e e'

theorem bares_read : Bares bare read read := by
  refine .get_bind fun state state' beside => ?_
  dsimp only
  rw [beside.rest, Token.length_bareAll, Token.firstSpan_bareAll]
  refine (bares_readLoops _).bind fun loops => ?_
  refine (bares_readBindings _ none).bind fun bindings => ?_
  refine (bares_group .brace).bind fun block => ?_
  refine (Bares.lift (image_check .block block.1)).bind fun _ => ?_
  exact (bares_readEnding bindings.2).bind fun _ => .pure rfl

/-- The same reading, up to spans. -/
structure SameReading (result result' : Invocation × ReadState) : Prop where
  invocation : result'.1.bare = result.1.bare
  nextId : result'.2.nextId = result.2.nextId
  notices : result'.2.notices = result.2.notices

theorem ofTokens_of_bareAll_eq {tokens tokens' : List Token} {nextId : NodeId}
    {result : Invocation × ReadState} (same : Token.bareAll tokens' = Token.bareAll tokens)
    (h : ofTokens tokens nextId = .ok result) :
    ∃ result', ofTokens tokens' nextId = .ok result' ∧ SameReading result result' := by
  have bared (tokens : List Token) := bares_read ⟨.start tokens, nextId, []⟩
    ⟨.start (Token.bareAll tokens), nextId, []⟩ ⟨rfl, rfl, rfl⟩
  have first := bared tokens
  have second := bared tokens'
  have run : read.run ⟨.start tokens, nextId, []⟩ = .ok result := h
  rw [run] at first
  rw [same] at second
  obtain ⟨shared, run, image, bare⟩ := first.exists_ok
  rw [run] at second
  obtain ⟨result', run', image', bare'⟩ := second.exists_ok_left
  exact ⟨result', run', image'.symm.trans image, bare'.nextId.symm.trans bare.nextId,
    bare'.notices.symm.trans bare.notices⟩

end Invocation

end AliasExpansion
