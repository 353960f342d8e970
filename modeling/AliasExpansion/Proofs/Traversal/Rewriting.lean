-- SUMMARY: A walk that decides by the tokens alone is a recursive rewriting of the tokens.
import AliasExpansion.Proofs.Outcome
import AliasExpansion.Proofs.Traversal.Place
import AliasExpansion.Traversal.Visitor

/-!
# Walks as rewritings

A visitor may decide about what it is shown without regard to the place and to what it has decided
before. Then the walk is a rewriting by recursion over the tokens (`Rewriting.rewriteStream`), and
what the visitor is shown can be told in advance (`Rewriting.visitsStream`). The invariant of the
walk: in the innermost frame the tokens before the cursor are rewritten, and in every frame the
tokens behind the cursor are the original ones, or what has replaced them on entering.
-/

namespace AliasExpansion

-- ---------------------------------------------------------------------------
-- Rewritings
-- ---------------------------------------------------------------------------

/-- What a visitor is shown during a walk. -/
inductive Visit where
  | atom (token : Token)
  | group (token : Token)
  | enter (content : List Token)
  | leave (content : List Token)
  /-- Something has been replaced. -/
  | replaced
deriving DecidableEq, Repr

namespace Action

/-- What is left of the tokens that were decided about. -/
def result (shown : List Token) : Action → List Token
  | .keep => shown
  | .drop => []
  | .replace tokens => tokens

/-- A replacement is announced. -/
def visits : Action → List Visit
  | .replace _ => [.replaced]
  | .keep | .drop => []

end Action

/-- Decisions that depend on nothing but what is shown. What replaces the content of a group on
    entering holds no groups. -/
structure Rewriting where
  atom : Token → Action := fun _ => .keep
  group : Token → Action := fun _ => .keep
  enter : List Token → Action := fun _ => .keep
  leave : List Token → Action := fun _ => .keep
  flat : ∀ content tokens, enter content = .replace tokens → ∀ token ∈ tokens,
    token.isGroup = false := by intro _ _ h; cases h

namespace Rewriting

variable (rewriting : Rewriting)

def rewriteAtom (token : Token) : List Token :=
  (rewriting.atom token).result [token]

/-- A group whose content has been rewritten, after the decision on leaving it. -/
def close (delimiter : Delimiter) (span : Span) (content : List Token) : List Token :=
  match rewriting.leave content with
  | .keep => [.group delimiter content span]
  | .drop => []
  | .replace tokens => [.group delimiter tokens span]

mutual

/-- The tokens that a token becomes. A group is entered only if it is kept, and what stands in it
    then is rewritten before the group is left. -/
def rewrite : Token → List Token
  | .group delimiter content span =>
    match rewriting.group (.group delimiter content span) with
    | .keep =>
      match rewriting.enter content with
      | .keep => rewriting.close delimiter span (rewriteAll content)
      | .drop => []
      | .replace tokens => rewriting.close delimiter span (tokens.flatMap rewriting.rewriteAtom)
    | .drop => []
    | .replace tokens => tokens
  | token => rewriting.rewriteAtom token

def rewriteAll : List Token → List Token
  | [] => []
  | token :: rest => rewrite token ++ rewriteAll rest

end

/-- The rewriting of a whole stream, which is left but not entered. -/
def rewriteStream (tokens : List Token) : List Token :=
  (rewriting.leave (rewriting.rewriteAll tokens)).result (rewriting.rewriteAll tokens)

def visitsAtom (token : Token) : List Visit :=
  .atom token :: (rewriting.atom token).visits

def visitsClose (content : List Token) : List Visit :=
  .leave content :: (rewriting.leave content).visits

mutual

/-- What is shown of a token: the token itself, and the content of a group that is entered. -/
def visits : Token → List Visit
  | .group delimiter content span =>
    .group (.group delimiter content span) ::
      match rewriting.group (.group delimiter content span) with
      | .keep =>
        .enter content ::
          match rewriting.enter content with
          | .keep => visitsAll content ++ rewriting.visitsClose (rewriting.rewriteAll content)
          | .drop => []
          | .replace tokens =>
            .replaced :: (tokens.flatMap rewriting.visitsAtom ++
              rewriting.visitsClose (tokens.flatMap rewriting.rewriteAtom))
      | .drop => []
      | .replace _ => [.replaced]
  | token => rewriting.visitsAtom token

def visitsAll : List Token → List Visit
  | [] => []
  | token :: rest => visits token ++ visitsAll rest

end

def visitsStream (tokens : List Token) : List Visit :=
  rewriting.visitsAll tokens ++ rewriting.visitsClose (rewriting.rewriteAll tokens)

end Rewriting

-- ---------------------------------------------------------------------------
-- Steps
-- ---------------------------------------------------------------------------

/-- The visitor decides by the rewriting, and notes what it is shown in its state. -/
structure Visitor.Decides {σ : Type} (visitor : Visitor σ) (rewriting : Rewriting)
    (note : σ → Visit → σ) : Prop where
  atom : ∀ frames token s,
    (visitor.atom frames token).run s = .ok (rewriting.atom token, note s (.atom token))
  group : ∀ frames token s,
    (visitor.group frames token).run s = .ok (rewriting.group token, note s (.group token))
  enter : ∀ frames content s,
    (visitor.enter frames content).run s = .ok (rewriting.enter content, note s (.enter content))
  leave : ∀ frames content s,
    (visitor.leave frames content).run s = .ok (rewriting.leave content, note s (.leave content))
  replaced : ∀ frames s, (visitor.replaced frames).run s = .ok ((), note s .replaced)

namespace Visitor

variable {σ : Type} {visitor : Visitor σ} {rewriting : Rewriting} {note : σ → Visit → σ}

/-- The visitor of a rewriting, with notes of any kind. -/
def ofRewriting (rewriting : Rewriting) (note : σ → Visit → σ) : Visitor σ where
  atom := fun _ token => do modify (note · (.atom token)); return rewriting.atom token
  group := fun _ token => do modify (note · (.group token)); return rewriting.group token
  enter := fun _ content => do modify (note · (.enter content)); return rewriting.enter content
  leave := fun _ content => do modify (note · (.leave content)); return rewriting.leave content
  replaced := fun _ => modify (note · .replaced)

theorem decides_ofRewriting (rewriting : Rewriting) (note : σ → Visit → σ) :
    (ofRewriting rewriting note).Decides rewriting note where
  atom := fun _ _ _ => rfl
  group := fun _ _ _ => rfl
  enter := fun _ _ _ => rfl
  leave := fun _ _ _ => rfl
  replaced := fun _ _ => rfl

/-- The walk goes from one place to another, whatever its limit, and is shown the visits. -/
def Leads (visitor : Visitor σ) (note : σ → Visit → σ) (frames : Frames) (visits : List Visit)
    (reached : Frames) : Prop :=
  ∃ steps, ∀ limit s, (visitor.walkFrom (limit + steps) frames).run s =
    (visitor.walkFrom limit reached).run (visits.foldl note s)

theorem Leads.refl (frames : Frames) : visitor.Leads note frames [] frames :=
  ⟨0, fun _ _ => rfl⟩

theorem Leads.trans {frames middle reached : Frames} {first second : List Visit}
    (h : visitor.Leads note frames first middle) (h' : visitor.Leads note middle second reached) :
    visitor.Leads note frames (first ++ second) reached := by
  obtain ⟨steps, h⟩ := h
  obtain ⟨steps', h'⟩ := h'
  refine ⟨steps' + steps, fun limit s => ?_⟩
  rw [← Nat.add_assoc, h, h', List.foldl_append]

theorem Leads.step {frames reached : Frames} {visits : List Visit}
    (h : ∀ s, (visitor.step frames).run s = .ok (.inl reached, visits.foldl note s)) :
    visitor.Leads note frames visits reached := by
  refine ⟨1, fun limit s => ?_⟩
  simp [walkFrom, h]

section

variable (decides : visitor.Decides rewriting note) (enclosures : List Enclosure)
  (before : List Token)

include decides

/-- Carrying out a decision about a token moves the place past what is left of it. -/
theorem run_apply (token : Token) (after : List Token) (action : Action) (s : σ) :
    (visitor.apply (.inside enclosures before (token :: after)) action).run s =
      .ok (.inside enclosures (before ++ action.result [token]) after,
        action.visits.foldl note s) := by
  cases action with
  | keep =>
    rw [apply, Frames.edit_advance_inside]
    rfl
  | drop =>
    rw [apply, Frames.edit_inside, Frame.remove_between, Action.result, List.append_nil]
    rfl
  | replace tokens =>
    have moved := Frames.edit_replace_inside enclosures before after token tokens
    simp only [apply, moved, StateT.run_bind, decides.replaced]
    rfl

theorem leads_atom {token : Token} (atom : token.isGroup = false) (after : List Token) :
    visitor.Leads note (.inside enclosures before (token :: after)) (rewriting.visitsAtom token)
      (.inside enclosures (before ++ rewriting.rewriteAtom token) after) := by
  refine .step fun s => ?_
  have decided := run_apply decides enclosures before token after (rewriting.atom token)
    (note s (.atom token))
  cases token with
  | group => cases atom
  | ident | punct | literal =>
    simp [step, decides.atom, decided, Rewriting.visitsAtom, Rewriting.rewriteAtom]

section

variable {delimiter : Delimiter} {content : List Token} {span : Span}

/-- A group that is dropped or replaced as a whole is not entered. -/
theorem leads_decided (decided : rewriting.group (.group delimiter content span) ≠ .keep)
    (after : List Token) :
    visitor.Leads note (.inside enclosures before (.group delimiter content span :: after))
      (.group (.group delimiter content span) ::
        (rewriting.group (.group delimiter content span)).visits)
      (.inside enclosures
        (before ++ (rewriting.group (.group delimiter content span)).result
          [.group delimiter content span]) after) := by
  refine .step fun s => ?_
  have applied := run_apply decides enclosures before (.group delimiter content span) after
    (rewriting.group (.group delimiter content span))
    (note s (.group (.group delimiter content span)))
  cases action : rewriting.group (.group delimiter content span) with
  | keep => exact absurd action decided
  | drop | replace =>
    rw [action] at applied
    simp [step, enterGroup, decides.group, action, applied]

variable (kept : rewriting.group (.group delimiter content span) = .keep)

include kept

/-- Entering a group with the content that it has, or with other content. -/
theorem leads_enter {entered : List Token}
    (result : rewriting.enter content = .keep ∧ entered = content ∨
      rewriting.enter content = .replace entered) (after : List Token) :
    visitor.Leads note (.inside enclosures before (.group delimiter content span :: after))
      (.group (.group delimiter content span) :: .enter content ::
        (rewriting.enter content).visits)
      (.inside ({ before, delimiter, content, span, after } :: enclosures) [] entered) := by
  refine .step fun s => ?_
  obtain ⟨action, rfl⟩ | action := result
  · simp [step, enterGroup, decides.group, decides.enter, kept, action, Frames.push_inside,
      Action.visits]
  · simp [step, enterGroup, decides.group, decides.enter, decides.replaced, kept, action,
      Frames.push_inside, Action.visits]
    rfl

theorem leads_drop (action : rewriting.enter content = .drop) (after : List Token) :
    visitor.Leads note (.inside enclosures before (.group delimiter content span :: after))
      [.group (.group delimiter content span), .enter content]
      (.inside enclosures before after) := by
  refine .step fun s => ?_
  simp [step, enterGroup, decides.group, decides.enter, kept, action, Frames.push_inside,
    Frames.popRemove_inside]

end

/-- Leaving a group puts what is left of it among the tokens around it. -/
theorem leads_leave (enclosure : Enclosure) (content : List Token) :
    visitor.Leads note (.inside (enclosure :: enclosures) content [])
      (rewriting.visitsClose content)
      (.inside enclosures
        (enclosure.before ++ rewriting.close enclosure.delimiter enclosure.span content)
        enclosure.after) := by
  refine .step fun s => ?_
  cases action : rewriting.leave content with
  | keep =>
    simp [step, leaveGroup, decides.leave, action, Frames.popFold_inside,
      Frames.edit_advance_inside, Rewriting.visitsClose, Rewriting.close, Action.visits,
      -Frames.edit_inside]
  | drop =>
    simp [step, leaveGroup, decides.leave, action, Frames.popRemove_inside,
      Rewriting.visitsClose, Rewriting.close, Action.visits]
  | replace tokens =>
    simp [step, leaveGroup, decides.leave, decides.replaced, action, Frames.popFold_replaceContent,
      Frames.edit_advance_inside, Rewriting.visitsClose, Rewriting.close, Action.visits,
      -Frames.edit_inside]

-- ---------------------------------------------------------------------------
-- Whole walks
-- ---------------------------------------------------------------------------

theorem leads_atoms {tokens : List Token} (atoms : ∀ token ∈ tokens, token.isGroup = false) :
    visitor.Leads note (.inside enclosures before tokens)
      (tokens.flatMap rewriting.visitsAtom)
      (.inside enclosures (before ++ tokens.flatMap rewriting.rewriteAtom) []) := by
  induction tokens generalizing before with
  | nil =>
    rw [List.flatMap_nil, List.flatMap_nil, List.append_nil]
    exact .refl _
  | cons token rest ih =>
    rw [List.forall_mem_cons] at atoms
    have first := leads_atom decides enclosures before atoms.1 rest
    rw [List.flatMap_cons, List.flatMap_cons, ← List.append_assoc]
    exact first.trans (ih _ atoms.2)

end

mutual

/-- The walk over a token goes past what the token is rewritten to. -/
theorem leads_rewrite (decides : visitor.Decides rewriting note) :
    ∀ (enclosures : List Enclosure) (before : List Token) (token : Token) (after : List Token),
      visitor.Leads note (.inside enclosures before (token :: after)) (rewriting.visits token)
        (.inside enclosures (before ++ rewriting.rewrite token) after)
  | enclosures, before, .group delimiter content span, after => by
    rw [Rewriting.visits, Rewriting.rewrite]
    let enclosure : Enclosure := { before, delimiter, content, span, after }
    cases decided : rewriting.group (.group delimiter content span) with
    | keep =>
      cases action : rewriting.enter content with
      | keep =>
        have enter := leads_enter decides enclosures before decided (.inl ⟨action, rfl⟩) after
        have inner := leads_rewriteAll decides (enclosure :: enclosures) [] content
        have leave := leads_leave decides enclosures enclosure (rewriting.rewriteAll content)
        rw [action] at enter
        exact enter.trans (inner.trans leave)
      | drop =>
        have dropped := leads_drop decides enclosures before decided action after
        simpa only [List.append_nil] using dropped
      | replace tokens =>
        have enter := leads_enter decides enclosures before decided (.inr action) after
        have inner := leads_atoms decides (enclosure :: enclosures) []
          (rewriting.flat content tokens action)
        have leave := leads_leave decides enclosures enclosure
          (tokens.flatMap rewriting.rewriteAtom)
        rw [action] at enter
        exact enter.trans (inner.trans leave)
    | drop | replace =>
      have outcome := leads_decided decides enclosures before (by rw [decided]; nofun) after
      rwa [decided] at outcome
  | enclosures, before, .ident name span, after => leads_atom decides enclosures before rfl after
  | enclosures, before, .punct char joint span, after =>
    leads_atom decides enclosures before rfl after
  | enclosures, before, .literal lit, after => leads_atom decides enclosures before rfl after

theorem leads_rewriteAll (decides : visitor.Decides rewriting note) :
    ∀ (enclosures : List Enclosure) (before tokens : List Token),
      visitor.Leads note (.inside enclosures before tokens) (rewriting.visitsAll tokens)
        (.inside enclosures (before ++ rewriting.rewriteAll tokens) [])
  | enclosures, before, [] => by
    rw [Rewriting.visitsAll, Rewriting.rewriteAll, List.append_nil]
    exact .refl _
  | enclosures, before, token :: rest => by
    rw [Rewriting.visitsAll, Rewriting.rewriteAll, ← List.append_assoc]
    exact (leads_rewrite decides enclosures before token rest).trans
      (leads_rewriteAll decides enclosures _ rest)

end

/-- At the end of the stream the walk is left with what the decision on leaving makes of it. -/
theorem run_step_end (decides : visitor.Decides rewriting note) (tokens : List Token) (s : σ) :
    (visitor.step (.inside [] tokens [])).run s = .ok
      (.inr ((rewriting.leave tokens).result tokens),
        (rewriting.visitsClose tokens).foldl note s) := by
  cases action : rewriting.leave tokens with
  | keep | drop =>
    simp [step, finish, decides.leave, action, Action.result, Action.visits,
      Rewriting.visitsClose]
  | replace replacement =>
    simp [step, finish, decides.leave, decides.replaced, action, Action.result, Action.visits,
      Rewriting.visitsClose]

/-- A walk of a visitor that decides by what it is shown alone ends, with the recursive rewriting of
    the stream, and shows the visitor exactly the visits of the rewriting: nothing that has replaced
    an atom or a group is among them. -/
theorem walk_rewrites (visitor : Visitor σ) (rewriting : Rewriting) (note : σ → Visit → σ)
    (decides : visitor.Decides rewriting note) (tokens : List Token) :
    ∃ enough, ∀ limit, enough ≤ limit → ∀ s, (visitor.walk limit tokens).run s =
      .ok (rewriting.rewriteStream tokens, (rewriting.visitsStream tokens).foldl note s) := by
  obtain ⟨steps, leads⟩ := leads_rewriteAll decides [] [] tokens
  refine ⟨1 + steps, fun limit le s => ?_⟩
  obtain ⟨more, rfl⟩ := Nat.exists_eq_add_of_le' le
  have final := run_step_end decides (rewriting.rewriteAll tokens)
    ((rewriting.visitsAll tokens).foldl note s)
  rw [walk, Frames.start_eq_inside, ← Nat.add_assoc, leads, walkFrom]
  simp [final, Rewriting.rewriteStream, Rewriting.visitsStream]

/-- In `a [a] (c) {}` the name `a` becomes `b a`, brackets and empty groups are dropped, and `c`
    alone in a group is replaced by `a` on entering. Of the names that were put in, only the `a` for
    `c` is visited. -/
theorem walk_rewrites_nested :
    let name (text : String) : Token := .ident text {}
    let rewriting : Rewriting :=
      { atom := fun token => if token = name "a" then .replace [name "b", name "a"] else .keep
        group := fun token => if token = .group .bracket [name "a"] {} then .drop else .keep
        enter := fun content => if content = [name "c"] then .replace [name "a"] else .keep
        leave := fun content => if content = [] then .drop else .keep
        flat := by
          intro content tokens h
          split at h <;> cases h
          simp [name, Token.isGroup] }
    let note (seen : List Visit) (visit : Visit) := seen ++ [visit]
    let visitor := Visitor.ofRewriting rewriting note
    visitor.Decides rewriting note ∧ ∃ enough,
      (visitor.walk enough [name "a", .group .bracket [name "a"] {},
          .group .parenthesis [name "c"] {}, .group .brace [] {}]).run [] =
        .ok ([name "b", name "a", .group .parenthesis [name "b", name "a"] {}],
          [.atom (name "a"), .replaced, .group (.group .bracket [name "a"] {}),
            .group (.group .parenthesis [name "c"] {}), .enter [name "c"], .replaced,
            .atom (name "a"), .replaced, .leave [name "b", name "a"],
            .group (.group .brace [] {}), .enter [], .leave [],
            .leave [name "b", name "a", .group .parenthesis [name "b", name "a"] {}]]) := by
  intro name rewriting note visitor
  have decides : visitor.Decides rewriting note := decides_ofRewriting rewriting note
  obtain ⟨enough, walks⟩ := walk_rewrites visitor rewriting note decides
    [name "a", .group .bracket [name "a"] {}, .group .parenthesis [name "c"] {},
      .group .brace [] {}]
  refine ⟨decides, enough, ?_⟩
  rw [walks enough (Nat.le_refl enough)]
  decide +kernel

end Visitor

end AliasExpansion
