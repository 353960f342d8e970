-- SUMMARY: Notices at the places of a body: putting their attributes in and taking them out.
import AliasExpansion.Notice.Basic
import AliasExpansion.Proofs.Notice.Marks

/-!
# Attached notices

A map from places to notices stands for attributes in front of these places (`attributesAt`). Such
marks can be taken out again (`Token.withoutMarks`), and `placed` lists the notices in depth-first
order. `Attaches` says of a computation that it did nothing else than to attach the first pending
notices in this order; it is closed under what the walk over a body does: going on behind a part of
it, entering a group, and putting an attribute in front of an element.
-/

namespace AliasExpansion

-- ---------------------------------------------------------------------------
-- Taking marks out
-- ---------------------------------------------------------------------------

namespace Token

mutual

def unmark (marks : List Nat → List Token) : Token → Token
  | .group delimiter content span =>
    .group delimiter (unmarkAll marks 0 (marks [0]).length content) span
  | token => token

/-- The tokens without `marks`: first `skip` tokens are left out, and after the token at a position
    as many as stand in front of the next one. -/
def unmarkAll (marks : List Nat → List Token) (position skip : Nat) : List Token → List Token
  | [] => []
  | token :: rest =>
    match skip with
    | skip + 1 => unmarkAll marks position skip rest
    | 0 =>
      unmark (fun path => marks (position :: path)) token ::
        unmarkAll marks (position + 1) (marks [position + 1]).length rest

end

/-- The tokens without the marks that `markAll` put in. -/
def withoutMarks (marks : List Nat → List Token) (tokens : List Token) : List Token :=
  unmarkAll marks 0 (marks [0]).length tokens

theorem unmarkAll_skip (marks : List Nat → List Token) (position : Nat)
    (skipped tokens : List Token) :
    unmarkAll marks position skipped.length (skipped ++ tokens)
      = unmarkAll marks position 0 tokens := by
  induction skipped with
  | nil => rfl
  | cons token skipped ih => rw [List.length_cons, List.cons_append, unmarkAll, ih]

mutual

theorem unmark_mark (marks : List Nat → List Token) (token : Token) :
    unmark marks (mark marks token) = token := by
  match token with
  | .ident _ _ | .punct _ _ _ | .literal _ => rfl
  | .group delimiter content span => rw [mark, unmark, unmarkAll_markAll]

theorem unmarkAll_markAll (marks : List Nat → List Token) (position : Nat) (tokens : List Token) :
    unmarkAll marks position (marks [position]).length (markAll marks position tokens)
      = tokens := by
  match tokens with
  | [] => rfl
  | token :: rest =>
    rw [markAll, unmarkAll_skip, unmarkAll, unmark_mark, unmarkAll_markAll]

end

theorem withoutMarks_markAll (marks : List Nat → List Token) (tokens : List Token) :
    withoutMarks marks (markAll marks 0 tokens) = tokens :=
  unmarkAll_markAll marks 0 tokens

end Token

-- ---------------------------------------------------------------------------
-- Notices at places
-- ---------------------------------------------------------------------------

namespace Notice

/-- The attribute tokens at each place, for a map from places to notices. -/
def attributesAt (lead : String) (places : List Nat → Option Notice) (path : List Nat) :
    List Token :=
  match places path with
  | some notice => notice.attributeTokens lead
  | none => []

/-- The notices at places in the content of the group at `position`, placed in the body around. -/
def placesInside (position : Nat) (places : List Nat → Option Notice) : List Nat → Option Notice
  | first :: place :: inner => if first = position then places (place :: inner) else none
  | _ => none

/-- The notices of two parts of a body, of which the second one starts at `cut`. -/
def placesAcross (cut : Nat) (places places' : List Nat → Option Notice) (path : List Nat) :
    Option Notice :=
  if path.headD 0 < cut then places path else places' path

/-- One more notice, in front of the token at `position`. -/
def placesBefore (position : Nat) (notice : Notice) (places : List Nat → Option Notice)
    (path : List Nat) : Option Notice :=
  if path = [position] then some notice else places path

section Places

variable {lead : String} {places places' : List Nat → Option Notice} {position cut place : Nat}
  {notice : Notice}

theorem attributesAt_congr {path path' : List Nat} (same : places path = places' path') :
    attributesAt lead places path = attributesAt lead places' path' := by
  rw [attributesAt, attributesAt, same]

theorem placesInside_self (path : List Nat) :
    placesInside position places (position :: place :: path) = places (place :: path) :=
  if_pos rfl

theorem placesInside_of_ne (ne : place ≠ position) (path : List Nat) :
    placesInside position places (place :: path) = none := by
  cases path with
  | nil => rfl
  | cons => exact if_neg ne

/-- What `placesInside` says of a path that has a notice. -/
theorem of_placesInside {path : List Nat} (marked : placesInside position places path ≠ none) :
    ∃ place inner, path = position :: place :: inner ∧ places (place :: inner) ≠ none := by
  rcases path with _ | ⟨first, _ | ⟨place, inner⟩⟩
  · exact absurd rfl marked
  · exact absurd rfl marked
  · by_cases eq : first = position
    · subst eq
      rw [placesInside_self] at marked
      exact ⟨place, inner, rfl, marked⟩
    · exact absurd (placesInside_of_ne eq (place :: inner)) marked

theorem placesAcross_of_lt (lt : place < cut) (path : List Nat) :
    placesAcross cut places places' (place :: path) = places (place :: path) :=
  if_pos lt

theorem placesAcross_of_le (le : cut ≤ place) (path : List Nat) :
    placesAcross cut places places' (place :: path) = places' (place :: path) :=
  if_neg (Nat.not_lt.mpr le)

/-- A path that has a notice has it in one of the two parts. -/
theorem of_placesAcross {path : List Nat} (marked : placesAcross cut places places' path ≠ none) :
    places path ≠ none ∨ places' path ≠ none := by
  rw [placesAcross] at marked
  split at marked
  · exact .inl marked
  · exact .inr marked

theorem placesBefore_self : placesBefore position notice places [position] = some notice :=
  if_pos rfl

theorem placesBefore_of_ne {path : List Nat} (ne : path ≠ [position]) :
    placesBefore position notice places path = places path :=
  if_neg ne

end Places

mutual

def placedIn (places : List Nat → Option Notice) : Token → List Notice
  | .group _ content _ => placed places 0 content
  | _ => []

/-- The notices at the places of a body in depth-first order, where `position` is the one of the
    first token. -/
def placed (places : List Nat → Option Notice) (position : Nat) : List Token → List Notice
  | [] => []
  | token :: rest =>
    (places [position]).toList ++ placedIn (fun path => places (position :: path)) token ++
      placed places (position + 1) rest

end

theorem placed_append (places : List Nat → Option Notice) (position : Nat)
    (before after : List Token) :
    placed places position (before ++ after)
      = placed places position before ++ placed places (position + before.length) after := by
  induction before generalizing position with
  | nil => rfl
  | cons token before ih =>
    rw [List.cons_append, placed, placed, ih, List.append_assoc, List.append_assoc,
      List.append_assoc, List.length_cons, Nat.add_assoc, Nat.add_comm 1]

mutual

theorem placedIn_congr {places places' : List Nat → Option Notice}
    (same : ∀ place path, places (place :: path) = places' (place :: path))
    (token : Token) : placedIn places token = placedIn places' token := by
  match token with
  | .ident _ _ | .punct _ _ _ | .literal _ => rfl
  | .group delimiter content span =>
    rw [placedIn, placedIn, placed_congr fun place path _ _ => same place path]

theorem placed_congr {places places' : List Nat → Option Notice} {position : Nat}
    {tokens : List Token} (same : ∀ place path, position ≤ place → place < position + tokens.length →
      places (place :: path) = places' (place :: path)) :
    placed places position tokens = placed places' position tokens := by
  match tokens with
  | [] => rfl
  | token :: rest =>
    rw [List.length_cons] at same
    have here : ∀ path, places (position :: path) = places' (position :: path) :=
      fun path => same position path (Nat.le_refl _) (by omega)
    have inside : placedIn (fun path => places (position :: path)) token
        = placedIn (fun path => places' (position :: path)) token := by
      refine placedIn_congr ?_ token
      exact fun place path => here (place :: path)
    have later : placed places (position + 1) rest = placed places' (position + 1) rest :=
      placed_congr fun place path le lt => same place path (Nat.le_of_succ_le le) (by omega)
    rw [placed, placed, here, inside, later]

end

mutual

theorem placedIn_none (token : Token) : placedIn (fun _ => none) token = [] := by
  match token with
  | .ident _ _ | .punct _ _ _ | .literal _ => rfl
  | .group delimiter content span => rw [placedIn, placed_none]

theorem placed_none (position : Nat) (tokens : List Token) :
    placed (fun _ => none) position tokens = [] := by
  match tokens with
  | [] => rfl
  | token :: rest => rw [placed, placedIn_none, placed_none]; rfl

end

theorem placed_nowhere {places : List Nat → Option Notice} {position : Nat} {tokens : List Token}
    (nowhere : ∀ place path, position ≤ place → place < position + tokens.length →
      places (place :: path) = none) : placed places position tokens = [] :=
  (placed_congr nowhere).trans (placed_none position tokens)

theorem markAll_attributesAt_congr {lead : String} {places places' : List Nat → Option Notice}
    {position : Nat} {tokens : List Token}
    (same : ∀ place path, position ≤ place → place < position + tokens.length →
      places (place :: path) = places' (place :: path)) :
    Token.markAll (attributesAt lead places) position tokens
      = Token.markAll (attributesAt lead places') position tokens :=
  Token.markAll_congr fun place path le lt => attributesAt_congr (same place path le lt)

theorem markAll_attributesAt_nowhere {lead : String} {places : List Nat → Option Notice}
    {position : Nat} {tokens : List Token}
    (nowhere : ∀ place path, position ≤ place → place < position + tokens.length →
      places (place :: path) = none) :
    Token.markAll (attributesAt lead places) position tokens = tokens :=
  Token.markAll_unmarked fun place path le lt => by rw [attributesAt, nowhere place path le lt]

-- ---------------------------------------------------------------------------
-- Attached notices
-- ---------------------------------------------------------------------------

/-- `result` is made of a body and of pending notices by attaching some of them, in order, at
    allowed places: the tokens that come out, and the notices that are still pending. -/
def Attaches (lead : String) (allowed : List Nat → Prop) (position : Nat) (tokens : List Token)
    (pending : List Notice) (result : List Token × List Notice) : Prop :=
  ∃ places : List Nat → Option Notice,
    (∀ path, places path ≠ none → allowed path)
    ∧ result.1 = Token.markAll (attributesAt lead places) position tokens
    ∧ pending = placed places position tokens ++ result.2

namespace Attaches

variable {lead : String} {allowed allowed' : List Nat → Prop} {position : Nat}
  {tokens before after content : List Token} {pending : List Notice}
  {result result' : List Token × List Notice}

theorem refl : Attaches lead allowed position tokens pending (tokens, pending) := by
  refine ⟨fun _ => none, fun path h => absurd rfl h, ?_, ?_⟩
  · exact (Token.markAll_nil position tokens).symm
  · rw [placed_none]
    rfl

theorem mono (imp : ∀ path, allowed path → allowed' path)
    (h : Attaches lead allowed position tokens pending result) :
    Attaches lead allowed' position tokens pending result := by
  obtain ⟨places, hallowed, rest⟩ := h
  exact ⟨places, fun path marked => imp path (hallowed path marked), rest⟩

theorem append (h : Attaches lead allowed position before pending result)
    (h' : Attaches lead allowed (position + before.length) after result.2 result') :
    Attaches lead allowed position (before ++ after) pending
      (result.1 ++ result'.1, result'.2) := by
  obtain ⟨places, hallowed, hout, hpending⟩ := h
  obtain ⟨places', hallowed', hout', hpending'⟩ := h'
  let both := placesAcross (position + before.length) places places'
  have left : ∀ place path, position ≤ place → place < position + before.length →
      both (place :: path) = places (place :: path) :=
    fun _ path _ lt => placesAcross_of_lt lt path
  have right : ∀ place path, position + before.length ≤ place →
      place < position + before.length + after.length →
      both (place :: path) = places' (place :: path) :=
    fun _ path le _ => placesAcross_of_le le path
  refine ⟨both, ?_, ?_, ?_⟩
  · intro path marked
    exact (of_placesAcross marked).elim (hallowed path) (hallowed' path)
  · rw [Token.markAll_append, markAll_attributesAt_congr left, markAll_attributesAt_congr right,
      hout, hout']
  · rw [placed_append, placed_congr left, placed_congr right, List.append_assoc, ← hpending',
      ← hpending]

/-- Notices attached in the content of a group are attached in the body around it. -/
theorem group {delimiter : Delimiter} {span : Span}
    (h : Attaches lead allowed 0 content pending result) :
    Attaches lead (fun path => ∃ place inner,
        path = (position + before.length) :: place :: inner ∧ allowed (place :: inner))
      position (before ++ .group delimiter content span :: after) pending
      (before ++ .group delimiter result.1 span :: after, result.2) := by
  obtain ⟨places, hallowed, hout, hpending⟩ := h
  let around := placesInside (position + before.length) places
  have first : ∀ place path, position ≤ place → place < position + before.length →
      around (place :: path) = none :=
    fun _ path _ lt => placesInside_of_ne (Nat.ne_of_lt lt) path
  have last : ∀ place path, position + before.length + 1 ≤ place →
      place < position + before.length + 1 + after.length → around (place :: path) = none :=
    fun _ path le _ => placesInside_of_ne (Nat.ne_of_gt le) path
  have unmarked : attributesAt lead around [position + before.length] = [] := rfl
  refine ⟨around, ?_, ?_, ?_⟩
  · intro path marked
    obtain ⟨place, inner, rfl, hinner⟩ := of_placesInside marked
    exact ⟨place, inner, rfl, hallowed _ hinner⟩
  · have inside : Token.markAll
          (fun path => attributesAt lead around ((position + before.length) :: path)) 0 content
        = Token.markAll (attributesAt lead places) 0 content :=
      Token.markAll_congr fun _ path _ _ => attributesAt_congr (placesInside_self path)
    rw [Token.markAll_append, Token.markAll, Token.mark, unmarked, List.nil_append, hout,
      markAll_attributesAt_nowhere first, markAll_attributesAt_nowhere last, inside]
  · have inside : placedIn (fun path => around ((position + before.length) :: path))
        (.group delimiter content span) = placed places 0 content := by
      rw [placedIn]
      exact placed_congr fun _ path _ _ => placesInside_self path
    rw [placed_append, placed, inside, placed_nowhere first, placed_nowhere last, hpending,
      List.append_nil]
    rfl

/-- A notice in front of an element, before those attached inside it. -/
theorem front {notice : Notice} (here : allowed [position]) (ne : tokens ≠ [])
    (h : Attaches lead (fun path => path ≠ [position] ∧ allowed path) position tokens pending
      result) :
    Attaches lead allowed position tokens (notice :: pending)
      (notice.attributeTokens lead ++ result.1, result.2) := by
  obtain ⟨places, hallowed, hout, hpending⟩ := h
  obtain ⟨token, rest, rfl⟩ := List.exists_cons_of_ne_nil ne
  have free : places [position] = none :=
    Classical.byContradiction fun marked => (hallowed _ marked).1 rfl
  let more := placesBefore position notice places
  have at_first : more [position] = some notice := placesBefore_self
  have inside : ∀ place path, more (position :: place :: path) = places (position :: place :: path) :=
    fun place path => placesBefore_of_ne (by simp)
  have later : ∀ place path, position + 1 ≤ place → place < position + 1 + rest.length →
      more (place :: path) = places (place :: path) :=
    fun _ _ le _ => placesBefore_of_ne fun eq => Nat.ne_of_gt le (List.cons.inj eq).1
  refine ⟨more, ?_, ?_, ?_⟩
  · intro path marked
    by_cases eq : path = [position]
    · exact eq ▸ here
    · have same : more path = places path := placesBefore_of_ne eq
      exact (hallowed path (same ▸ marked)).2
  · have first : attributesAt lead places [position] = [] := by rw [attributesAt, free]
    have first' : attributesAt lead more [position] = notice.attributeTokens lead := by
      rw [attributesAt, at_first]
    have hinside : Token.mark (fun path => attributesAt lead more (position :: path)) token
        = Token.mark (fun path => attributesAt lead places (position :: path)) token :=
      Token.mark_congr (fun place path => attributesAt_congr (inside place path)) token
    rw [hout, Token.markAll, Token.markAll, first, first', hinside,
      markAll_attributesAt_congr later]
    rfl
  · have hinside : placedIn (fun path => more (position :: path)) token
        = placedIn (fun path => places (position :: path)) token :=
      placedIn_congr inside token
    rw [placed, placed_congr later, hinside, at_first, hpending, placed, free]
    rfl

end Attaches

end Notice

end AliasExpansion
