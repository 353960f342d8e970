-- SUMMARY: Places of a walk: stacks of frames as the groups around a cursor, and how edits move them.
import AliasExpansion.Traversal.Frames

/-!
# Places

A stack of frames describes a place in a stream: in every frame the tokens before the cursor and
the tokens from the cursor on, where the cursor of an outer frame stands at the group that the
next frame is the content of. The lemmas say what each edit of the stack does to this view, so
that a proof about a walk need not look at cursors.
-/

namespace AliasExpansion

-- ---------------------------------------------------------------------------
-- Frames
-- ---------------------------------------------------------------------------

namespace Frame

/-- The frame whose cursor stands between two runs of tokens. -/
def between (before after : List Token) : Frame where
  cursor := before.length
  tokens := before ++ after

@[simp] theorem tokens_between (before after : List Token) :
    (between before after).tokens = before ++ after := rfl

@[simp] theorem current?_between (before after : List Token) :
    (between before after).current? = after.head? := by
  simp [current?, between, List.head?_eq_getElem?, List.getElem?_append_right]

theorem advance_between (before : List Token) (token : Token) (after : List Token) :
    (between before (token :: after)).advance = between (before ++ [token]) after := by
  simp only [advance, between, Frame.mk.injEq, List.length_append, List.length_cons,
    List.length_nil, List.append_assoc, List.singleton_append, and_true]
  omega

/-- After a replacement the cursor moves past the tokens that were put in. -/
theorem replace_between (before : List Token) (token : Token) (after replacement : List Token) :
    (if replacement.isEmpty then (between before (token :: after)).replace replacement
      else ((between before (token :: after)).replace replacement).advance) =
      between (before ++ replacement) after := by
  have htokens : ((between before (token :: after)).replace replacement).tokens =
      before ++ replacement ++ after := by
    simp [replace, between]
  cases replacement with
  | nil => simp [replace, between]
  | cons first rest =>
    simp only [List.isEmpty_cons, Bool.false_eq_true, if_false, advance, htokens]
    simp only [replace, between, Frame.mk.injEq, List.length_append, List.length_cons,
      List.length_take, List.length_drop, and_true]
    omega

theorem remove_between (before : List Token) (token : Token) (after : List Token) :
    (between before (token :: after)).remove = between before after := by
  simp [remove, between, List.eraseIdx_append_of_length_le]

theorem fold_between (before : List Token) (delimiter : Delimiter) (old content : List Token)
    (span : Span) (after : List Token) :
    (between before (.group delimiter old span :: after)).fold content =
      .ok (between before (.group delimiter content span :: after)) := by
  simp [fold, between, current?]

end Frame

-- ---------------------------------------------------------------------------
-- Stacks
-- ---------------------------------------------------------------------------

/-- A group that is being walked, with the tokens around it. -/
structure Enclosure where
  before : List Token
  delimiter : Delimiter
  /-- What the group held when it was entered. -/
  content : List Token
  span : Span
  after : List Token

namespace Enclosure

def frame (enclosure : Enclosure) : Frame :=
  .between enclosure.before
    (.group enclosure.delimiter enclosure.content enclosure.span :: enclosure.after)

/-- The tokens around the group, with the group holding `content`. -/
def plug (enclosure : Enclosure) (content : List Token) : List Token :=
  enclosure.before ++ .group enclosure.delimiter content enclosure.span :: enclosure.after

/-- The whole stream around the innermost of several groups, which holds `content`. -/
def plugAll (enclosures : List Enclosure) (content : List Token) : List Token :=
  enclosures.foldl (fun content enclosure => enclosure.plug content) content

@[simp] theorem plugAll_nil (content : List Token) : plugAll [] content = content := rfl

@[simp] theorem plugAll_cons (enclosure : Enclosure) (outer : List Enclosure)
    (content : List Token) :
    plugAll (enclosure :: outer) content = plugAll outer (enclosure.plug content) := rfl

theorem fold_frame (enclosure : Enclosure) (content : List Token) :
    enclosure.frame.fold content = .ok { enclosure with content }.frame :=
  Frame.fold_between ..

end Enclosure

namespace Frames

/-- The stack for a cursor between two runs of tokens inside groups, innermost first. -/
def inside (enclosures : List Enclosure) (before after : List Token) : Frames where
  stack := .between before after :: enclosures.map Enclosure.frame

variable (enclosures : List Enclosure) (before after : List Token)

theorem start_eq_inside (tokens : List Token) : start tokens = inside [] [] tokens := rfl

@[simp] theorem top_inside :
    (inside enclosures before after).top = .ok (.between before after) := rfl

@[simp] theorem depth_inside :
    (inside enclosures before after).depth = enclosures.length + 1 := by
  simp [depth, inside]

@[simp] theorem edit_inside (change : Frame → Frame) :
    (inside enclosures before after).edit change =
      { stack := change (.between before after) :: enclosures.map Enclosure.frame } := rfl

theorem edit_advance_inside (token : Token) :
    (inside enclosures before (token :: after)).edit Frame.advance =
      inside enclosures (before ++ [token]) after := by
  rw [edit_inside, Frame.advance_between]
  rfl

/-- A replacement moves the place past the tokens that were put in. -/
theorem edit_replace_inside (token : Token) (replacement : List Token) :
    (if replacement.isEmpty then
        (inside enclosures before (token :: after)).edit (·.replace replacement)
      else ((inside enclosures before (token :: after)).edit (·.replace replacement)).edit
        Frame.advance) =
      inside enclosures (before ++ replacement) after := by
  have moved := Frame.replace_between before token after replacement
  rw [inside, inside, ← moved]
  split <;> rfl

theorem push_inside (delimiter : Delimiter) (content : List Token) (span : Span) :
    (inside enclosures before (.group delimiter content span :: after)).push content =
      inside ({ before, delimiter, content, span, after } :: enclosures) [] content := rfl

/-- Leaving a group puts the walked content into it and moves the cursor past it. -/
theorem popFold_inside (enclosure : Enclosure) (content : List Token) :
    (inside (enclosure :: enclosures) content []).popFold =
      .ok (inside enclosures enclosure.before
        (.group enclosure.delimiter content enclosure.span :: enclosure.after)) := by
  simp only [popFold, inside, List.map_cons, Frame.tokens_between, List.append_nil,
    Enclosure.fold_frame]
  rfl

/-- The same after the content has been replaced as a whole. -/
theorem popFold_replaceContent (enclosure : Enclosure) (content : List Token) :
    ((inside (enclosure :: enclosures) before after).replaceContent content).popFold =
      .ok (inside enclosures enclosure.before
        (.group enclosure.delimiter content enclosure.span :: enclosure.after)) := by
  simp only [popFold, replaceContent, edit, inside, List.map_cons, List.modifyHead_cons,
    Enclosure.fold_frame]
  rfl

/-- Dropping a group that has been entered leaves the tokens around it. -/
theorem popRemove_inside (enclosure : Enclosure) :
    (inside (enclosure :: enclosures) before after).popRemove =
      .ok (inside enclosures enclosure.before enclosure.after) := by
  have stands : enclosure.frame.isExhausted = false := by
    simp [Frame.isExhausted, Enclosure.frame, Frame.between]
  simp only [popRemove, inside, List.map_cons, stands, Bool.false_eq_true, if_false]
  rw [Enclosure.frame, Frame.remove_between]

theorem stream_inside :
    (inside enclosures before after).stream =
      .ok (Enclosure.plugAll enclosures (before ++ after)) := by
  simp only [stream, inside, Frame.tokens_between]
  generalize before ++ after = content
  induction enclosures generalizing content with
  | nil => rfl
  | cons enclosure outer ih =>
    simp only [List.map_cons, List.foldlM_cons, Enclosure.fold_frame, Enclosure.plugAll_cons]
    exact ih (enclosure.plug content)

end Frames

end AliasExpansion
