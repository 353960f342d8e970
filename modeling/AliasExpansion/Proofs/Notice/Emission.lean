-- SUMMARY: Attaching notices inserts attributes, in order, and changes nothing else.
import AliasExpansion.Notice.Placement
import AliasExpansion.Proofs.Grammar.Extents
import AliasExpansion.Proofs.Notice.Attached

/-!
# Emission

What `Notice.emit` gives is the block with the attributes of some notices at places of it. The
places are targets of the walk (`Placement.Target`): members that it comes to and that are not
deprecated. The notices there, in depth-first order, are the first ones of the list.
-/

namespace AliasExpansion

-- ---------------------------------------------------------------------------
-- The group that is entered
-- ---------------------------------------------------------------------------

namespace Placement

/-- The group of a member that the walk enters, and the members of its content. -/
def entry? : Member → List Token → Option (Nat × Member)
  | .statement, tokens =>
    match itemKind? tokens, body? tokens with
    | some .struct, some place | some .union, some place => some (place, .namedField)
    | some .struct, none | some .union, none =>
      (tupleFields? tokens).map fun place => (place, .tupleField)
    | some .enum, some place => some (place, .variant)
    | some .trait, some place | some .foreign, some place => some (place, .assocItem)
    | some .fn, some place | some .mod, some place => some (place, .statement)
    | _, _ => none
  | .variant, tokens =>
    match tokens[afterVariantName tokens]? with
    | some (.group .brace _ _) => some (afterVariantName tokens, .namedField)
    | some (.group .parenthesis _ _) => some (afterVariantName tokens, .tupleField)
    | _ => none
  | .assocItem, tokens =>
    match itemKind? tokens, body? tokens with
    | some .fn, some place => some (place, .statement)
    | _, _ => none
  | .namedField, _ | .tupleField, _ => none

variable {inner : Member → List Token → Placing (List Token)} {kind : Member} {tokens : List Token}

theorem descend_eq :
    descend inner kind tokens = match entry? kind tokens with
      | some (place, kind') => inGroup tokens place (inner kind')
      | none => pure tokens := by
  cases kind with
  | statement =>
    rw [descend, item, entry?]
    cases itemKind? tokens with
    | none => rfl
    | some word =>
      cases body? tokens with
      | some place => cases word <;> rfl
      | none =>
        cases word with
        | struct | union => dsimp only; cases tupleFields? tokens <;> rfl
        | _ => rfl
  | variant =>
    rw [descend, variant, entry?]
    cases tokens[afterVariantName tokens]? with
    | none => rfl
    | some token =>
      cases token with
      | group delimiter => cases delimiter <;> rfl
      | _ => rfl
  | assocItem =>
    rw [descend, assocItem, entry?]
    cases itemKind? tokens with
    | none => rfl
    | some word =>
      cases body? tokens with
      | some place => cases word <;> rfl
      | none => cases word <;> rfl
  | namedField | tupleField => rfl

/-- The walk leaves a member as it is, or changes the content of one group. -/
theorem descend_run (pending : List Notice) :
    (descend inner kind tokens).run pending = (tokens, pending) ∨
      ∃ before delimiter content span after kind',
        tokens = before ++ .group delimiter content span :: after
        ∧ entry? kind tokens = some (before.length, kind')
        ∧ (descend inner kind tokens).run pending
            = (before ++ .group delimiter ((inner kind' content).run pending).1 span :: after,
                ((inner kind' content).run pending).2) := by
  rw [descend_eq]
  cases hentry : entry? kind tokens with
  | none => exact .inl rfl
  | some entry =>
    obtain ⟨place, kind'⟩ := entry
    dsimp only [inGroup]
    split
    · next delimiter content span hplace =>
      obtain ⟨hlt, hget⟩ := List.getElem?_eq_some_iff.mp hplace
      have length : (tokens.take place).length = place :=
        List.length_take_of_le (Nat.le_of_lt hlt)
      have tokens_eq : tokens
          = tokens.take place ++ .group delimiter content span :: tokens.drop (place + 1) := by
        rw [← hget, List.getElem_cons_drop, List.take_append_drop]
      have set_eq : ∀ token, tokens.set place token
          = tokens.take place ++ token :: tokens.drop (place + 1) :=
        fun token => List.set_eq_take_append_cons_drop.trans (if_pos hlt)
      refine .inr ⟨tokens.take place, delimiter, content, span, tokens.drop (place + 1), kind',
        tokens_eq, by rw [length], ?_⟩
      rw [← set_eq]
      rfl
    · exact .inl rfl

-- ---------------------------------------------------------------------------
-- Targets
-- ---------------------------------------------------------------------------

/-- At the path stands a member that the walk comes to and that is not deprecated. -/
inductive Target : Member → List Token → List Nat → Prop where
  | member {kind tokens extents extent} (split : kind.split tokens = .ok extents)
      (mem : extent ∈ extents) (isItem : extent.isItem = true)
      (fresh : "deprecated" ∉ extent.attributes) : Target kind tokens [extent.start]
  | inside {kind tokens extents extent before delimiter content span after inner path}
      (split : kind.split tokens = .ok extents) (mem : extent ∈ extents)
      (isItem : extent.isItem = true)
      (slice : extent.slice tokens = before ++ .group delimiter content span :: after)
      (entry : entry? kind (extent.slice tokens) = some (before.length, inner))
      (target : Target inner content path) :
      Target kind tokens ((extent.start + before.length) :: path)

-- ---------------------------------------------------------------------------
-- The walk
-- ---------------------------------------------------------------------------

variable {lead : String} {allowed : List Nat → Prop}

/-- The walk over the members of a body, when the next one is an item. -/
theorem attach_item_run {walk : List Token → Placing (List Token)} {start : Nat} {extent : Extent}
    {rest : List Extent} {pending : List Notice} (left : pending ≠ [])
    (isItem : extent.isItem = true) :
    (attach lead walk tokens start (extent :: rest)).run pending =
      (let marked := (nextAttribute lead extent.attributes).run pending
       let element := if marked.2.isEmpty then (extent.slice tokens, marked.2)
         else (walk (extent.slice tokens)).run marked.2
       let later := (attach lead walk tokens extent.stop rest).run element.2
       ((tokens.take extent.start).drop start ++ marked.1 ++ element.1 ++ later.1, later.2)) := by
  obtain ⟨notice, others, rfl⟩ := List.exists_cons_of_ne_nil left
  rw [attach]
  simp only [isItem, if_true, StateT.run_bind, StateT.run_get, pure_bind, List.isEmpty_cons,
    Bool.false_eq_true, if_false]
  generalize (nextAttribute lead extent.attributes).run (notice :: others) = marked
  cases marked with
  | mk mark pending => cases pending <;> rfl

/-- The walk over the members of a body, when the next one is no item. -/
theorem attach_plain_run {walk : List Token → Placing (List Token)} {start : Nat} {extent : Extent}
    {rest : List Extent} {pending : List Notice} (left : pending ≠ [])
    (isItem : extent.isItem = false) :
    (attach lead walk tokens start (extent :: rest)).run pending
      = (attach lead walk tokens start rest).run pending := by
  obtain ⟨notice, others, rfl⟩ := List.exists_cons_of_ne_nil left
  rw [attach]
  simp only [isItem, Bool.false_eq_true, if_false]
  rfl

/-- The element of one member: an attribute in front if the member is not deprecated, and what the
    walk does inside. -/
theorem element_attaches {walk : List Token → Placing (List Token)} {extent : Extent}
    {element : List Token} (ne : element ≠ [])
    (here : "deprecated" ∉ extent.attributes → allowed [extent.start])
    (inside : ∀ pending, Notice.Attaches lead (fun path => path ≠ [extent.start] ∧ allowed path)
      extent.start element pending ((walk element).run pending)) (pending : List Notice) :
    Notice.Attaches lead allowed extent.start element pending
      (let marked := (nextAttribute lead extent.attributes).run pending
       let result := if marked.2.isEmpty then (element, marked.2) else (walk element).run marked.2
       (marked.1 ++ result.1, result.2)) := by
  have inside' : ∀ pending, Notice.Attaches lead
      (fun path => path ≠ [extent.start] ∧ allowed path) extent.start element pending
      (if pending.isEmpty then (element, pending) else (walk element).run pending) := by
    intro pending
    split
    · exact .refl
    · exact inside pending
  by_cases fresh : "deprecated" ∈ extent.attributes
  · have unmarked : (nextAttribute lead extent.attributes).run pending = ([], pending) := by
      rw [nextAttribute, if_pos (List.contains_iff_mem.mpr fresh)]
      rfl
    rw [unmarked]
    exact (inside' pending).mono fun _ h => h.2
  · rw [nextAttribute, if_neg (mt List.contains_iff_mem.mp fresh)]
    cases pending with
    | nil => exact .refl
    | cons notice others => exact .front (here fresh) ne (inside' others)

/-- The walk over the members of a body attaches notices at allowed places, if these are in front
    of every member that counts, and the walk inside each of them does so too. -/
theorem attach_attaches {walk : List Token → Placing (List Token)} {start : Nat}
    {extents : List Extent} {pending : List Notice}
    (chained : Extent.Chained tokens.length start extents)
    (here : ∀ extent ∈ extents, extent.isItem = true → "deprecated" ∉ extent.attributes →
      allowed [extent.start])
    (inside : ∀ extent ∈ extents, extent.isItem = true → ∀ pending,
      Notice.Attaches lead (fun path => path ≠ [extent.start] ∧ allowed path) extent.start
        (extent.slice tokens) pending ((walk (extent.slice tokens)).run pending)) :
    Notice.Attaches lead allowed start (tokens.drop start) pending
      ((attach lead walk tokens start extents).run pending) := by
  induction extents generalizing start pending with
  | nil => exact .refl
  | cons extent rest ih =>
    obtain ⟨le, lt, stop, later⟩ := chained
    have here' := fun e mem => here e (List.mem_cons_of_mem _ mem)
    have inside' := fun e mem => inside e (List.mem_cons_of_mem _ mem)
    by_cases left : pending = []
    · subst left
      exact .refl
    cases isItem : extent.isItem with
    | false =>
      rw [attach_plain_run left isItem]
      exact ih (later.mono (Nat.le_trans le (Nat.le_of_lt lt))) here' inside'
    | true =>
      rw [attach_item_run left isItem, Extent.drop_eq le lt]
      have length : (extent.slice tokens).length = extent.stop - extent.start :=
        Extent.length_slice stop
      have gap : start + ((tokens.take extent.start).drop start).length = extent.start := by
        rw [List.length_drop, List.length_take, Nat.min_eq_left (by omega)]
        omega
      have ne : extent.slice tokens ≠ [] := by
        intro h
        rw [h, List.length_nil] at length
        omega
      have element := element_attaches ne (here extent List.mem_cons_self isItem)
        (inside extent List.mem_cons_self isItem) pending
      have front : Notice.Attaches lead allowed start ((tokens.take extent.start).drop start) pending
          ((tokens.take extent.start).drop start, pending) := .refl
      have whole := front.append ((gap.symm ▸ element).append
        (by rw [gap, length, Nat.add_sub_cancel' (Nat.le_of_lt lt)]; exact ih later here' inside'))
      simpa only [List.append_assoc] using whole

/-- The walk over a body attaches notices at its targets. -/
theorem place_attaches (lead : String) (depth : Nat) (kind : Member) (tokens : List Token)
    (pending : List Notice) :
    Notice.Attaches lead (Target kind tokens) 0 tokens pending
      ((place lead depth kind tokens).run pending) := by
  induction depth generalizing kind tokens pending with
  | zero => exact .refl
  | succ depth ih =>
    rw [place]
    cases split : kind.split tokens with
    | error => exact .refl
    | ok extents =>
      refine attach_attaches (Member.split_chained split) ?_ ?_
      · exact fun extent mem isItem fresh => .member split mem isItem fresh
      · intro extent mem isItem pending
        rcases descend_run pending with same | ⟨before, delimiter, content, span, after, inner,
          slice, entry, run⟩
        · rw [same]
          exact .refl
        · rw [run]
          rw [slice]
          refine (ih inner content pending).group.mono ?_
          rintro path ⟨place, rest, rfl, target⟩
          exact ⟨by simp, .inside split mem isItem slice entry target⟩

end Placement

namespace Notice

/-- Emission attaches notices at targets of the block. -/
theorem emit_attaches (lead : String) (notices : List Notice) (tokens : List Token) :
    ∃ left, Attaches lead (Placement.Target .statement tokens) 0 tokens notices
      (emit lead notices tokens, left) := by
  rw [emit]
  split
  · exact ⟨notices, .refl⟩
  · exact ⟨_, Placement.place_attaches lead _ .statement tokens notices⟩

/-- Attaching notices only inserts attributes: there is a map from places of the block to notices
    such that the result is the block with their attributes, without which it is the block again;
    read in depth-first order, the notices are the first ones of the list, and each stands at a
    target. The block stays as it is when there are no notices, and when it cannot be split. -/
theorem emit_inserts (lead : String) (notices : List Notice) (tokens : List Token) :
    (∃ places : List Nat → Option Notice,
      emit lead notices tokens = Token.markAll (attributesAt lead places) 0 tokens
      ∧ Token.withoutMarks (attributesAt lead places) (emit lead notices tokens) = tokens
      ∧ placed places 0 tokens <+: notices
      ∧ ∀ path, places path ≠ none → Placement.Target .statement tokens path)
    ∧ ((notices = [] ∨ ∃ e, Member.statement.split tokens = .error e) →
        emit lead notices tokens = tokens) := by
  constructor
  · obtain ⟨left, places, target, hout, hpending⟩ := emit_attaches lead notices tokens
    refine ⟨places, hout, ?_, ⟨_, hpending.symm⟩, target⟩
    exact (congrArg _ hout).trans (Token.withoutMarks_markAll _ tokens)
  · rintro (rfl | ⟨e, failed⟩)
    · rfl
    · rw [emit]
      split
      · rfl
      · rw [Placement.place, failed]
        rfl

end Notice

end AliasExpansion
