-- SUMMARY: Substitution is simultaneous rewriting of all sites, checked after every site.
import AliasExpansion.Proofs.Outcome
import AliasExpansion.Proofs.Substitution.Sites

/-!
# Stepwise substitution

The walk of a substitution replaces one site after the other and checks the stream each time. Its
result is that of rewriting all sites at once, provided that the stream has the wanted form with
any number of sites replaced from the left; otherwise the first site that spoils the form is named.

The invariant of the walk: in every frame the tokens before the cursor are rewritten and the
tokens from the cursor on are the original ones.
-/

namespace AliasExpansion

namespace Placeholder

variable {values : Table String Value}

theorem meaning_ok (hvalues : ∀ name value, values.find? name = some value →
      ∃ text, value.text = .ok text) (body : List Char) :
    ∃ filled, meaning values body = .ok filled := by
  cases body with
  | nil => exact ⟨_, rfl⟩
  | cons c rest =>
    simp only [meaning]
    cases hfind : values.find? _ with
    | none => exact ⟨_, rfl⟩
    | some value =>
      obtain ⟨text, htext⟩ := hvalues _ value hfind
      exact ⟨text.toList, by simp [htext]⟩

theorem fillFrom_ok (hvalues : ∀ name value, values.find? name = some value →
      ∃ text, value.text = .ok text) (body : Option (List Char)) (text : List Char) :
    ∃ filled, fillFrom values body text = .ok filled := by
  induction text generalizing body with
  | nil => cases body <;> exact ⟨_, rfl⟩
  | cons c rest ih =>
    obtain ⟨filled, hfilled⟩ := ih none
    cases body with
    | none =>
      simp only [fillFrom, hfilled]
      split
      · exact ih (some [])
      · exact ⟨_, rfl⟩
    | some body =>
      obtain ⟨named, hnamed⟩ := meaning_ok hvalues body.reverse
      simp only [fillFrom, hfilled, hnamed]
      split
      · exact ⟨_, rfl⟩
      · exact ih (some (c :: body))

/-- Placeholders can be filled in when every value has a text. -/
theorem fill_ok (hvalues : ∀ name value, values.find? name = some value →
      ∃ text, value.text = .ok text) (text : String) :
    ∃ filled, fill values text = .ok filled := by
  obtain ⟨filled, hfilled⟩ := fillFrom_ok hvalues none text.toList
  exact ⟨_, by rw [fill, hfilled]; rfl⟩

end Placeholder

namespace Visitor

variable {σ : Type} (visitor : Visitor σ) {limit : Nat} {frames : Frames} {s : σ}

theorem run'_walkFrom_of_inl {frames' : Frames} {s' : σ}
    (hstep : (visitor.step frames).run s = .ok (.inl frames', s')) :
    (visitor.walkFrom (limit + 1) frames).run' s = (visitor.walkFrom limit frames').run' s' := by
  simp [walkFrom, hstep]

theorem run'_walkFrom_of_inr {tokens : List Token} {s' : σ}
    (hstep : (visitor.step frames).run s = .ok (.inr tokens, s')) :
    (visitor.walkFrom (limit + 1) frames).run' s = .ok tokens := by
  simp [walkFrom, hstep]

theorem run'_walkFrom_of_error {e : Error} (hstep : (visitor.step frames).run s = .error e) :
    (visitor.walkFrom (limit + 1) frames).run' s = .error e := by
  simp [walkFrom, hstep]

end Visitor

namespace Substitution

variable {values : Table String Value} {category : Category}

-- ---------------------------------------------------------------------------
-- Decisions
-- ---------------------------------------------------------------------------

/-- The visitor decides about an atom, or finds a literal or a value without a text. -/
theorem run_atom_cases {token : Token} (hatom : token.isGroup = false)
    (last : Option Replacement) :
    (∃ e, (atom values token).run last = .error (.decode e)) ∨
      (atom values token).run last = .ok
        (match change? values token with
          | some (note, replacement) => (.replace replacement, some note)
          | none => (.keep, last)) := by
  cases token with
  | group => cases hatom
  | punct => exact .inr rfl
  | ident name span =>
    refine .inr ?_
    simp only [atom, change?]
    cases values.find? name <;> rfl
  | literal lit =>
    cases hstring : lit.isString with
    | false =>
      have hstays : change? values (.literal lit) = none := by
        simp only [change?, hstring, Bool.false_and, Bool.false_eq_true, if_false]
        split
        · split <;> rfl
        · rfl
      exact .inr (by simp [atom, hstring, hstays])
    | true =>
      cases hcontent : lit.content with
      | error e => exact .inl ⟨e, by simp [atom, hstring, hcontent]⟩
      | ok content =>
        cases hfilled : Placeholder.fill values content with
        | error e => exact .inl ⟨e, by simp [atom, hstring, hcontent, hfilled]⟩
        | ok filled =>
          refine .inr ?_
          by_cases hsame : filled = content
          · simp [atom, change?, hstring, hcontent, hfilled, hsame]
          · simp [atom, change?, hstring, hcontent, hfilled, hsame]

/-- Every atom can be decided about when the strings decode and every value has a text. -/
theorem run_atom_ne_decode (hvalues : ∀ name value, values.find? name = some value →
      ∃ text, value.text = .ok text) {token : Token} (hatom : token.isGroup = false)
    (hstrings : Token.StringsDecode [token]) (last : Option Replacement) (e : DecodeError) :
    (atom values token).run last ≠ .error (.decode e) := by
  cases token with
  | group => cases hatom
  | punct => nofun
  | ident name span =>
    simp only [atom]
    cases values.find? name <;> nofun
  | literal lit =>
    cases hstring : lit.isString with
    | false =>
      simp only [atom, hstring]
      nofun
    | true =>
      obtain ⟨content, hcontent⟩ := hstrings lit (List.mem_singleton_self _) hstring
      obtain ⟨filled, hfilled⟩ := Placeholder.fill_ok hvalues content
      by_cases hsame : filled = content
      · simp [atom, hstring, hcontent, hfilled, hsame]
      · simp [atom, hstring, hcontent, hfilled, hsame]

/-- The check after a replacement, which blames the replacement made last. -/
theorem run_recheck {frames : Frames} {stream : List Token} (hstream : frames.stream = .ok stream)
    (note : Replacement) :
    (recheck category frames).run (some note) =
      match category.check stream with
      | .ok () => .ok ((), some note)
      | .error e => .error (.substitution note.before note.after e.fault (some note.span)) := by
  simp only [recheck, hstream]
  cases hcheck : category.check stream <;> simp [hcheck]

-- ---------------------------------------------------------------------------
-- Transitions
-- ---------------------------------------------------------------------------

/-- The frames of a walk at a place between two runs of the original tokens. -/
def framesAt (values : Table String Value) (enclosures : List Enclosure)
    (before after : List Token) : Frames :=
  .inside (enclosures.map (walked values)) (rewriteAll values before) after

/-- The walk shows the stream with exactly the sites before its place replaced. -/
theorem stream_framesAt (values : Table String Value) (enclosures : List Enclosure) (before after : List Token) :
    (framesAt values enclosures before after).stream =
      .ok (rewriteFirst values (sitesBefore values enclosures + (sites values before).length)
        (Enclosure.plugAll enclosures (before ++ after))) := by
  have hcount : (sites values before).length ≤ (sites values (before ++ after)).length := by
    rw [sites_append, List.length_append]
    exact Nat.le_add_right _ _
  rw [framesAt, Frames.stream_inside, rewriteFirst_plugAll values enclosures _ hcount,
    rewriteFirst_append, Nat.sub_self, rewriteFirst_zero]
  rfl

theorem step_at_end (before : List Token) (last : Option Replacement) :
    ((visitor values category).step (framesAt values [] before [])).run last =
      .ok (.inr (rewriteAll values before), last) := by
  simp [Visitor.step, framesAt, Visitor.finish, visitor]

theorem step_leave (enclosure : Enclosure) (outer : List Enclosure) (before : List Token)
    (last : Option Replacement) :
    ((visitor values category).step (framesAt values (enclosure :: outer) before [])).run last =
      .ok (.inl (framesAt values outer
        (enclosure.before ++ [.group enclosure.delimiter before enclosure.span])
        enclosure.after), last) := by
  simp [Visitor.step, framesAt, Visitor.leaveGroup, visitor, Frames.popFold_inside,
    Frames.edit_advance_inside, rewriteAll_append, rewriteAll_group, walked,
    -Frames.edit_inside]

theorem step_enter (enclosures : List Enclosure) (before : List Token) (delimiter : Delimiter)
    (content : List Token) (span : Span) (after : List Token) (last : Option Replacement) :
    ((visitor values category).step
        (framesAt values enclosures before (.group delimiter content span :: after))).run last =
      .ok (.inl (framesAt values ({ before, delimiter, content, span, after } :: enclosures) []
        content), last) := by
  simp [Visitor.step, framesAt, Visitor.enterGroup, visitor, Frames.push_inside, walked]

/-- A step at an atom carries out the decision about it. -/
theorem step_atom (enclosures : List Enclosure) (before : List Token) {token : Token}
    (hatom : token.isGroup = false) (after : List Token) {last last' : Option Replacement}
    {action : Action} (haction : (atom values token).run last = .ok (action, last')) :
    ((visitor values category).step (framesAt values enclosures before (token :: after))).run
        last =
      (fun p => (.inl p.1, p.2)) <$> ((visitor values category).apply
        (framesAt values enclosures before (token :: after)) action).run last' := by
  cases token with
  | group => cases hatom
  | ident | punct | literal => simp [Visitor.step, framesAt, visitor, haction]

theorem step_keep (enclosures : List Enclosure) (before : List Token) {token : Token}
    (hatom : token.isGroup = false) (hchange : change? values token = none) (after : List Token)
    {last : Option Replacement} (haction : (atom values token).run last = .ok (.keep, last)) :
    ((visitor values category).step (framesAt values enclosures before (token :: after))).run
        last =
      .ok (.inl (framesAt values enclosures (before ++ [token]) after), last) := by
  rw [step_atom enclosures before hatom after haction]
  simp [framesAt, Visitor.apply, Frames.edit_advance_inside, rewriteAll_append,
    rewriteAll_of_change?_none values hatom hchange, -Frames.edit_inside]

/-- The edits of a replacement move the place past the site. -/
theorem edit_replace_framesAt (enclosures : List Enclosure) (before : List Token) {token : Token}
    (hatom : token.isGroup = false) {note : Replacement} {replacement : List Token}
    (hchange : change? values token = some (note, replacement)) (after : List Token) :
    (let frames := (framesAt values enclosures before (token :: after)).edit (·.replace replacement)
      if replacement.isEmpty then frames else frames.edit Frame.advance) =
      framesAt values enclosures (before ++ [token]) after := by
  rw [framesAt, framesAt, rewriteAll_append, rewriteAll_of_change?_some values hatom hchange]
  exact Frames.edit_replace_inside _ _ after token replacement

theorem step_replace (enclosures : List Enclosure) (before : List Token) {token : Token}
    (hatom : token.isGroup = false) {note : Replacement} {replacement : List Token}
    (hchange : change? values token = some (note, replacement)) (after : List Token)
    {last : Option Replacement}
    (haction : (atom values token).run last = .ok (.replace replacement, some note)) :
    ((visitor values category).step (framesAt values enclosures before (token :: after))).run
        last =
      match category.check (rewriteFirst values
          (sitesBefore values enclosures + (sites values (before ++ [token])).length)
          (Enclosure.plugAll enclosures (before ++ token :: after))) with
      | .ok () => .ok (.inl (framesAt values enclosures (before ++ [token]) after), some note)
      | .error e => .error (.substitution note.before note.after e.fault (some note.span)) := by
  have hstream := stream_framesAt values enclosures (before ++ [token]) after
  rw [List.append_assoc, List.singleton_append] at hstream
  rw [step_atom enclosures before hatom after haction]
  simp only [Visitor.apply, edit_replace_framesAt enclosures before hatom hchange after,
    StateT.run_bind, visitor, run_recheck hstream]
  split <;> simp

-- ---------------------------------------------------------------------------
-- The whole walk
-- ---------------------------------------------------------------------------

/-- The number of steps that are left at a place: one for an atom, two for a group, and one at the
    end of every frame. -/
def stepsLeft : List Enclosure → List Token → Nat
  | [], after => 2 * Token.weights after + 1
  | enclosure :: outer, after => 2 * Token.weights after + 1 + stepsLeft outer enclosure.after

/-- Replace the sites after the first `count` ones, given as `remaining`, one by one. -/
def outcome (values : Table String Value) (category : Category) (tokens : List Token) :
    (count : Nat) → (remaining : List Replacement) → Except Error (List Token)
  | count, [] => .ok (rewriteFirst values count tokens)
  | count, site :: remaining =>
    match category.check (rewriteFirst values (count + 1) tokens) with
    | .ok () => outcome values category tokens (count + 1) remaining
    | .error e => .error (.substitution site.before site.after e.fault (some site.span))

/-- The walk from a place comes to an atom that it cannot decide about, or has the outcome of the
    sites that are left there. -/
def WalksOut (values : Table String Value) (category : Category) (tokens : List Token)
    (limit : Nat) (enclosures : List Enclosure) (before after : List Token)
    (last : Option Replacement) : Prop :=
  (∃ token ∈ Token.atomsAll tokens, ∃ e last', token.isGroup = false ∧
    (atom values token).run last' = .error (.decode e) ∧
    ((visitor values category).walkFrom limit (framesAt values enclosures before after)).run'
      last = .error (.decode e)) ∨
  ((visitor values category).walkFrom limit (framesAt values enclosures before after)).run' last =
    outcome values category tokens (sitesBefore values enclosures + (sites values before).length)
      (sites values after ++ sitesAfter values enclosures)

section

variable {tokens before after : List Token} {limit : Nat} {enclosures outer : List Enclosure}
  {last : Option Replacement}

theorem walksOut_end (whole : before = tokens) :
    WalksOut values category tokens (limit + 1) [] before [] last := by
  refine .inr ?_
  rw [Visitor.run'_walkFrom_of_inr _ (step_at_end before last), ← whole]
  simp [outcome, sitesBefore, sitesAfter, rewriteAll]

theorem walksOut_leave {enclosure : Enclosure}
    (next : WalksOut values category tokens limit outer
      (enclosure.before ++ [.group enclosure.delimiter before enclosure.span]) enclosure.after
      last) :
    WalksOut values category tokens (limit + 1) (enclosure :: outer) before [] last := by
  rw [WalksOut, Visitor.run'_walkFrom_of_inl _ (step_leave enclosure outer before last)]
  simpa [WalksOut, sitesBefore, sitesAfter, Nat.add_assoc] using next

theorem walksOut_enter {delimiter : Delimiter} {content : List Token} {span : Span}
    (next : WalksOut values category tokens limit
      ({ before, delimiter, content, span, after } :: enclosures) [] content last) :
    WalksOut values category tokens (limit + 1) enclosures before
      (.group delimiter content span :: after) last := by
  rw [WalksOut, Visitor.run'_walkFrom_of_inl _
    (step_enter enclosures before delimiter content span after last), sites_cons, sites_group]
  simpa [WalksOut, sitesBefore, sitesAfter] using next

theorem walksOut_undecided {token : Token} {e : DecodeError} (hatom : token.isGroup = false)
    (hmem : token ∈ Token.atomsAll tokens)
    (hfails : (atom values token).run last = .error (.decode e)) :
    WalksOut values category tokens (limit + 1) enclosures before (token :: after) last := by
  refine .inl ⟨token, hmem, e, last, hatom, hfails, Visitor.run'_walkFrom_of_error _ ?_⟩
  cases token with
  | group => cases hatom
  | ident | punct | literal => simp [Visitor.step, framesAt, visitor, hfails]

theorem walksOut_keep {token : Token} (hatom : token.isGroup = false)
    (hchange : change? values token = none)
    (haction : (atom values token).run last = .ok (.keep, last))
    (next : WalksOut values category tokens limit enclosures (before ++ [token]) after last) :
    WalksOut values category tokens (limit + 1) enclosures before (token :: after) last := by
  rw [WalksOut, Visitor.run'_walkFrom_of_inl _
    (step_keep enclosures before hatom hchange after haction), sites_cons values token after]
  simpa [WalksOut, sites_atom values hatom, hchange] using next

/-- A replacement is one site more before the place, if the form is kept. -/
theorem walksOut_replace {token : Token} {note : Replacement} {replacement : List Token}
    (hplace : Enclosure.plugAll enclosures (before ++ token :: after) = tokens)
    (hatom : token.isGroup = false) (hchange : change? values token = some (note, replacement))
    (haction : (atom values token).run last = .ok (.replace replacement, some note))
    (next : WalksOut values category tokens limit enclosures (before ++ [token]) after
      (some note)) :
    WalksOut values category tokens (limit + 1) enclosures before (token :: after) last := by
  have hcount : (sites values (before ++ [token])).length = (sites values before).length + 1 := by
    simp [sites_atom values hatom, hchange]
  have hstep : ((visitor values category).step
      (framesAt values enclosures before (token :: after))).run last = _ :=
    step_replace enclosures before hatom hchange after haction
  rw [hplace, hcount, ← Nat.add_assoc] at hstep
  rw [WalksOut, sites_cons values token after, sites_atom values hatom, hchange]
  simp only [Option.map_some, Option.toList_some, List.cons_append, List.nil_append, outcome]
  cases hcheck : category.check _ with
  | ok =>
    rw [hcheck] at hstep
    rw [Visitor.run'_walkFrom_of_inl _ hstep]
    rw [WalksOut, hcount] at next
    exact next
  | error e =>
    rw [hcheck] at hstep
    exact .inr (Visitor.run'_walkFrom_of_error _ hstep)

/-- A walk from a place has the outcome of the sites that are left there, unless it comes to an
    atom that it cannot decide about. -/
theorem walksOut (hplace : Enclosure.plugAll enclosures (before ++ after) = tokens)
    (hlimit : stepsLeft enclosures after ≤ limit) :
    WalksOut values category tokens limit enclosures before after last := by
  induction limit generalizing enclosures before after last with
  | zero => cases enclosures <;> simp [stepsLeft] at hlimit
  | succ limit ih =>
    cases after with
    | nil =>
      cases enclosures with
      | nil => exact walksOut_end (by simpa using hplace)
      | cons enclosure outer =>
        refine walksOut_leave (ih (by simpa [Enclosure.plug] using hplace) ?_)
        simp only [stepsLeft] at hlimit
        omega
    | cons token after =>
      cases hatom : token.isGroup with
      | true =>
        cases token with
        | ident | punct | literal => cases hatom
        | group delimiter content span =>
          refine walksOut_enter (ih (by simpa [Enclosure.plug] using hplace) ?_)
          cases enclosures <;> simp only [stepsLeft, Token.weights, Token.weight] at hlimit ⊢ <;>
            omega
      | false =>
        have next {last : Option Replacement} :
            WalksOut values category tokens limit enclosures (before ++ [token]) after last := by
          refine ih (by simpa using hplace) ?_
          have := token.weight_pos
          cases enclosures <;> simp only [stepsLeft, Token.weights] at hlimit ⊢ <;> omega
        have hmem : token ∈ Token.atomsAll tokens := by
          rw [← hplace]
          apply Token.atomsAll_subset_plugAll
          rw [Token.atomsAll_append, ← List.singleton_append, Token.atomsAll_append,
            Token.atomsAll_singleton hatom]
          simp
        rcases run_atom_cases hatom last with ⟨e, hfails⟩ | haction
        · exact walksOut_undecided hatom hmem hfails
        · cases hchange : change? values token with
          | none =>
            rw [hchange] at haction
            exact walksOut_keep hatom hchange haction next
          | some change =>
            rw [hchange] at haction
            exact walksOut_replace hplace hatom hchange haction next

end

-- ---------------------------------------------------------------------------
-- Outcomes
-- ---------------------------------------------------------------------------

variable {tokens : List Token}

theorem outcome_eq_ok_iff (count : Nat) (remaining : List Replacement) (out : List Token) :
    outcome values category tokens count remaining = .ok out ↔
      out = rewriteFirst values (count + remaining.length) tokens ∧
      ∀ k, count < k → k ≤ count + remaining.length →
        category.check (rewriteFirst values k tokens) = .ok () := by
  induction remaining generalizing count with
  | nil =>
    simp only [outcome, List.length_nil, Nat.add_zero, Except.ok.injEq]
    exact ⟨fun h => ⟨h.symm, fun k h₁ h₂ => by omega⟩, fun h => h.1.symm⟩
  | cons site remaining ih =>
    have hlength : count + 1 + remaining.length = count + (site :: remaining).length := by
      rw [List.length_cons]
      omega
    simp only [outcome]
    cases hcheck : category.check (rewriteFirst values (count + 1) tokens) with
    | ok =>
      rw [ih, hlength]
      refine and_congr_right fun _ => ⟨fun h k h₁ h₂ => ?_, fun h k h₁ h₂ => h k (by omega) h₂⟩
      by_cases hk : k = count + 1
      · rw [hk, hcheck]
      · exact h k (by omega) h₂
    | error e =>
      refine ⟨nofun, fun ⟨_, h⟩ => ?_⟩
      rw [h (count + 1) (by omega) (by rw [← hlength]; omega)] at hcheck
      cases hcheck

theorem outcome_eq_error_iff (count : Nat) (remaining : List Replacement) (e : Error) :
    outcome values category tokens count remaining = .error e ↔
      ∃ k site reason, remaining[k]? = some site ∧
        category.check (rewriteFirst values (count + k + 1) tokens) = .error reason ∧
        (∀ j, count < j → j ≤ count + k →
          category.check (rewriteFirst values j tokens) = .ok ()) ∧
        e = .substitution site.before site.after reason.fault (some site.span) := by
  induction remaining generalizing count with
  | nil => simp [outcome]
  | cons site remaining ih =>
    simp only [outcome]
    cases hcheck : category.check (rewriteFirst values (count + 1) tokens) with
    | ok =>
      rw [ih]
      constructor
      · rintro ⟨k, later, reason, hsite, hreason, hbefore, he⟩
        refine ⟨k + 1, later, reason, hsite, ?_, fun j h₁ h₂ => ?_, he⟩
        · rwa [Nat.add_right_comm count 1 k] at hreason
        · by_cases hj : j = count + 1
          · rw [hj, hcheck]
          · exact hbefore j (by omega) (by omega)
      · rintro ⟨k, later, reason, hsite, hreason, hbefore, he⟩
        cases k with
        | zero =>
          rw [Nat.add_zero, hcheck] at hreason
          cases hreason
        | succ k =>
          refine ⟨k, later, reason, hsite, ?_, fun j h₁ h₂ => hbefore j (by omega) (by omega), he⟩
          rwa [Nat.add_right_comm count 1 k]
    | error reason =>
      constructor
      · rintro ⟨⟩
        exact ⟨0, site, reason, rfl, hcheck, fun j h₁ h₂ => by omega, rfl⟩
      · rintro ⟨k, later, reason', hsite, hreason, hbefore, rfl⟩
        cases k with
        | zero =>
          rw [Nat.add_zero, hcheck] at hreason
          cases hreason
          cases hsite
          rfl
        | succ k =>
          rw [hbefore (count + 1) (by omega) (by omega)] at hcheck
          cases hcheck

/-- A substitution comes to an atom that it cannot decide about, or has the outcome of all sites. -/
theorem substitute_cases (values : Table String Value) (category : Category)
    (tokens : List Token) :
    (∃ token ∈ Token.atomsAll tokens, ∃ e last, token.isGroup = false ∧
      (atom values token).run last = .error (.decode e) ∧
      substitute values category tokens = .error (.decode e)) ∨
    substitute values category tokens = outcome values category tokens 0 (sites values tokens) := by
  have hstart : Frames.start tokens = framesAt values [] [] tokens := by
    simp [framesAt, Frames.start_eq_inside]
  rw [substitute, Visitor.walk, hstart]
  have walked : WalksOut values category tokens (Token.walkLength tokens) [] [] tokens none :=
    walksOut rfl (Nat.le_refl _)
  refine walked.imp id fun h => h.trans ?_
  simp [sitesBefore, sitesAfter]

theorem substitute_eq_outcome (hvalues : ∀ name value, values.find? name = some value →
      ∃ text, value.text = .ok text) (hstrings : Token.StringsDecode tokens) :
    substitute values category tokens = outcome values category tokens 0 (sites values tokens) := by
  rcases substitute_cases values category tokens with
    ⟨token, hmem, e, last, hatom, hfails, -⟩ | h
  · refine absurd hfails (run_atom_ne_decode hvalues hatom ?_ last e)
    intro lit hlit
    rw [Token.atomsAll_singleton hatom, List.mem_singleton] at hlit
    exact hstrings lit (hlit ▸ hmem)
  · exact h

/-- Substitution gives the tokens with all sites replaced if the form is kept with any number of
    sites replaced from the left. Otherwise it blames the first site that spoils the form. -/
theorem substitute_stepwise (values : Table String Value) (category : Category)
    (tokens : List Token) (hstrings : Token.StringsDecode tokens)
    (hvalues : ∀ name value, values.find? name = some value → ∃ text, value.text = .ok text) :
    (∀ out, substitute values category tokens = .ok out ↔
      out = rewriteFirst values (sites values tokens).length tokens ∧
      ∀ k, 1 ≤ k → k ≤ (sites values tokens).length →
        category.check (rewriteFirst values k tokens) = .ok ()) ∧
    (∀ e, substitute values category tokens = .error e ↔
      ∃ k site reason, (sites values tokens)[k]? = some site ∧
        category.check (rewriteFirst values (k + 1) tokens) = .error reason ∧
        (∀ j, 1 ≤ j → j ≤ k → category.check (rewriteFirst values j tokens) = .ok ()) ∧
        e = .substitution site.before site.after reason.fault (some site.span)) := by
  rw [substitute_eq_outcome hvalues hstrings]
  refine ⟨fun out => ?_, fun e => ?_⟩
  · simpa only [Nat.zero_add, Nat.lt_iff_add_one_le] using
      outcome_eq_ok_iff 0 (sites values tokens) out
  · simpa only [Nat.zero_add, Nat.lt_iff_add_one_le] using
      outcome_eq_error_iff 0 (sites values tokens) e

/-- An alias for nothing inside a call, then a placeholder in a string. -/
theorem substitute_stepwise_call :
    let values : Table String Value :=
      ⟨[("args", { type := .tokens, tokens := [] }), ("name", .ofName "x")]⟩
    let text (content : String) : Token := .literal { kind := .str, text := content }
    let call (arguments : List Token) (last : Token) : List Token :=
      [.ident "f" {}, .group .parenthesis arguments {}, .punct ';' false {}, last]
    Token.StringsDecode (call [.ident "args" {}] (text "\"%name%\"")) ∧
      substitute values .block (call [.ident "args" {}] (text "\"%name%\"")) =
        .ok (call [] (text "\"x\"")) := by
  intro values text call
  have hstrings : Token.StringsDecode (call [.ident "args" {}] (text "\"%name%\"")) := by
    intro lit hlit _
    have hlit : lit = { kind := .str, text := "\"%name%\"" } := by
      simpa [call, text, Token.atomsAll, Token.atoms] using hlit
    exact ⟨"%name%", by rw [hlit]; cbv⟩
  have hvalues : ∀ name value, values.find? name = some value →
      ∃ text, value.text = .ok text := by
    intro name value hfind
    obtain ⟨entry, hentry, rfl⟩ := Option.map_eq_some_iff.1 hfind
    have hmem := List.mem_of_find?_eq_some hentry
    simp only [values, List.mem_cons, List.not_mem_nil, or_false] at hmem
    rcases hmem with rfl | rfl <;> exact ⟨_, rfl⟩
  refine ⟨hstrings, ((substitute_stepwise _ _ _ hstrings hvalues).1 _).2 ⟨?_, ?_⟩⟩
  · decide +kernel
  · intro k h₁ h₂
    have hcount : (sites values (call [.ident "args" {}] (text "\"%name%\""))).length = 2 := by
      decide +kernel
    have hk : k = 1 ∨ k = 2 := by omega
    rw [← Category.accepts_iff]
    rcases hk with rfl | rfl <;> decide +kernel

end Substitution

end AliasExpansion
