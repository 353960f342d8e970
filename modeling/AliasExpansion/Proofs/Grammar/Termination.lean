-- SUMMARY: The recognizer ends, in bounds, and every repetition goes forward.
import AliasExpansion.Proofs.Grammar.Extents
import AliasExpansion.Proofs.Grammar.Positions
import AliasExpansion.Proofs.Grammar.Reach
import AliasExpansion.Proofs.Statement.Sequence

/-!
# The recognizer ends

Every production, from every position of every token list, ends in one outcome, whatever budget it
is granted beyond the usual one (`Rule.EndsAt`). It comes to a position of the list, or fails
because of a token. What is repeated goes forward (`LoopBody`), and no nonterminal is called again
inside itself before something has been taken (`Nonterminal.returns_later`). So checking and
splitting fail in no other way either (`Category.check_orderly`, `Member.split_orderly`).
-/

namespace AliasExpansion

open Rule

-- ---------------------------------------------------------------------------
-- Productions
-- ---------------------------------------------------------------------------

/-- All of a sequence but its last rule. -/
def Rule.initial : Production → Production
  | .seq first (.seq second rest) => .seq first (initial (.seq second rest))
  | .seq first _ => first
  | _ => .done

/-- A sequence runs all but its last rule, and then the last. -/
theorem Rule.Runs.initial_last {budget : Nat} {rule : Production} {cursor final : Cursor}
    (run : Runs budget rule cursor final) :
    ∃ middle, Runs budget rule.initial cursor middle ∧ Runs budget rule.last middle final := by
  induction rule generalizing cursor with
  | seq first second _ ih =>
    cases run with
    | @seq _ _ _ _ entry _ run₁ run₂ =>
      obtain ⟨middle, before, last⟩ := ih run₂
      cases second with
      | seq => exact ⟨middle, .seq run₁ before, last⟩
      | done | fail | skip | ite | call | within => exact ⟨entry, run₁, run₂⟩
  | done | fail | skip | ite | call | within => exact ⟨cursor, .done, run⟩

/-- One round of a repetition: what its rule does, unless it is finished, before the step that
    leads to the next round. -/
def Nonterminal.round (nonterminal : Nonterminal) : Production :=
  match nonterminal.rule with
  | .ite _ _ more => more.initial
  | rule => rule.initial

/-- The repetitions whose rounds have no nonterminal of their own. -/
def Nonterminal.repetitions : List Nonterminal :=
  [.genericParams, .wherePredicates, .arms]

/-- What is repeated: elements of lists, members of bodies, and rounds that have no nonterminal of
    their own. -/
inductive LoopBody : Production → Prop where
  | type {plus} : LoopBody (.call (.type plus))
  | pattern : LoopBody (.call .pattern)
  | alternative : LoopBody (.call .patternAtom)
  | expression {minPrecedence position} : LoopBody (.call (.binary minPrecedence position))
  | genericArg : LoopBody (.call .genericArg)
  | bound : LoopBody (.call .bound)
  | useTree : LoopBody (.call .useTree)
  | item : LoopBody (.call .item)
  /-- Statements, fields, variants and associated items. -/
  | member {kind} : LoopBody (.call (.member kind))
  /-- Generic parameters, predicates of a condition, and match arms. -/
  | round {repetition} (mem : repetition ∈ Nonterminal.repetitions) : LoopBody repetition.round

inductive IsProduction : Production → Prop where
  | nonterminal {nonterminal} : IsProduction (.call nonterminal)
  | category {category : Category} : IsProduction category.rule
  | loopBody {rule} (body : LoopBody rule) : IsProduction rule

theorem LoopBody.takes {rule : Production} (body : LoopBody rule) : rule.takes false = true := by
  cases body with
  | round mem =>
    have rounds : ∀ repetition ∈ Nonterminal.repetitions, repetition.round.takes false = true := by
      decide
    exact rounds _ mem
  | _ => rfl

theorem LoopBody.heeds {rule : Production} (body : LoopBody rule) : rule.heeds none = true := by
  cases body with
  | round mem =>
    have rounds : ∀ repetition ∈ Nonterminal.repetitions, repetition.round.heeds none = true := by
      decide
    exact rounds _ mem
  | _ => rfl

/-- A repetition is finished at once, or does a round, which takes something. -/
theorem Rule.Runs.round {budget : Nat} {repetition : Nonterminal} {cursor final : Cursor}
    (mem : repetition ∈ Nonterminal.repetitions) (run : Runs budget repetition.rule cursor final) :
    final = cursor ∨ ∃ middle, Runs budget repetition.round cursor middle
      ∧ middle.rest.length < cursor.rest.length ∧ final.rest.length ≤ middle.rest.length := by
  have form : ∃ look more, repetition.rule = .ite look .done more := by
    simp only [Nonterminal.repetitions, List.mem_cons, List.not_mem_nil, or_false] at mem
    rcases mem with rfl | rfl | rfl <;> exact ⟨_, _, rfl⟩
  obtain ⟨look, more, form⟩ := form
  have round : repetition.round = more.initial := by rw [Nonterminal.round, form]
  rw [form] at run
  cases run with
  | yes _ run =>
    cases run
    exact .inl rfl
  | no _ run =>
    obtain ⟨middle, before, last⟩ := run.initial_last
    rw [← round] at before
    exact .inr ⟨middle, before, before.length_lt_of_takes (LoopBody.round mem).takes nofun,
      last.length_le⟩

theorem IsProduction.heeds {rule : Production} (production : IsProduction rule) :
    rule.heeds none = true := by
  cases production with
  | nonterminal => rfl
  | @category category => cases category <;> rfl
  | loopBody body => exact body.heeds

-- ---------------------------------------------------------------------------
-- Outcomes at positions
-- ---------------------------------------------------------------------------

namespace Rule

variable {rule : Production} {tokens : List Token} {position : Nat}
  {counted : Except SyntaxError Nat}

/-- From the position the rule ends in the outcome, whether positions are counted or a cursor is
    moved, and whatever budget is granted beyond the usual one. -/
structure EndsAt (rule : Production) (tokens : List Token) (position : Nat)
    (counted : Except SyntaxError Nat) : Prop where
  counts : ∀ budget, Grammar.budget tokens ≤ budget →
    rule.runFrom (Nonterminal.recognizeFrom budget) tokens position = counted
  moves : ∀ budget, Grammar.budget tokens ≤ budget →
    rule.run (Nonterminal.recognize budget) (.atPosition tokens position)
      = counted.map (.atPosition tokens)
  inside : ∀ final, counted = .ok final → position ≤ final ∧ final ≤ tokens.length
  orderly : Orderly counted

/-- Positions of the list are told apart by their cursors. -/
theorem atPosition_inj {other : Nat} (le : position ≤ tokens.length) (le' : other ≤ tokens.length)
    (same : Cursor.atPosition tokens position = .atPosition tokens other) : position = other := by
  have lengths := congrArg (·.rest.length) same
  simp only [Cursor.atPosition_rest, List.length_drop] at lengths
  omega

theorem endsAt (heeds : rule.heeds none = true) (le : position ≤ tokens.length) :
    ∃ counted, EndsAt rule tokens position counted := by
  have counts (budget : Nat) : Counts budget rule tokens position :=
    counts_of_heeds (callsCount budget) none heeds rfl le
  obtain ⟨outcome, ends⟩ := exists_outcome rule (.atPosition tokens position)
  have granted {budget : Nat} (enough : Grammar.budget tokens ≤ budget) :
      rule.run (Nonterminal.recognize budget) (.atPosition tokens position) = outcome :=
    ends.ends budget (Nat.le_trans (Member.budget_le (Cursor.passes_advance position _)) enough)
  generalize hcounted :
    rule.runFrom (Nonterminal.recognizeFrom (Grammar.budget tokens)) tokens position = counted
  have inside := (counts (Grammar.budget tokens)).inside
  have moves := (granted (Nat.le_refl _)).symm.trans (counts (Grammar.budget tokens)).same
  rw [hcounted] at inside moves
  refine ⟨counted, fun budget enough => ?_, fun budget enough => (granted enough).trans moves,
    inside, fun error failed => ends.orderly error (by rw [moves, failed]; rfl)⟩
  -- Counted positions are told apart by the cursors, and those do not depend on the budget.
  have same := (counts budget).same.symm.trans ((granted enough).trans moves)
  have inside' := (counts budget).inside
  cases ended : rule.runFrom (Nonterminal.recognizeFrom budget) tokens position with
  | error e =>
    rw [ended] at same
    cases counted with
    | error e' => cases same; rfl
    | ok final => cases same
  | ok final =>
    rw [ended] at same
    cases counted with
    | error e => cases same
    | ok final' =>
      have cursors := Except.ok.inj same
      rw [atPosition_inj (inside' final ended).2 (inside final' rfl).2 cursors]

/-- A rule that takes something ends behind the position where it started. -/
theorem EndsAt.advances (ends : EndsAt rule tokens position counted)
    (takes : rule.takes false = true) {final : Nat} (ok : counted = .ok final) : position < final := by
  have run := ends.moves (Grammar.budget tokens) (Nat.le_refl _)
  rw [ok] at run
  have shorter := (runs_iff.mpr run).length_lt_of_takes takes nofun
  have inside := ends.inside final ok
  simp only [Cursor.atPosition_rest, List.length_drop] at shorter
  omega

-- ---------------------------------------------------------------------------
-- No rounds without an end
-- ---------------------------------------------------------------------------

/-- A call that is reached before anything is taken has a smaller rank. -/
theorem Reaches.shorter_or_rank {cursor place : Cursor} {nonterminal : Nonterminal} {ahead : Bool}
    {bound : Nat} (h : Reaches rule cursor (.call nonterminal) place)
    (leads : rule.leading ahead bound = true) (left : ahead = true → cursor.rest ≠ []) :
    place.rest.length < cursor.rest.length ∨ nonterminal.rank < bound := by
  generalize htarget : Rule.call nonterminal = target at h
  induction h generalizing ahead bound with
  | here =>
    subst htarget
    exact .inr (of_decide_eq_true leads)
  | first _ ih => exact ih (Bool.and_eq_true_iff.mp leads).1 left htarget
  | second run reach ih =>
    rcases run.shorter_or_leads (Bool.and_eq_true_iff.mp leads).2 left with shorter | ⟨same, leads⟩
    · exact .inl (Nat.lt_of_le_of_lt reach.length_le shorter)
    · rw [← same]
      exact ih leads (fun known => same ▸ left known) htarget
  | yes holds _ ih =>
    exact ih (Bool.and_eq_true_iff.mp leads).1 (Look.rest_ne_or left holds) htarget
  | no _ _ ih => exact ih (Bool.and_eq_true_iff.mp leads).2 left htarget
  | @call inner _ _ _ _ ih =>
    have lt := of_decide_eq_true leads
    exact (ih inner.rank_leading nofun htarget).imp_right fun rank => Nat.lt_trans rank lt

end Rule

/-- A nonterminal is called again inside itself only when something has been taken. -/
theorem Nonterminal.returns_later {nonterminal : Nonterminal} {cursor place : Cursor}
    (h : Reaches nonterminal.rule cursor (.call nonterminal) place) :
    place.rest.length < cursor.rest.length :=
  (h.shorter_or_rank nonterminal.rank_leading nofun).resolve_right (Nat.lt_irrefl _)

-- ---------------------------------------------------------------------------
-- Checking and splitting
-- ---------------------------------------------------------------------------

theorem Category.check_orderly (category : Category) (tokens : List Token) :
    Orderly (category.check tokens) := by
  obtain ⟨outcome, ends⟩ := exists_outcome category.rule (.start tokens)
  have run := ends.ends (Grammar.budget tokens) (Nat.le_refl _)
  unfold Category.check
  rw [run]
  cases outcome with
  | error e =>
    rintro _ ⟨⟩
    exact ends.orderly e rfl
  | ok final =>
    dsimp only
    split
    · exact orderly_ok ()
    · exact orderly_unexpected final .ending

theorem Nonterminal.recognize_orderly (nonterminal : Nonterminal) {budget : Nat} {cursor : Cursor}
    (enough : Grammar.budget cursor.rest ≤ budget) :
    Orderly (nonterminal.recognize budget cursor) := by
  obtain ⟨outcome, ends⟩ := exists_outcome (.call nonterminal) cursor
  have run : nonterminal.recognize budget cursor = outcome := ends.ends budget enough
  exact run ▸ ends.orderly

namespace Member

variable {kind : Member} {budget total limit : Nat} {cursor : Cursor}

/-- Every member, and every semicolon between statements, takes something, so the limit is not
    reached. -/
theorem locate_orderly (enough : Grammar.budget cursor.rest ≤ budget)
    (lt : cursor.rest.length < limit) :
    Orderly (locate (Nonterminal.recognize budget) kind total limit cursor) := by
  induction limit generalizing cursor with
  | zero => exact absurd lt (Nat.not_lt_zero _)
  | succ limit ih =>
    have behind {final : Cursor} {passed : List Token} (passes : cursor.Passes passed final)
        (shorter : final.rest.length < cursor.rest.length) :
        Orderly (locate (Nonterminal.recognize budget) kind total limit final) :=
      ih (Nat.le_trans (budget_le passes) enough) (by omega)
    unfold locate
    split
    · exact orderly_ok []
    · next more =>
      have left : cursor.rest ≠ [] := fun ending => more (Cursor.atEnd_iff.mpr ending)
      split
      · refine behind (Cursor.passes_advance 1 cursor) ?_
        rw [Cursor.advance_rest, List.length_drop]
        have := List.length_pos_iff.mpr left
        omega
      · refine (Nonterminal.recognize_orderly _ enough).bind fun head attributes => ?_
        have attributes := runs_call_iff.mpr attributes
        obtain ⟨passed, passes⟩ := attributes.passes
        refine (Nonterminal.recognize_orderly _ (Nat.le_trans (budget_le passes) enough)).bind
          fun final element => ?_
        have run : Runs budget (Rule.member kind) cursor final :=
          .seq attributes (runs_call_iff.mpr element)
        have shorter := run.length_lt left (member_least kind)
        obtain ⟨passed, passes⟩ := run.passes
        dsimp only
        split
        · exact (behind passes shorter).bind fun extents _ => orderly_ok _
        · split
          · refine (behind (passes.trans (Cursor.passes_advance 1 final)) ?_).bind
              fun extents _ => orderly_ok _
            rw [Cursor.advance_rest, List.length_drop]
            omega
          · split
            · exact orderly_ok _
            · exact orderly_unexpected final .ending

theorem split_orderly (kind : Member) (tokens : List Token) : Orderly (kind.split tokens) := by
  have members {first : Cursor} {passed : List Token}
      (passes : (Cursor.start tokens).Passes passed first) :
      Orderly (locate (Nonterminal.recognize (Grammar.budget tokens)) kind tokens.length
        (tokens.length + 1) first) := by
    have length := congrArg List.length passes.rest
    rw [Cursor.start_rest, List.length_append] at length
    exact locate_orderly (budget_le passes) (by omega)
  have attributes : Orderly
      (Nonterminal.innerAttrs.recognize (Grammar.budget tokens) (Cursor.start tokens)) :=
    Nonterminal.recognize_orderly _ (Nat.le_refl (Grammar.budget (Cursor.start tokens).rest))
  unfold split
  dsimp only
  split
  · refine attributes.bind fun first attributes => ?_
    obtain ⟨passed, passes⟩ := (runs_call_iff.mpr attributes).passes
    exact members passes
  · exact members (.refl (.start tokens))

end Member

-- ---------------------------------------------------------------------------
-- The recognizer as a whole
-- ---------------------------------------------------------------------------

/-- The recognizer ends, in bounds. Every production, from every position of a token list, ends in
    one outcome. If that is a position, it is one of the list and not before the start, and behind
    it for what is repeated. A nonterminal is called again inside itself only farther on. Checking
    and splitting end too, and nothing goes wrong but that a token, or the end, is not what was
    wanted. The stack limit of an interpreter that runs the recognizer is not modelled: the budget
    of nested calls grows with the tokens. -/
theorem Grammar.recognizer_ends :
    (∀ rule tokens position, IsProduction rule → position ≤ tokens.length →
      ∃ counted, rule.EndsAt tokens position counted
        ∧ (LoopBody rule → ∀ final, counted = .ok final → position < final))
    ∧ (∀ (nonterminal : Nonterminal) cursor place,
      Reaches nonterminal.rule cursor (.call nonterminal) place →
        place.rest.length < cursor.rest.length)
    ∧ (∀ (category : Category) tokens, Orderly (category.check tokens))
    ∧ ∀ (kind : Member) tokens, Orderly (kind.split tokens)
      ∧ ∀ extents, kind.split tokens = .ok extents → Extent.Chained tokens.length 0 extents := by
  refine ⟨fun rule tokens position production le => ?_, fun _ _ _ => Nonterminal.returns_later,
    Category.check_orderly, fun kind tokens => ⟨Member.split_orderly kind tokens, fun _ =>
      Member.split_chained⟩⟩
  obtain ⟨counted, ends⟩ := endsAt production.heeds le
  exact ⟨counted, ends, fun body _ ok => ends.advances body.takes ok⟩

/-- A generic parameter takes the name that it consists of. -/
theorem Grammar.recognizer_ends_parameter :
    LoopBody (Nonterminal.round .genericParams)
      ∧ (Nonterminal.round .genericParams).EndsAt [.ident "T" {}] 0 (.ok 1) := by
  have body : LoopBody (Nonterminal.round .genericParams) := .round (by decide)
  obtain ⟨counted, ends, -⟩ := recognizer_ends.1 (Nonterminal.round .genericParams) [.ident "T" {}] 0
    (.loopBody body) (Nat.zero_le _)
  have ended : (Nonterminal.round .genericParams).runFrom
      (Nonterminal.recognizeFrom (Grammar.budget [.ident "T" {}])) [.ident "T" {}] 0 = .ok 1 := by
    decide +kernel
  have same : counted = .ok 1 := (ends.counts _ (Nat.le_refl _)).symm.trans ended
  exact ⟨body, same ▸ ends⟩

end AliasExpansion
