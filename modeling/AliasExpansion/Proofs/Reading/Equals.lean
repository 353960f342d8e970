-- SUMMARY: An alias value may stand right behind its equals sign unless it starts with punctuation.
import AliasExpansion.Proofs.Lexing.Brackets
import AliasExpansion.Proofs.Lexing.Names
import AliasExpansion.Proofs.Lexing.WhiteSpace
import AliasExpansion.Proofs.Reading.Spans

/-!
# Values right behind the equals sign

The blank between `=` and an alias value separates no lexemes: without it the lexemes stay the same
(`Lexeme.scan_glued`), up to the flag of `=`, which is joint when a punctuation character follows at
once. A joint `=` is no equals sign to the reader, so a value that starts with punctuation needs the
blank, and every other value may go without (`Invocation.value_behind_equals`).
-/

namespace AliasExpansion

-- ---------------------------------------------------------------------------
-- Scanning a name and an equals sign
-- ---------------------------------------------------------------------------

theorem Span.foldl_advance {cs : List Char} (line : '\n' ∉ cs) (span : Span) :
    cs.foldl advance span = { span with column := span.column + cs.length } := by
  induction cs generalizing span with
  | nil => rfl
  | cons c rest ih =>
    rw [List.mem_cons, not_or] at line
    have step : span.advance c = { span with column := span.column + 1 } :=
      if_neg fun newline => line.1 (beq_iff_eq.mp newline).symm
    rw [List.foldl_cons, step, ih line.2]
    simp [Nat.add_assoc, Nat.add_comm 1]

theorem Name.newline_notMem {cs : List Char} (written : IsWritten cs) : '\n' ∉ cs := by
  have shaped {cs : List Char} (shaped : isNameShaped cs = true) : '\n' ∉ cs := by
    obtain ⟨c, rest, rfl, start, word⟩ := isNameShaped_iff.mp shaped
    intro mem
    obtain first | later := List.mem_cons.mp mem
    · rw [← first] at start
      exact absurd start (by decide)
    · exact absurd (word _ later) (by decide)
  obtain plain | ⟨bare, rfl, inside⟩ := written
  · exact shaped plain
  · simpa using shaped inside

/-- Where the equals sign stands that follows a name and a blank. -/
def equalsSpan (name : String) : Span where
  line := 1
  column := name.length + 2

namespace Lexeme

variable {name : String} {rest : List Char} {lexemes : List Lexeme}

/-- The lexemes of a name, a blank and an equals sign at the start of a source. -/
def equalsLexemes (name : String) (joint : Bool) : List Lexeme :=
  [⟨.ident, name.toList, {}, false⟩, ⟨.blank, [' '], { column := name.length + 1 }, false⟩,
    ⟨.punct, ['='], equalsSpan name, joint⟩]

/-- The flag of a punctuation character in front of the text. -/
def isJointBefore (rest : List Char) : Bool :=
  rest.head?.any punctChars.contains

theorem scan_equals (usable : Name.isIdentifier name = true) (rest : List Char) :
    scanAfter 0 {} (name.toList ++ ' ' :: '=' :: rest)
      = (equalsLexemes name (isJointBefore rest) ++ ·) <$>
          scanAfter 0 { column := name.length + 3 } rest := by
  have written := Name.isWritten_of_isIdentifier usable
  have first : first? (name.toList ++ ' ' :: '=' :: rest) = some (.ident, name.toList.length) :=
    first?_append (first?_of_isWritten written) (by decide) (bounded_cons (by decide) _)
  have blank : first? (' ' :: '=' :: rest) = some (.blank, 1) := by
    rw [first?_blank (by decide), run_cons_of_neg (by decide)]
  have equals : first? ('=' :: rest) = some (.punct, 1) :=
    first?_punct (by decide) (by decide) (noComment_of_ne (by decide) rest)
  have place : name.toList.foldl Span.advance {} = { column := name.length + 1 } := by
    rw [Span.foldl_advance (Name.newline_notMem written), String.length_toList]
    simp [Nat.add_comm]
  have joint : take .punct 1 (equalsSpan name) ('=' :: rest)
      = ⟨.punct, ['='], equalsSpan name, isJointBefore rest⟩ := by
    cases rest <;> rfl
  rw [scanAfter_lexeme first, place, take_eq, scanAfter_cons blank, scanAfter_cons equals]
  simp only [Functor.map_map]
  have advanced : (({ column := name.length + 1 } : Span).advance ' ') = equalsSpan name := rfl
  rw [advanced, joint]
  rfl

/-- Without the blank behind the equals sign the lexemes stay the same, up to its flag. -/
theorem scan_glued (usable : Name.isIdentifier name = true)
    (scanned : scanAfter 0 {} (name.toList ++ ' ' :: '=' :: ' ' :: rest) = .ok lexemes) :
    ∃ others, scanAfter 0 {} (name.toList ++ ' ' :: '=' :: rest)
        = .ok (equalsLexemes name (isJointBefore rest) ++ others)
      ∧ ∀ place, (isJointBefore rest = false ∨ place = some (equalsSpan name)) →
        List.Forall₂ (SameAt place) (solid lexemes)
          (solid (equalsLexemes name (isJointBefore rest) ++ others)) := by
  rw [scan_equals usable] at scanned
  obtain ⟨behind, later, rfl⟩ := Outcome.map_eq_ok.mp scanned
  obtain ⟨others, later', same⟩ := scansAs_of_blank later (by decide) { column := name.length + 3 }
  refine ⟨others, by rw [scan_equals usable, later']; rfl, fun place flag => ?_⟩
  refine solid_cons ⟨rfl, rfl, fun _ => .inl rfl⟩ ?_
  refine solid_cons ⟨rfl, rfl, fun _ => .inl rfl⟩ ?_
  refine solid_cons ⟨rfl, rfl, fun _ => ?_⟩ (same place)
  obtain separate | here := flag
  · exact .inl separate
  · exact .inr ⟨here.symm, here.symm⟩

end Lexeme

-- ---------------------------------------------------------------------------
-- Trees
-- ---------------------------------------------------------------------------

namespace Token

open Lexeme

variable {name : String} {rest : List Char} {tokens : List Token}

theorem read_glued (usable : Name.isIdentifier name = true)
    (hread : read (String.ofList (name.toList ++ ' ' :: '=' :: ' ' :: rest)) = .ok tokens) :
    ∃ tokens', read (String.ofList (name.toList ++ ' ' :: '=' :: rest)) = .ok tokens'
      ∧ (isJointBefore rest = false → bareAll tokens' = bareAll tokens)
      ∧ ∃ others, tokens' = .ident name {} ::
          .punct '=' (isJointBefore rest) (equalsSpan name) :: others := by
  obtain ⟨lexemes, scanned, assembled⟩ := Outcome.bind_eq_ok.mp hread
  rw [scan, String.toList_ofList] at scanned
  obtain ⟨others, scanned', same⟩ := scan_glued usable scanned
  rw [ofLexemes, ← assemble_solid] at assembled
  obtain ⟨tokens', assembled', -⟩ := assemble_reglued (same _ (.inr rfl)) .nil .nil assembled
  have trees : ofLexemes (equalsLexemes name (isJointBefore rest) ++ others) = .ok tokens' := by
    rw [ofLexemes, ← assemble_solid, assembled']
  refine ⟨tokens', ?_, fun separate => ?_, ?_⟩
  · rw [read, scan, String.toList_ofList, scanned', Outcome.ok_bind, trees]
  · obtain ⟨tokens'', assembled'', reglued⟩ :=
      assemble_reglued (same none (.inl separate)) .nil .nil assembled
    cases assembled'.symm.trans assembled''
    exact bareAll_eq_of_reglued reglued
  · obtain ⟨more, rfl, pieces⟩ := exists_of_pieces_eq_cons (pieces_of_ofLexemes trees)
    obtain ⟨more, rfl, -⟩ := exists_of_pieces_eq_cons pieces
    rw [String.ofList_toList]
    exact ⟨more, rfl⟩

end Token

-- ---------------------------------------------------------------------------
-- Invocations
-- ---------------------------------------------------------------------------

namespace Invocation

open Reading

variable {name : String} {state : ReadState} {span equals : Span} {token : Token}
  {others : List Token}

theorem run_peek (opens : state.cursor.rest = token :: others) :
    peek.run state = .ok (some token, state) := by
  rw [← List.head?_cons (l := others), ← opens]
  rfl

theorem run_identifier (usable : Name.isIdentifier name = true)
    (opens : state.cursor.rest = .ident name span :: others) :
    identifier.run state
      = .ok ((name, span), { state with cursor := state.cursor.advance 1 }) := by
  rw [identifier, StateT.run_bind, run_peek opens, Outcome.ok_bind]
  dsimp only
  rw [if_pos usable]
  rfl

theorem readLoops_of_name (usable : Name.isIdentifier name = true) (limit : Nat)
    (opens : state.cursor.rest = .ident name span :: others) :
    (readLoops limit).run state = .ok ([], state) := by
  have noWord : isWord "for" (.ident name span) = false := by
    refine beq_false_of_ne ?_
    rintro rfl
    revert usable
    decide
  cases limit with
  | zero => rfl
  | succ limit =>
    rw [readLoops, StateT.run_bind, run_peek opens, Outcome.ok_bind]
    dsimp only
    rw [noWord]
    rfl

/-- A joint `=` is no equals sign. -/
theorem readBinding_of_joint (usable : Name.isIdentifier name = true)
    (opens : state.cursor.rest = .ident name span :: .punct '=' true equals :: others) :
    readBinding.run state = .error ⟨.invocation .expectedEquals, some equals⟩ := by
  have ahead : (state.cursor.advance 1).rest = .punct '=' true equals :: others := by
    rw [Cursor.advance_rest, opens]
    rfl
  have fault : (state.cursor.advance 1).fault .expectedEquals
      = ⟨.invocation .expectedEquals, some equals⟩ := by
    rw [Cursor.fault, ahead]
    rfl
  rw [readBinding, StateT.run_bind, run_identifier usable opens, Outcome.ok_bind]
  dsimp only
  rw [StateT.run_bind, run_peek ahead, Outcome.ok_bind, ← fault]
  rfl

theorem read_of_joint (usable : Name.isIdentifier name = true)
    (opens : state.cursor.rest = .ident name span :: .punct '=' true equals :: others) :
    read.run state = .error ⟨.invocation .expectedEquals, some equals⟩ := by
  have bindings : (readBindings state.cursor.rest.length none).run state
      = .error ⟨.invocation .expectedEquals, some equals⟩ := by
    rw [opens, List.length_cons, readBindings, StateT.run_bind, run_peek opens, Outcome.ok_bind]
    dsimp only
    rw [StateT.run_bind, readBinding_of_joint usable opens, Outcome.error_bind]
  rw [read, StateT.run_bind, StateT.run_get, Outcome.pure_eq_ok, Outcome.ok_bind]
  dsimp only
  rw [StateT.run_bind, readLoops_of_name usable _ opens, Outcome.ok_bind, StateT.run_bind, bindings,
    Outcome.error_bind]

/-- The source of an invocation with one alias at its start. The value follows the equals sign and
    `gap`. -/
def aliasSource (name gap value block : String) : String :=
  name ++ " =" ++ gap ++ value ++ ", \x7b " ++ block ++ " \x7d"

/-- What stands behind the gap opens with the value, or with the comma if there is none. -/
theorem aliasSource_eq (name value block : String) :
    ∃ rest, Lexeme.isJointBefore rest = Lexeme.isJointBefore (value ++ ",").toList
      ∧ ∀ gap, aliasSource name gap value block
          = String.ofList (name.toList ++ ' ' :: '=' :: (gap.toList ++ rest)) := by
  refine ⟨value.toList ++ (", \x7b " ++ block ++ " \x7d").toList, ?_, fun gap => ?_⟩
  · cases opens : value.toList with
    | nil => simp [Lexeme.isJointBefore, opens]
    | cons c cs => simp [Lexeme.isJointBefore, opens]
  · rw [← String.toList_inj, String.toList_ofList]
    simp [aliasSource]

/-- Take an invocation that is read with a blank between the equals sign of its first alias and the
    value. Without the blank it is read as the same invocation up to spans, unless a punctuation
    character comes to stand right behind the equals sign: then it is refused there. -/
theorem value_behind_equals {name value block : String} {nextId : NodeId}
    {result : Invocation × ReadState} (usable : Name.isIdentifier name = true)
    (h : ofSource (aliasSource name " " value block) nextId = .ok result) :
    (Lexeme.isJointBefore (value ++ ",").toList = false →
      ∃ result', ofSource (aliasSource name "" value block) nextId = .ok result'
        ∧ SameReading result result')
    ∧ (Lexeme.isJointBefore (value ++ ",").toList = true →
      ofSource (aliasSource name "" value block) nextId
        = .error ⟨.invocation .expectedEquals, some (equalsSpan name)⟩) := by
  obtain ⟨rest, joint, source⟩ := aliasSource_eq name value block
  obtain ⟨tokens, lexed, parsed⟩ := Outcome.bind_eq_ok.mp h
  have spaced : Token.read (String.ofList (name.toList ++ ' ' :: '=' :: ' ' :: rest))
      = .ok tokens := by
    rw [source] at lexed
    exact lexed
  obtain ⟨tokens', lexed', same, others, opens⟩ := Token.read_glued usable spaced
  have glued : Token.read (aliasSource name "" value block) = .ok tokens' := by
    rw [source]
    exact lexed'
  rw [← joint, ofSource, glued, Outcome.ok_bind]
  constructor
  · intro separate
    exact ofTokens_of_bareAll_eq (same separate) parsed
  · intro sticks
    rw [opens, sticks]
    exact read_of_joint usable rfl

/-- A call whose arguments start with punctuation, right behind the equals sign. -/
theorem value_behind_equals_call :
    Name.isIdentifier "a" = true
      ∧ ∃ result, ofSource (aliasSource "a" " " "f('b', -1)" "a") 0 = .ok result
        ∧ ∃ result', ofSource (aliasSource "a" "" "f('b', -1)" "a") 0 = .ok result'
          ∧ SameReading result result' := by
  have usable : Name.isIdentifier "a" = true := by decide
  have succeeds : (ofSource (aliasSource "a" " " "f('b', -1)" "a") 0).toOption.isSome = true := by
    decide +kernel
  obtain ⟨result, read⟩ := Option.isSome_iff_exists.mp succeeds
  rw [Outcome.toOption_eq_some] at read
  exact ⟨usable, result, read, (value_behind_equals usable read).1 (by decide)⟩

/-- A negative number needs the blank. -/
theorem value_behind_equals_minus :
    (ofSource (aliasSource "a" " " "-1" "x") 0).toOption.isSome = true
      ∧ ofSource (aliasSource "a" "" "-1" "x") 0
        = .error ⟨.invocation .expectedEquals, some { line := 1, column := 3 }⟩ :=
  ⟨by decide +kernel, Outcome.failure?_eq_some.mp (by decide +kernel)⟩

end Invocation

end AliasExpansion
