-- SUMMARY: Filling in placeholders gives every piece between percent signs its meaning.
import AliasExpansion.Proofs.Outcome
import AliasExpansion.Proofs.Token.Literals
import AliasExpansion.Substitution.Placeholder

/-!
# Placeholders, piece by piece

The percent signs of a text cut it into pieces. A piece at an even place stands for itself and one
at an odd place is a name between two signs, unless it is the last: then its sign is not closed.
Filling in the placeholders of a text gives the meanings of its pieces one after the other
(`fill_piecewise`). So a text may be filled in part by part wherever no placeholder is open, and what
is filled in is not looked at again.
-/

namespace AliasExpansion.Placeholder

variable {values : Table String Value} {piece front : List Char}

-- ---------------------------------------------------------------------------
-- Pieces
-- ---------------------------------------------------------------------------

/-- What a piece stands for at its place in a text whose last piece is at `last`. -/
def pieceMeaning (values : Table String Value) (last : Nat) :
    List Char × Nat → Except DecodeError (List Char)
  | (piece, place) =>
    if place % 2 = 0 then .ok piece
    else if place = last then .ok ('%' :: piece)
    else if piece = [] then .ok ['%']
    else
      match values.find? (String.ofList (piece.filter (!Text.isBlank ·))) with
      | some value => String.toList <$> value.text
      | none => .ok (['%'] ++ piece ++ ['%'])

/-- The meanings of all pieces of a text. -/
def fillPieces (values : Table String Value) (text : List Char) : Except DecodeError (List Char) :=
  let pieces := text.splitOn '%'
  List.flatten <$> pieces.zipIdx.mapM (pieceMeaning values (pieces.length - 1))

theorem pieceMeaning_even {last place : Nat} (even : place % 2 = 0) :
    pieceMeaning values last (piece, place) = .ok piece :=
  if_pos even

theorem pieceMeaning_last {place : Nat} (odd : ¬ place % 2 = 0) :
    pieceMeaning values place (piece, place) = .ok ('%' :: piece) := by
  rw [pieceMeaning, if_neg odd, if_pos rfl]

theorem pieceMeaning_odd {last place : Nat} (odd : ¬ place % 2 = 0) (inner : place ≠ last) :
    pieceMeaning values last (piece, place) = meaning values piece := by
  rw [pieceMeaning, if_neg odd, if_neg inner]
  cases piece with
  | nil => rfl
  | cons c piece =>
    rw [if_neg (List.cons_ne_nil c piece), meaning]
    · cases values.find? (String.ofList ((c :: piece).filter (!Text.isBlank ·))) with
      | none => rfl
      | some value => cases value.text <;> rfl
    · nofun

theorem sign_not_mem_of_mem_splitOn {text : List Char} (mem : piece ∈ text.splitOn '%') :
    '%' ∉ piece := by
  induction text generalizing piece with
  | nil =>
    rw [List.splitOn_nil, List.mem_singleton] at mem
    rw [mem]
    exact List.not_mem_nil
  | cons c text ih =>
    obtain ⟨first, others, pieces⟩ := List.exists_cons_of_ne_nil (List.splitOn_ne_nil '%' text)
    rw [List.splitOn_cons_eq_if_modifyHead, pieces] at mem
    rw [pieces] at ih
    split at mem
    · obtain rfl | mem := List.mem_cons.mp mem
      · exact List.not_mem_nil
      · exact ih mem
    · next other =>
      obtain rfl | mem := List.mem_cons.mp mem
      · rw [List.mem_cons, not_or]
        exact ⟨fun eq => other (beq_iff_eq.mpr eq.symm), ih List.mem_cons_self⟩
      · exact ih (List.mem_cons_of_mem first mem)

-- ---------------------------------------------------------------------------
-- Single characters
-- ---------------------------------------------------------------------------

theorem fillFrom_opening (rest : List Char) :
    fillFrom values none ('%' :: rest) = fillFrom values (some []) rest :=
  rfl

theorem fillFrom_closing (body rest : List Char) :
    fillFrom values (some body) ('%' :: rest) = do
      let filled ← meaning values body.reverse
      return filled ++ (← fillFrom values none rest) :=
  rfl

theorem fillFrom_outside {c : Char} (other : c ≠ '%') (rest : List Char) :
    fillFrom values none (c :: rest) = (c :: ·) <$> fillFrom values none rest := by
  rw [fillFrom, if_neg (by simpa using other)]
  cases fillFrom values none rest <;> rfl

theorem fillFrom_inside {c : Char} (other : c ≠ '%') (body rest : List Char) :
    fillFrom values (some body) (c :: rest) = fillFrom values (some (c :: body)) rest := by
  rw [fillFrom, if_neg (by simpa using other)]

-- ---------------------------------------------------------------------------
-- Runs without a sign
-- ---------------------------------------------------------------------------

theorem fillFrom_plain (free : '%' ∉ piece) (rest : List Char) :
    fillFrom values none (piece ++ rest) = (piece ++ ·) <$> fillFrom values none rest := by
  induction piece with
  | nil => cases h : fillFrom values none rest <;> simp [h]
  | cons c piece ih =>
    rw [List.mem_cons, not_or] at free
    rw [List.cons_append, fillFrom_outside (Ne.symm free.1), ih free.2]
    cases fillFrom values none rest <;> rfl

theorem fillFrom_name (free : '%' ∉ piece) (body rest : List Char) :
    fillFrom values (some body) (piece ++ rest)
      = fillFrom values (some (piece.reverse ++ body)) rest := by
  induction piece generalizing body with
  | nil => rfl
  | cons c piece ih =>
    rw [List.mem_cons, not_or] at free
    rw [List.cons_append, fillFrom_inside (Ne.symm free.1), ih free.2, List.reverse_cons,
      List.append_assoc, List.singleton_append]

theorem fillFrom_closed (free : '%' ∉ piece) (rest : List Char) :
    fillFrom values (some []) (piece ++ '%' :: rest) = do
      let filled ← meaning values piece
      return filled ++ (← fillFrom values none rest) := by
  rw [fillFrom_name free, List.append_nil, fillFrom_closing, List.reverse_reverse]

theorem fillFrom_unclosed (free : '%' ∉ piece) :
    fillFrom values (some []) piece = .ok ('%' :: piece) := by
  have run : fillFrom values (some []) (piece ++ []) = _ := fillFrom_name free [] []
  rw [List.append_nil] at run
  rw [run, List.append_nil, fillFrom, List.reverse_reverse]

-- ---------------------------------------------------------------------------
-- Filling in
-- ---------------------------------------------------------------------------

/-- Pieces with signs between them are filled in one by one. A placeholder is open where the first of
    them has an odd place. -/
theorem fillFrom_intercalate {pieces : List (List Char)} (ne : pieces ≠ [])
    (free : ∀ piece ∈ pieces, '%' ∉ piece) (place : Nat) :
    fillFrom values (if place % 2 = 0 then none else some []) (['%'].intercalate pieces)
      = List.flatten <$>
          (pieces.zipIdx place).mapM (pieceMeaning values (place + (pieces.length - 1))) := by
  induction pieces generalizing place with
  | nil => exact absurd rfl ne
  | cons piece pieces ih =>
    rw [List.forall_mem_cons] at free
    rw [List.zipIdx_cons, List.mapM_cons]
    cases pieces with
    | nil =>
      rw [List.intercalate_singleton, List.length_singleton, Nat.sub_self, Nat.add_zero]
      by_cases even : place % 2 = 0
      · have plain : fillFrom values none (piece ++ []) = _ := fillFrom_plain free.1 []
        rw [List.append_nil] at plain
        rw [if_pos even, plain, pieceMeaning_even even]
        simp [fillFrom]
      · rw [if_neg even, fillFrom_unclosed free.1, pieceMeaning_last even]
        simp
    | cons next pieces =>
      have later := ih (List.cons_ne_nil next pieces) free.2 (place + 1)
      have last : place + 1 + ((next :: pieces).length - 1)
          = place + ((piece :: next :: pieces).length - 1) := by
        simp only [List.length_cons]
        omega
      rw [last] at later
      rw [List.intercalate_cons_cons, List.append_assoc, List.singleton_append]
      by_cases even : place % 2 = 0
      · rw [if_neg (by omega)] at later
        rw [if_pos even, fillFrom_plain free.1, fillFrom_opening, later, pieceMeaning_even even]
        generalize ((next :: pieces).zipIdx (place + 1)).mapM (pieceMeaning values _) = meanings
        cases meanings <;> rfl
      · rw [if_pos (by omega)] at later
        have inner : place ≠ place + ((piece :: next :: pieces).length - 1) := by
          simp only [List.length_cons]
          omega
        rw [if_neg even, fillFrom_closed free.1, later, pieceMeaning_odd even inner]
        generalize ((next :: pieces).zipIdx (place + 1)).mapM (pieceMeaning values _) = meanings
        cases meaning values piece with
        | error e => rfl
        | ok filled => cases meanings <;> rfl

/-- Where no placeholder is open, what follows is filled in on its own. -/
theorem fillFrom_append {body : Option (List Char)}
    (closed : (front.count '%' + if body.isSome then 1 else 0) % 2 = 0) (back : List Char) :
    fillFrom values body (front ++ back) = do
      let filled ← fillFrom values body front
      return filled ++ (← fillFrom values none back) := by
  induction front generalizing body with
  | nil =>
    cases body with
    | none => cases h : fillFrom values none back <;> simp [fillFrom, h]
    | some body => simp at closed
  | cons c front ih =>
    by_cases sign : c = '%'
    · subst sign
      rw [List.count_cons_self] at closed
      cases body with
      | none => exact ih (by simpa using closed)
      | some body =>
        have closed : (front.count '%' + if (none : Option (List Char)).isSome then 1 else 0) % 2
            = 0 := by
          simp only [Option.isSome_some, if_true] at closed
          simp only [Option.isSome_none, Bool.false_eq_true, if_false]
          omega
        rw [List.cons_append, fillFrom_closing, fillFrom_closing, ih closed]
        cases meaning values body.reverse with
        | error e => rfl
        | ok filled =>
          cases fillFrom values none front with
          | error e => rfl
          | ok inside => cases fillFrom values none back <;> simp
    · rw [List.count_cons_of_ne sign] at closed
      cases body with
      | none =>
        rw [List.cons_append, fillFrom_outside sign, fillFrom_outside sign, ih closed]
        cases fillFrom values none front with
        | error e => rfl
        | ok inside => cases fillFrom values none back <;> rfl
      | some body =>
        rw [List.cons_append, fillFrom_inside sign, fillFrom_inside sign]
        exact ih closed

theorem fill_eq_map (text : String) :
    fill values text = String.ofList <$> fillFrom values none text.toList := by
  rw [fill]
  cases fillFrom values none text.toList <;> rfl

theorem fill_append {front : String} (closed : front.toList.count '%' % 2 = 0) (back : String) :
    fill values (front ++ back) = do
      let filled ← fill values front
      return filled ++ (← fill values back) := by
  rw [fill_eq_map, fill_eq_map, fill_eq_map, String.toList_append, fillFrom_append (by simpa using closed)]
  cases fillFrom values none front.toList with
  | error e => rfl
  | ok inside => cases fillFrom values none back.toList <;> simp

/-- A placeholder on its own is filled in with the text of its value. -/
theorem fill_bound {name text : String} {value : Value} (free : '%' ∉ name.toList)
    (ne : name ≠ "")
    (bound : values.find? (String.ofList (name.toList.filter (!Text.isBlank ·))) = some value)
    (spells : value.text = .ok text) : fill values ("%" ++ name ++ "%") = .ok text := by
  have means : meaning values name.toList = .ok text.toList := by
    rw [meaning]
    · simp only [bound, spells]
      rfl
    · simpa using ne
  have placeholder : ("%" ++ name ++ "%").toList = '%' :: (name.toList ++ '%' :: []) := by
    simp [String.toList_append]
  have opens : fillFrom values none ('%' :: (name.toList ++ '%' :: []))
      = fillFrom values (some []) (name.toList ++ '%' :: []) := rfl
  rw [fill_eq_map, placeholder, opens, fillFrom_closed free, means]
  simp [fillFrom]

/-- Filling in the placeholders of a text gives its pieces their meanings, in their order. So a text
    is filled in part by part where the number of signs before the cut is even; and the text of
    the value that a placeholder names stands in the result as it is, whatever signs it holds. -/
theorem fill_piecewise (values : Table String Value) :
    (∀ text, fill values text = String.ofList <$> fillPieces values text.toList) ∧
    (∀ front back : String, front.toList.count '%' % 2 = 0 →
      fill values (front ++ back) = do
        let filled ← fill values front
        return filled ++ (← fill values back)) ∧
    ∀ (front name back text : String) (value : Value), front.toList.count '%' % 2 = 0 →
      '%' ∉ name.toList → name ≠ "" →
      values.find? (String.ofList (name.toList.filter (!Text.isBlank ·))) = some value →
      value.text = .ok text →
      fill values (front ++ ("%" ++ name ++ "%" ++ back)) = do
        let filled ← fill values front
        return filled ++ (text ++ (← fill values back)) := by
  refine ⟨fun text => ?_, fun front back closed => fill_append closed back, ?_⟩
  · have free : ∀ piece ∈ text.toList.splitOn '%', '%' ∉ piece :=
      fun piece mem => sign_not_mem_of_mem_splitOn mem
    have pieces : fillFrom values (if 0 % 2 = 0 then none else some []) _ = _ :=
      fillFrom_intercalate (List.splitOn_ne_nil '%' text.toList) free 0
    rw [List.intercalate_splitOn, Nat.zero_mod, if_pos rfl, Nat.zero_add] at pieces
    rw [fill_eq_map, pieces, fillPieces]
  · intro front name back text value closed free ne bound spells
    have even : ("%" ++ name ++ "%").toList.count '%' % 2 = 0 := by
      simp [String.toList_append, List.count_eq_zero.mpr free]
    rw [fill_append closed, fill_append even, fill_bound free ne bound spells]
    cases fill values front with
    | error e => rfl
    | ok filled => cases fill values back <;> rfl

/-- A value whose text looks like its own placeholder, between a sign that is written twice and one
    that is not closed. -/
theorem fill_piecewise_signs :
    let values := Table.ofList [("x", Value.ofText "%x%")]
    "a%%".toList.count '%' % 2 = 0 ∧ '%' ∉ " x ".toList ∧ " x " ≠ "" ∧
      fill values ("a%%" ++ ("%" ++ " x " ++ "%" ++ "%")) = .ok "a%%x%%" := by
  intro values
  have bound : values.find? (String.ofList (" x ".toList.filter (!Text.isBlank ·)))
      = some (Value.ofText "%x%") := by
    decide
  have spells : (Value.ofText "%x%").text = .ok "%x%" := Literal.content_ofContent "%x%" {}
  have filled := (fill_piecewise values).2.2 "a%%" " x " "%" "%x%" (Value.ofText "%x%")
    (by decide) (by decide) (by decide) bound spells
  refine ⟨by decide, by decide, by decide, filled.trans ?_⟩
  have front : fill values "a%%" = .ok "a%" := by decide
  have back : fill values "%" = .ok "%" := by decide
  rw [front, back]
  rfl

end AliasExpansion.Placeholder
