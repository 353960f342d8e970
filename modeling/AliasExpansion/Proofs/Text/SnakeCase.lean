-- SUMMARY: Which texts in snake case stay as they are, and that a second pass settles every text.
import AliasExpansion.Proofs.Text.Case
import AliasExpansion.Proofs.Text.Words

/-!
# Snake case again

A text in snake case has no character left to lowercase (`settled_of_mem_snakeCase`), so a second
pass only divides its words once more. It leaves the text alone exactly when it divides none of them
(`snakeCase_snakeCase_eq_iff`): two things can start a new word inside a lowercased one, the dot that
a dotted capital I leaves behind, which is a separator, and a capital without a lowercase form. A
word is never divided further (`words_of_mem_words`), so a third pass changes nothing.
-/

namespace AliasExpansion.Text

variable {cs word left right before form : List Char} {pieces : List (List Char)} {c d : Char}
  {last : Option LetterCase}

-- ---------------------------------------------------------------------------
-- Lowercase forms in a text
-- ---------------------------------------------------------------------------

/-- What a character of a text may become when the text is lowercased. -/
inductive LowersTo : Char → List Char → Prop
  | plain (c : Char) : c ≠ '\u0130' → LowersTo c [lowered c]
  | dotted : LowersTo '\u0130' ['i', '\u0307']
  | finalSigma : LowersTo '\u03A3' ['\u03C2']

theorem lowersTo_lowercaseChar (c : Char) : LowersTo c (lowercaseChar c) := by
  rw [lowercaseChar]
  split
  · next dotted =>
    rw [beq_iff_eq.mp dotted]
    exact .dotted
  · next plain => exact .plain c fun eq => plain (beq_iff_eq.mpr eq)

theorem lowered_sigma : lowered '\u03A3' = '\u03C3' := by
  decide +kernel

theorem lowercaseAfter_cons (before : List Char) (c : Char) (rest : List Char) :
    ∃ form, LowersTo c form
      ∧ lowercaseAfter before (c :: rest) = form ++ lowercaseAfter (c :: before) rest := by
  refine ⟨_, ?_, rfl⟩
  split
  · next sigma =>
    rw [beq_iff_eq.mp sigma]
    split
    · exact .finalSigma
    · rw [← lowered_sigma]
      exact .plain _ (by decide)
  · exact lowersTo_lowercaseChar c

theorem exists_of_mem_lowercaseAfter (mem : d ∈ lowercaseAfter before cs) :
    ∃ c ∈ cs, ∃ form, LowersTo c form ∧ d ∈ form := by
  induction cs generalizing before with
  | nil => cases mem
  | cons c rest ih =>
    obtain ⟨form, lowers, eq⟩ := lowercaseAfter_cons before c rest
    rw [eq, List.mem_append] at mem
    obtain first | later := mem
    · exact ⟨c, List.mem_cons_self, form, lowers, first⟩
    · obtain ⟨c', mem, found⟩ := ih later
      exact ⟨c', List.mem_cons_of_mem _ mem, found⟩

theorem exists_form_of_mem (mem : c ∈ cs) (before : List Char) :
    ∃ form, LowersTo c form ∧ ∀ d ∈ form, d ∈ lowercaseAfter before cs := by
  induction cs generalizing before with
  | nil => cases mem
  | cons c' rest ih =>
    obtain ⟨form, lowers, eq⟩ := lowercaseAfter_cons before c' rest
    rw [eq]
    obtain rfl | later := List.mem_cons.mp mem
    · exact ⟨form, lowers, fun d mem => List.mem_append_left _ mem⟩
    · obtain ⟨form', lowers', all⟩ := ih later (c' :: before)
      exact ⟨form', lowers', fun d mem => List.mem_append_right _ (all d mem)⟩

-- ---------------------------------------------------------------------------
-- Characters that stay as they are
-- ---------------------------------------------------------------------------

/-- Lowercasing leaves the character alone, wherever it stands. -/
def Settled (d : Char) : Prop :=
  lowered d = d ∧ d ≠ '\u0130'

theorem lowercaseAfter_settled (settled : ∀ d ∈ cs, Settled d) (before : List Char) :
    lowercaseAfter before cs = cs := by
  induction cs generalizing before with
  | nil => rfl
  | cons d rest ih =>
    obtain ⟨⟨same, plain⟩, settled⟩ := List.forall_mem_cons.mp settled
    have noSigma : d ≠ '\u03A3' := by
      rintro rfl
      rw [lowered_sigma] at same
      exact absurd same (by decide)
    have form : lowercaseChar d = [d] := by
      rw [lowercaseChar, if_neg (by simpa using plain)]
      exact congrArg (fun c => [c]) same
    rw [lowercaseAfter, ih settled, if_neg (by simpa using noSigma), form]
    rfl

theorem LowersTo.settled (lowers : LowersTo c form) (mem : d ∈ form) : Settled d := by
  cases lowers with
  | plain _ plain =>
    obtain rfl := List.mem_singleton.mp mem
    refine ⟨lowered_lowered c, fun dotted => plain ?_⟩
    obtain same | lower := lowered_eq_or_isLowercase c
    · rw [← same, dotted]
    · rw [dotted] at lower
      exact absurd lower (by decide +kernel)
  | dotted =>
    obtain rfl | rfl : d = 'i' ∨ d = '\u0307' := by simpa using mem
    · exact ⟨by decide +kernel, by decide⟩
    · exact ⟨by decide +kernel, by decide⟩
  | finalSigma =>
    obtain rfl := List.mem_singleton.mp mem
    exact ⟨by decide +kernel, by decide⟩

theorem LowersTo.alphanumeric (lowers : LowersTo c form) (plain : c ≠ '\u0130')
    (h : isAlphanumeric c = true) (mem : d ∈ form) : isAlphanumeric d = true := by
  cases lowers with
  | plain =>
    obtain rfl := List.mem_singleton.mp mem
    exact isAlphanumeric_lowered h
  | dotted => exact absurd rfl plain
  | finalSigma =>
    obtain rfl := List.mem_singleton.mp mem
    decide +kernel

theorem LowersTo.exists_alphanumeric (lowers : LowersTo c form) (h : isAlphanumeric c = true) :
    ∃ d ∈ form, isAlphanumeric d = true := by
  cases lowers with
  | plain => exact ⟨_, List.mem_singleton_self _, isAlphanumeric_lowered h⟩
  | dotted => exact ⟨'i', List.mem_cons_self, by decide +kernel⟩
  | finalSigma => exact ⟨_, List.mem_singleton_self _, by decide +kernel⟩

/-- Lowercasing a word that has a character leaves one. -/
theorem exists_mem_lowercase (all : ∀ c ∈ word, isAlphanumeric c = true) (ne : word ≠ []) :
    ∃ d ∈ lowercase word, isAlphanumeric d = true := by
  obtain ⟨c, mem⟩ := List.exists_mem_of_ne_nil word ne
  obtain ⟨form, lowers, kept⟩ := exists_form_of_mem mem []
  obtain ⟨d, inside, alphanumeric⟩ := lowers.exists_alphanumeric (all c mem)
  exact ⟨d, kept d inside, alphanumeric⟩

theorem underscore_notMem_lowercase (all : ∀ c ∈ word, isAlphanumeric c = true) :
    '_' ∉ lowercase word := by
  intro mem
  obtain ⟨c, source, form, lowers, inside⟩ := exists_of_mem_lowercaseAfter mem
  by_cases dotted : c = '\u0130'
  · subst dotted
    cases lowers with
    | plain _ plain => exact plain rfl
    | dotted => revert inside; decide
  · have alphanumeric := lowers.alphanumeric dotted (all c source) inside
    rw [isAlphanumeric_underscore] at alphanumeric
    cases alphanumeric

-- ---------------------------------------------------------------------------
-- Words of joined texts
-- ---------------------------------------------------------------------------

theorem words_intercalate (pieces : List (List Char)) :
    words (['_'].intercalate pieces) = pieces.flatMap words := by
  induction pieces with
  | nil => rfl
  | cons piece rest ih =>
    cases rest with
    | nil => rw [List.intercalate_singleton, List.flatMap_singleton]
    | cons next rest =>
      rw [List.intercalate_cons_cons, List.append_assoc, List.singleton_append,
        words_append_separator _ _ isAlphanumeric_underscore, ih, ← List.flatMap_cons]

theorem mem_intercalate {sep : List Char} (mem : d ∈ sep.intercalate pieces) :
    d ∈ sep ∨ ∃ piece ∈ pieces, d ∈ piece := by
  induction pieces with
  | nil => simp at mem
  | cons piece rest ih =>
    cases rest with
    | nil =>
      rw [List.intercalate_singleton] at mem
      exact .inr ⟨piece, List.mem_singleton_self _, mem⟩
    | cons next rest =>
      rw [List.intercalate_cons_cons, List.mem_append, List.mem_append] at mem
      obtain (first | between) | later := mem
      · exact .inr ⟨piece, List.mem_cons_self, first⟩
      · exact .inl between
      · obtain between | ⟨piece', mem, inside⟩ := ih later
        · exact .inl between
        · exact .inr ⟨piece', List.mem_cons_of_mem _ mem, inside⟩

/-- Nothing is left to lowercase in snake case. -/
theorem settled_of_mem_snakeCase (mem : d ∈ snakeCase cs) : Settled d := by
  obtain between | ⟨piece, listed, inside⟩ := mem_intercalate mem
  · obtain rfl := List.mem_singleton.mp between
    simp only [Settled]
    decide +kernel
  · obtain ⟨word, -, rfl⟩ := List.mem_map.mp listed
    obtain ⟨c, -, form, lowers, inside⟩ := exists_of_mem_lowercaseAfter inside
    exact lowers.settled inside

theorem lowercase_of_mem_words (mem : word ∈ words (snakeCase cs)) : lowercase word = word := by
  refine lowercaseAfter_settled (fun d inside => ?_) []
  exact settled_of_mem_snakeCase (exists_mem_words_iff.mp ⟨word, mem, inside⟩).1

/-- So a second pass only divides the words once more. -/
theorem snakeCase_snakeCase (cs : List Char) :
    snakeCase (snakeCase cs) = ['_'].intercalate (words (snakeCase cs)) := by
  have same : ∀ word ∈ words (snakeCase cs), lowercase word = id word :=
    fun word mem => lowercase_of_mem_words mem
  rw [snakeCase, List.map_congr_left same, List.map_id]

-- ---------------------------------------------------------------------------
-- Words that stay whole
-- ---------------------------------------------------------------------------

theorem wordsOfChunk_eq_singleton
    (unbroken : ∀ left b right, cs = left ++ b :: right → word ++ left ≠ [] →
      breaksBefore (caseAfter last left) b right = false) :
    wordsOfChunk last word cs = [word.reverse ++ cs] := by
  induction cs generalizing last word with
  | nil => simp [wordsOfChunk]
  | cons c rest ih =>
    have goesOn : (!word.isEmpty && breaksBefore last c rest) = false := by
      cases word with
      | nil => rfl
      | cons => exact unbroken [] c rest rfl (by simp)
    rw [wordsOfChunk, goesOn, if_neg Bool.false_ne_true, ih]
    · rw [List.reverse_cons, List.append_assoc, List.singleton_append]
    · intro left b right eq _
      exact unbroken (c :: left) b right (congrArg (c :: ·) eq) (by simp)

theorem words_eq_singleton_iff (all : ∀ c ∈ word, isAlphanumeric c = true) (ne : word ≠ []) :
    words word = [word]
      ↔ ∀ left a b right, word = left ++ a :: b :: right → ¬ StartsWord (left ++ [a]) b right := by
  rw [words_chunk all ne]
  constructor
  · rintro whole left a b right rfl
    rw [← wordAt_chunk left a b right, whole, wordAt, if_pos (by simp), wordAt, if_pos (by simp)]
    simp
  · intro free
    refine wordsOfChunk_eq_singleton fun left b right eq ne => ?_
    obtain rfl | ⟨left, a, rfl⟩ := List.eq_nil_or_concat' left
    · exact absurd rfl ne
    · rw [List.append_assoc] at eq
      rw [Bool.eq_false_iff, Ne, breaksBefore_caseAfter]
      exact free left a b right eq

/-- More of the text on both sides does not keep a word from starting. -/
theorem StartsWord.extend (starts : StartsWord left c right) (front back : List Char) :
    StartsWord (front ++ left) c (right ++ back) := by
  have cased {p : Char → Bool} (h : (lastCased? left).any p = true) :
      (lastCased? (front ++ left)).any p = true := by
    rw [lastCased?] at h
    rw [lastCased?, List.reverse_append, List.find?_append]
    cases found : left.reverse.find? fun c => isLowercase c || isUppercase c with
    | none =>
      rw [found] at h
      cases h
    | some d =>
      rw [found] at h
      exact h
  have ahead (h : right.head?.any isLowercase = true) :
      (right ++ back).head?.any isLowercase = true := by
    cases right with
    | nil => cases h
    | cons d right => exact h
  obtain ⟨upper, lower | ⟨acronym, follows⟩⟩ := starts
  · exact ⟨upper, .inl (cased lower)⟩
  · exact ⟨upper, .inr ⟨cased acronym, ahead follows⟩⟩

/-- Words are not divided further. -/
theorem words_of_mem_words (mem : word ∈ words cs) : words word = [word] := by
  rw [words_eq_singleton_iff (isAlphanumeric_of_mem_words mem) (ne_nil_of_mem_words mem)]
  rintro left a b right rfl starts
  obtain ⟨chunk, -, inside⟩ := List.mem_flatMap.mp mem
  obtain ⟨before, after, split⟩ := List.append_of_mem inside
  have spells : chunk = (before.flatten ++ left) ++ a :: b :: (right ++ after.flatten) := by
    have whole := flatten_wordsOfChunk none [] chunk
    rw [split, List.flatten_append, List.flatten_cons] at whole
    simpa using whole.symm
  have extended := starts.extend before.flatten after.flatten
  rw [← List.append_assoc, ← wordAt_chunk, ← spells, split, List.length_append, Nat.add_assoc,
    wordAt_append, wordAt_append, wordAt, if_pos (by simp), wordAt, if_pos (by simp)] at extended
  exact extended rfl

-- ---------------------------------------------------------------------------
-- Snake case again
-- ---------------------------------------------------------------------------

/-- A list that a function divides into parts stays the same only if no member is divided. -/
theorem eq_singleton_of_flatMap_eq {f : List Char → List (List Char)}
    (ne : ∀ piece ∈ pieces, f piece ≠ []) (same : pieces.flatMap f = pieces) :
    ∀ piece ∈ pieces, f piece = [piece] := by
  have grows {pieces : List (List Char)} (ne : ∀ piece ∈ pieces, f piece ≠ []) :
      pieces.length ≤ (pieces.flatMap f).length := by
    induction pieces with
    | nil => exact Nat.zero_le _
    | cons piece rest ih =>
      obtain ⟨first, ne⟩ := List.forall_mem_cons.mp ne
      have := List.length_pos_of_ne_nil first
      have := ih ne
      rw [List.flatMap_cons, List.length_append, List.length_cons]
      omega
  induction pieces with
  | nil => nofun
  | cons piece rest ih =>
    obtain ⟨first, others⟩ := List.forall_mem_cons.mp ne
    rw [List.flatMap_cons] at same
    have length := congrArg List.length same
    have := grows others
    rw [List.length_append, List.length_cons] at length
    match image : f piece with
    | [] => exact absurd image first
    | [only] =>
      rw [image, List.singleton_append, List.cons.injEq] at same
      obtain ⟨rfl, same⟩ := same
      exact List.forall_mem_cons.mpr ⟨image, ih others same⟩
    | _ :: _ :: _ =>
      rw [image, List.length_cons, List.length_cons] at length
      omega

theorem eq_of_intercalate_eq {pieces' : List (List Char)} (free : ∀ piece ∈ pieces, '_' ∉ piece)
    (free' : ∀ piece ∈ pieces', '_' ∉ piece) (ne : pieces ≠ []) (ne' : pieces' ≠ [])
    (same : ['_'].intercalate pieces = ['_'].intercalate pieces') : pieces = pieces' := by
  rw [← List.splitOn_intercalate '_' free ne, same, List.splitOn_intercalate '_' free' ne']

theorem underscore_notMem_word (mem : word ∈ words cs) : '_' ∉ word := by
  intro inside
  have alphanumeric := isAlphanumeric_of_mem_words mem _ inside
  rw [isAlphanumeric_underscore] at alphanumeric
  cases alphanumeric

theorem words_lowercase_ne_nil (mem : word ∈ words cs) : words (lowercase word) ≠ [] := by
  intro none
  obtain ⟨d, inside, alphanumeric⟩ :=
    exists_mem_lowercase (isAlphanumeric_of_mem_words mem) (ne_nil_of_mem_words mem)
  obtain ⟨piece, mem', -⟩ := exists_mem_words_iff.mpr ⟨inside, alphanumeric⟩
  rw [none] at mem'
  cases mem'

/-- A second pass leaves a text in snake case alone exactly when it divides no word. -/
theorem snakeCase_snakeCase_eq_iff (cs : List Char) :
    snakeCase (snakeCase cs) = snakeCase cs
      ↔ ∀ word ∈ words cs, words (lowercase word) = [lowercase word] := by
  rw [snakeCase_snakeCase, snakeCase, words_intercalate]
  constructor
  · intro same word mem
    have nonempty : ∀ piece ∈ (words cs).map lowercase, words piece ≠ [] :=
      List.forall_mem_map.mpr fun word mem => words_lowercase_ne_nil mem
    have listed : lowercase word ∈ (words cs).map lowercase := List.mem_map_of_mem mem
    have pieces : ((words cs).map lowercase).flatMap words = (words cs).map lowercase := by
      refine eq_of_intercalate_eq ?_ ?_ ?_ (List.ne_nil_of_mem listed) same
      · intro word' mem'
        obtain ⟨piece, -, mem'⟩ := List.mem_flatMap.mp mem'
        exact underscore_notMem_word mem'
      · exact List.forall_mem_map.mpr fun word' mem' =>
          underscore_notMem_lowercase (isAlphanumeric_of_mem_words mem')
      · exact fun none => nonempty _ listed (List.flatMap_eq_nil_iff.mp none _ listed)
    exact eq_singleton_of_flatMap_eq nonempty pieces _ listed
  · intro whole
    have each : ∀ piece ∈ (words cs).map lowercase, words piece = [piece] :=
      List.forall_mem_map.mpr whole
    rw [List.flatMap_congr each, List.flatMap_singleton']

/-- A second pass leaves a text in snake case alone if and only if the text had no dotted capital I
    and lowercasing its words leaves no character at which the rule starts a word. A third pass
    always leaves it alone. -/
theorem snakeCase_repeated (text : List Char) :
    (snakeCase (snakeCase text) = snakeCase text
      ↔ '\u0130' ∉ text ∧ ∀ word ∈ words text, ∀ left a b right,
          lowercase word = left ++ a :: b :: right → ¬ StartsWord (left ++ [a]) b right)
    ∧ snakeCase (snakeCase (snakeCase text)) = snakeCase (snakeCase text) := by
  have nonempty {word : List Char} (mem : word ∈ words text) : lowercase word ≠ [] := by
    obtain ⟨d, inside, -⟩ :=
      exists_mem_lowercase (isAlphanumeric_of_mem_words mem) (ne_nil_of_mem_words mem)
    exact List.ne_nil_of_mem inside
  rw [snakeCase_snakeCase_eq_iff, snakeCase_snakeCase_eq_iff]
  refine ⟨⟨fun whole => ?_, fun ⟨plain, free⟩ word mem => ?_⟩, fun word mem => ?_⟩
  · have alphanumeric {word : List Char} (mem : word ∈ words text) :
        ∀ d ∈ lowercase word, isAlphanumeric d = true :=
      isAlphanumeric_of_mem_words (by rw [whole word mem]; exact List.mem_singleton_self _)
    refine ⟨fun dotted => ?_, fun word mem =>
      (words_eq_singleton_iff (alphanumeric mem) (nonempty mem)).mp (whole word mem)⟩
    obtain ⟨word, mem, inside⟩ := exists_mem_words_iff.mpr ⟨dotted, by decide +kernel⟩
    obtain ⟨form, lowers, left⟩ := exists_form_of_mem inside []
    cases lowers with
    | plain _ plain => exact plain rfl
    | dotted =>
      have dot := alphanumeric mem '\u0307' (left _ (by decide))
      exact absurd dot (by decide +kernel)
  · refine (words_eq_singleton_iff (fun d inside => ?_) (nonempty mem)).mpr (free word mem)
    obtain ⟨c, source, form, lowers, inside⟩ := exists_of_mem_lowercaseAfter inside
    refine lowers.alphanumeric ?_ (isAlphanumeric_of_mem_words mem c source) inside
    rintro rfl
    exact plain (exists_mem_words_iff.mp ⟨word, mem, source⟩).1
  · rw [lowercase_of_mem_words mem]
    exact words_of_mem_words mem

/-- The dot that the capital leaves behind is a separator, and a capital without a lowercase form
    starts a word once a lowercase letter stands in front of it. -/
theorem snakeCase_divided :
    snakeCase (snakeCase "\u0130".toList) ≠ snakeCase "\u0130".toList
      ∧ snakeCase (snakeCase "A\u03D2".toList) ≠ snakeCase "A\u03D2".toList := by
  decide +kernel

end AliasExpansion.Text
