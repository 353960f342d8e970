-- SUMMARY: The words of a text: nothing is lost, and where one word ends and the next begins.
import AliasExpansion.Text.Words
import Mathlib.Data.List.Basic
import Mathlib.Data.List.Induction

/-!
# Where words break

The words of a text hold its characters in their order, without the separators (`flatten_words`). A
separator keeps the words on both sides of it apart (`words_append_separator`), so every chunk
between separators is divided on its own. Inside a chunk the division remembers the current word and
the case of the last cased character, and a new word starts exactly where the rule `StartsWord` says
(`words_exact`).
-/

namespace AliasExpansion.Text

variable {cs word left right chunk front back : List Char} {last : Option LetterCase} {a b c : Char}

-- ---------------------------------------------------------------------------
-- Separators
-- ---------------------------------------------------------------------------

/-- What stands between words: the characters that are no word characters, and the underscore. -/
def isSeparator (c : Char) : Bool :=
  !isWordChar c || c == '_'

theorem isAlphanumeric_underscore : isAlphanumeric '_' = false := by
  decide +kernel

theorem isSeparator_eq (c : Char) : isSeparator c = !isAlphanumeric c := by
  by_cases underscore : c = '_'
  · rw [underscore, isAlphanumeric_underscore]
    decide
  · simp [isSeparator, isWordChar, beq_false_of_ne underscore]

-- ---------------------------------------------------------------------------
-- Chunks
-- ---------------------------------------------------------------------------

theorem flatten_chunksFrom (chunk cs : List Char) :
    (chunksFrom chunk cs).flatten = chunk.reverse ++ cs.filter isAlphanumeric := by
  induction cs generalizing chunk with
  | nil => cases chunk <;> simp [chunksFrom]
  | cons c rest ih =>
    rw [chunksFrom]
    split
    · next kept => rw [ih, List.filter_cons_of_pos kept, List.reverse_cons, List.append_assoc,
        List.singleton_append]
    · next dropped =>
      rw [List.filter_cons_of_neg dropped]
      cases chunk <;> simp [ih]

theorem ne_nil_of_mem_chunksFrom (h : chunk ∈ chunksFrom word cs) : chunk ≠ [] := by
  induction cs generalizing word with
  | nil => cases word <;> simp_all [chunksFrom]
  | cons c rest ih =>
    rw [chunksFrom] at h
    split at h
    · exact ih h
    · cases word with
      | nil => exact ih h
      | cons d word =>
        obtain rfl | later := List.mem_cons.mp h
        · simp
        · exact ih later

theorem chunksFrom_separator (chunk cs rest : List Char) (separator : isAlphanumeric c = false) :
    chunksFrom chunk (cs ++ c :: rest) = chunksFrom chunk cs ++ chunksFrom [] rest := by
  induction cs generalizing chunk with
  | nil => cases chunk <;> simp [chunksFrom, separator]
  | cons d cs ih =>
    rw [List.cons_append, chunksFrom, chunksFrom]
    split
    · exact ih _
    · cases chunk <;> simp [ih]

theorem chunksFrom_chunk (all : ∀ c ∈ cs, isAlphanumeric c = true) (ne : chunk ++ cs ≠ []) :
    chunksFrom chunk cs = [chunk.reverse ++ cs] := by
  induction cs generalizing chunk with
  | nil => cases chunk <;> simp_all [chunksFrom]
  | cons c rest ih =>
    rw [List.forall_mem_cons] at all
    rw [chunksFrom, if_pos all.1, ih all.2 (by simp), List.reverse_cons, List.append_assoc,
      List.singleton_append]

-- ---------------------------------------------------------------------------
-- The words of a chunk
-- ---------------------------------------------------------------------------

theorem flatten_wordsOfChunk (last : Option LetterCase) (word cs : List Char) :
    (wordsOfChunk last word cs).flatten = word.reverse ++ cs := by
  induction cs generalizing last word with
  | nil => simp [wordsOfChunk]
  | cons c rest ih =>
    rw [wordsOfChunk]
    split <;> simp [ih]

/-- The current word goes on at least to where it has got. -/
theorem wordsOfChunk_first (last : Option LetterCase) (word cs : List Char) :
    ∃ more others, wordsOfChunk last word cs = (word.reverse ++ more) :: others := by
  induction cs generalizing last word with
  | nil => exact ⟨[], [], by simp [wordsOfChunk]⟩
  | cons c rest ih =>
    rw [wordsOfChunk]
    split
    · exact ⟨[], _, by rw [List.append_nil]⟩
    · obtain ⟨more, others, eq⟩ := ih (letterCase? c <|> last) (c :: word)
      exact ⟨c :: more, others, by rw [eq]; simp⟩

theorem ne_nil_of_mem_wordsOfChunk (h : chunk ∈ wordsOfChunk last word cs)
    (ne : word ++ cs ≠ []) : chunk ≠ [] := by
  induction cs generalizing last word with
  | nil => simp_all [wordsOfChunk]
  | cons c rest ih =>
    rw [wordsOfChunk] at h
    split at h
    · next breaks =>
      obtain rfl | later := List.mem_cons.mp h
      · simp only [Bool.and_eq_true, Bool.not_eq_true', List.isEmpty_eq_false_iff] at breaks
        simpa using breaks.1
      · exact ih later (by simp)
    · exact ih h (by simp)

/-- The case of the last cased character, after some characters more. -/
def caseAfter (last : Option LetterCase) (cs : List Char) : Option LetterCase :=
  cs.foldl (fun last c => letterCase? c <|> last) last

/-- The words of a chunk whose first characters are read: some are finished, and the current one
    holds the rest of these characters. -/
theorem wordsOfChunk_append (last : Option LetterCase) (word left rest : List Char) :
    ∃ before current,
      wordsOfChunk last word (left ++ rest)
        = before ++ wordsOfChunk (caseAfter last left) current rest
      ∧ before.flatten ++ current.reverse = word.reverse ++ left
      ∧ (word ++ left ≠ [] → current ≠ []) := by
  induction left generalizing last word with
  | nil => exact ⟨[], word, rfl, by simp, by simp⟩
  | cons c left ih =>
    rw [List.cons_append, wordsOfChunk]
    split
    · obtain ⟨before, current, eq, spells, ne⟩ := ih (letterCase? c <|> last) [c]
      refine ⟨word.reverse :: before, current, by rw [eq]; rfl, ?_, fun _ => ne (by simp)⟩
      rw [List.flatten_cons, List.append_assoc, spells]
      rfl
    · obtain ⟨before, current, eq, spells, ne⟩ := ih (letterCase? c <|> last) (c :: word)
      exact ⟨before, current, eq, by rw [spells]; simp, fun _ => ne (by simp)⟩

-- ---------------------------------------------------------------------------
-- Words of texts
-- ---------------------------------------------------------------------------

/-- The words hold the characters of a text in their order, without the separators. -/
theorem flatten_words (cs : List Char) : (words cs).flatten = cs.filter isAlphanumeric := by
  have chunks (chunks : List (List Char)) :
      (chunks.flatMap (wordsOfChunk none [])).flatten = chunks.flatten := by
    induction chunks with
    | nil => rfl
    | cons chunk chunks ih =>
      rw [List.flatMap_cons, List.flatten_append, flatten_wordsOfChunk, ih]
      rfl
  rw [words, chunks, flatten_chunksFrom]
  rfl

theorem exists_mem_words_iff :
    (∃ word ∈ words cs, c ∈ word) ↔ c ∈ cs ∧ isAlphanumeric c = true := by
  rw [← List.mem_flatten, flatten_words, List.mem_filter]

theorem ne_nil_of_mem_words (h : word ∈ words cs) : word ≠ [] := by
  obtain ⟨chunk, mem, inside⟩ := List.mem_flatMap.mp h
  exact ne_nil_of_mem_wordsOfChunk inside (ne_nil_of_mem_chunksFrom mem)

theorem isAlphanumeric_of_mem_words (h : word ∈ words cs) :
    ∀ c ∈ word, isAlphanumeric c = true :=
  fun _ mem => (exists_mem_words_iff.mp ⟨word, h, mem⟩).2

@[simp] theorem words_nil : words [] = [] :=
  rfl

/-- A separator keeps the words on both sides of it apart. -/
theorem words_append_separator (cs rest : List Char) (separator : isAlphanumeric c = false) :
    words (cs ++ c :: rest) = words cs ++ words rest := by
  rw [words, words, words, chunksFrom_separator _ _ _ separator, List.flatMap_append]

theorem words_chunk (all : ∀ c ∈ chunk, isAlphanumeric c = true) (ne : chunk ≠ []) :
    words chunk = wordsOfChunk none [] chunk := by
  have whole : chunksFrom [] chunk = [chunk] := chunksFrom_chunk all (by simpa using ne)
  rw [words, whole, List.flatMap_singleton]

/-- `chunk` is free of separators, and stands between separators or the ends of the text. -/
structure ChunkAt (front chunk back : List Char) : Prop where
  free : ∀ c ∈ chunk, isSeparator c = false
  front : ∀ c ∈ front.getLast?, isSeparator c = true
  back : ∀ c ∈ back.head?, isSeparator c = true

/-- Every chunk is divided into words on its own. -/
theorem ChunkAt.words_eq (h : ChunkAt front chunk back) (ne : chunk ≠ []) :
    words (front ++ chunk ++ back) = words front ++ (wordsOfChunk none [] chunk ++ words back) := by
  have all : ∀ c ∈ chunk, isAlphanumeric c = true := by
    simpa only [isSeparator_eq, Bool.not_eq_false'] using h.free
  have behind : words (chunk ++ back) = wordsOfChunk none [] chunk ++ words back := by
    obtain _ | ⟨c, rest⟩ := back
    · rw [List.append_nil, words_chunk all ne, words_nil, List.append_nil]
    · have separator : isAlphanumeric c = false := by
        simpa only [isSeparator_eq, Bool.not_eq_true'] using h.back c rfl
      have alone : words (c :: rest) = words rest := words_append_separator [] rest separator
      rw [words_append_separator _ _ separator, words_chunk all ne, alone]
  obtain rfl | ⟨before, c, rfl⟩ := List.eq_nil_or_concat' front
  · rw [List.nil_append, behind]
    rfl
  · have separator : isAlphanumeric c = false := by
      simpa only [isSeparator_eq, Bool.not_eq_true'] using h.front c (by simp)
    have alone : words (before ++ [c]) = words before ++ words [] :=
      words_append_separator before [] separator
    rw [List.append_assoc, List.append_assoc, List.singleton_append,
      words_append_separator _ _ separator, behind, alone, words_nil, List.append_nil]

-- ---------------------------------------------------------------------------
-- The rule
-- ---------------------------------------------------------------------------

/-- The last cased character. Uppercase and lowercase characters are cased, while titlecase ones are
    neither. -/
def lastCased? (cs : List Char) : Option Char :=
  cs.reverse.find? fun c => isLowercase c || isUppercase c

/-- A new word starts at `c`, in a chunk with `before` in front of it and `after` behind it: it is
    uppercase, and the last cased character before it is lowercase, or is uppercase while a
    lowercase character follows. -/
def StartsWord (before : List Char) (c : Char) (after : List Char) : Prop :=
  isUppercase c = true ∧
    ((lastCased? before).any isLowercase = true ∨
      (lastCased? before).any isUppercase = true ∧ after.head?.any isLowercase = true)

instance (before : List Char) (c : Char) (after : List Char) :
    Decidable (StartsWord before c after) :=
  inferInstanceAs (Decidable (_ ∧ _))

theorem lastCased?_concat (cs : List Char) (c : Char) :
    lastCased? (cs ++ [c])
      = if isLowercase c || isUppercase c then some c else lastCased? cs := by
  rw [lastCased?, List.reverse_append, List.reverse_singleton, List.singleton_append,
    List.find?_cons]
  cases isLowercase c || isUppercase c <;> rfl

theorem caseAfter_none (cs : List Char) :
    caseAfter none cs = (lastCased? cs).bind letterCase? := by
  induction cs using List.reverseRecOn with
  | nil => rfl
  | append_singleton cs c ih =>
    have step : caseAfter none (cs ++ [c]) = (letterCase? c <|> caseAfter none cs) := by
      simp [caseAfter]
    rw [step, ih, lastCased?_concat]
    cases lower : isLowercase c <;> cases upper : isUppercase c <;> simp [letterCase?, lower, upper]

theorem breaksBefore_caseAfter (before : List Char) (c : Char) (after : List Char) :
    breaksBefore (caseAfter none before) c after = true ↔ StartsWord before c after := by
  rw [caseAfter_none, breaksBefore, StartsWord]
  cases cased : lastCased? before with
  | none => simp
  | some d =>
    have isCased : isLowercase d = true ∨ isUppercase d = true := by
      simpa using List.find?_some cased
    cases lower : isLowercase d <;> simp_all [letterCase?]

-- ---------------------------------------------------------------------------
-- Words by number
-- ---------------------------------------------------------------------------

/-- The number of the word that holds the character at `place`, counted through all words. -/
def wordAt : List (List Char) → (place : Nat) → Nat
  | [], _ => 0
  | word :: others, place =>
    if place < word.length then 0 else wordAt others (place - word.length) + 1

theorem wordAt_append (before after : List (List Char)) (place : Nat) :
    wordAt (before ++ after) (before.flatten.length + place)
      = before.length + wordAt after place := by
  induction before with
  | nil => simp
  | cons word before ih =>
    rw [List.cons_append, List.flatten_cons, List.length_append, wordAt, if_neg (by omega),
      show word.length + before.flatten.length + place - word.length
        = before.flatten.length + place by omega, ih, List.length_cons]
    omega

theorem wordAt_append_of_lt {before : List (List Char)} {place : Nat}
    (lt : place < before.flatten.length) (after : List (List Char)) :
    wordAt (before ++ after) place = wordAt before place := by
  induction before generalizing place with
  | nil => simp at lt
  | cons word before ih =>
    rw [List.flatten_cons, List.length_append] at lt
    rw [List.cons_append, wordAt, wordAt]
    split
    · rfl
    · rw [ih (by omega)]

/-- The characters that the current word already has are in the first word. -/
theorem wordAt_wordsOfChunk {place : Nat} (lt : place < word.length) (cs : List Char) :
    wordAt (wordsOfChunk last word cs) place = 0 := by
  obtain ⟨more, others, eq⟩ := wordsOfChunk_first last word cs
  rw [eq, wordAt, if_pos]
  simp only [List.length_append, List.length_reverse]
  omega

/-- Two neighbours in a chunk are in different words if and only if the rule separates them. -/
theorem wordAt_chunk (left : List Char) (a b : Char) (right : List Char) :
    wordAt (wordsOfChunk none [] (left ++ a :: b :: right)) left.length
        ≠ wordAt (wordsOfChunk none [] (left ++ a :: b :: right)) (left.length + 1)
      ↔ StartsWord (left ++ [a]) b right := by
  obtain ⟨before, current, eq, spells, ne⟩ :=
    wordsOfChunk_append none [] (left ++ [a]) (b :: right)
  have length : left.length + 1 = before.flatten.length + current.length := by
    simpa using (congrArg List.length spells).symm
  have nonempty : 0 < current.length := List.length_pos_of_ne_nil (ne (by simp))
  have inside : left.length = before.flatten.length + (current.length - 1) := by omega
  rw [List.append_assoc, List.singleton_append] at eq
  rw [length, inside, eq, wordAt_append, wordAt_append, wordAt_wordsOfChunk (by omega),
    ← breaksBefore_caseAfter]
  cases breaks : breaksBefore (caseAfter none (left ++ [a])) b right with
  | true =>
    rw [wordsOfChunk, breaks, if_pos (by simpa using ne (by simp)), wordAt, if_neg (by simp)]
    simp
  | false =>
    rw [wordsOfChunk, breaks, if_neg (by simp), wordAt_wordsOfChunk (by simp)]
    simp

/-- Words are exactly what the rule makes of a text, and nothing is lost: they are not empty and
    free of separators, and hold the other characters in their order. Two neighbours in a chunk
    between separators are in different words if and only if the rule starts a word at the
    second. -/
theorem words_exact :
    (∀ text, (∀ word ∈ words text, word ≠ [] ∧ ∀ c ∈ word, isSeparator c = false) ∧
      (words text).flatten = text.filter (!isSeparator ·)) ∧
    ∀ front left a b right back, ChunkAt front (left ++ a :: b :: right) back →
      let found := words (front ++ (left ++ a :: b :: right) ++ back)
      let place := (front ++ left).countP (!isSeparator ·)
      (wordAt found place ≠ wordAt found (place + 1) ↔ StartsWord (left ++ [a]) b right) := by
  have kept : (fun c => !isSeparator c) = isAlphanumeric := by
    funext c
    rw [isSeparator_eq, Bool.not_not]
  refine ⟨fun text => ⟨fun word mem => ⟨ne_nil_of_mem_words mem, fun c inside => ?_⟩, ?_⟩, ?_⟩
  · rw [isSeparator_eq, isAlphanumeric_of_mem_words mem c inside, Bool.not_true]
  · rw [kept, flatten_words]
  · intro front left a b right back chunk
    have free : left.countP isAlphanumeric = left.length := by
      refine List.countP_eq_length.mpr fun c mem => ?_
      have apart := chunk.free c (List.mem_append_left _ mem)
      rwa [isSeparator_eq, Bool.not_eq_false'] at apart
    have place : (front ++ left).countP isAlphanumeric
        = (words front).flatten.length + left.length := by
      rw [List.countP_append, free, flatten_words, List.countP_eq_length_filter]
    have within : left.length + 1
        < (wordsOfChunk none [] (left ++ a :: b :: right)).flatten.length := by
      simp [flatten_wordsOfChunk]
    simp only [kept]
    rw [chunk.words_eq (by simp), place, wordAt_append, Nat.add_assoc, wordAt_append,
      wordAt_append_of_lt within, wordAt_append_of_lt (Nat.lt_of_succ_lt within), Ne,
      Nat.add_left_cancel_iff]
    exact wordAt_chunk left a b right

/-- An acronym in front of a word, in the second chunk of a text. -/
theorem words_exact_acronym :
    ChunkAt "x-".toList ("HTT".toList ++ 'P' :: 'S' :: "erver2Go".toList) [] ∧
      wordAt (words "x-HTTPServer2Go".toList) 4 ≠ wordAt (words "x-HTTPServer2Go".toList) 5 := by
  have free : ("HTT".toList ++ 'P' :: 'S' :: "erver2Go".toList).all (!isSeparator ·) = true := by
    decide +kernel
  have chunk : ChunkAt "x-".toList ("HTT".toList ++ 'P' :: 'S' :: "erver2Go".toList) [] := by
    refine ⟨by simpa only [List.all_eq_true, Bool.not_eq_true'] using free, ?_, nofun⟩
    rintro _ ⟨⟩
    decide
  refine ⟨chunk, (words_exact.2 _ _ _ _ _ _ chunk).mpr ?_⟩
  decide

end AliasExpansion.Text
