-- SUMMARY: Splitting a text into words and joining them again in a letter case style.
import AliasExpansion.Text.Case
import AliasExpansion.Text.Word

/-!
# Words and case styles

Words break at characters that are not alphanumeric, between a lowercase and an uppercase
letter, and before the last capital of an acronym that a lowercase letter follows. Digits stay
with the word they follow. The case styles `snakeCase`, `pascalCase` and `camelCase` rejoin the
words.
-/

namespace AliasExpansion.Text

inductive LetterCase where
  | lower
  | upper
deriving DecidableEq, Repr

def letterCase? (c : Char) : Option LetterCase :=
  if isLowercase c then some .lower else if isUppercase c then some .upper else none

/-- Whether a new word starts at `c`, given the case of the last cased character before it in the
    chunk and the characters after it. -/
def breaksBefore (last : Option LetterCase) (c : Char) (rest : List Char) : Bool :=
  isUppercase c &&
    (last == some .lower || (last == some .upper && rest.head?.any isLowercase))

/-- The words of a chunk whose current word, reversed, is `word`. -/
def wordsOfChunk (last : Option LetterCase) (word : List Char) : List Char → List (List Char)
  | [] => [word.reverse]
  | c :: rest =>
    let next := letterCase? c <|> last
    if !word.isEmpty && breaksBefore last c rest then
      word.reverse :: wordsOfChunk next [c] rest
    else
      wordsOfChunk next (c :: word) rest

/-- The maximal runs of alphanumeric characters; `chunk` is the current one, reversed. -/
def chunksFrom (chunk : List Char) : List Char → List (List Char)
  | [] => if chunk.isEmpty then [] else [chunk.reverse]
  | c :: rest =>
    if isAlphanumeric c then chunksFrom (c :: chunk) rest
    else if chunk.isEmpty then chunksFrom [] rest
    else chunk.reverse :: chunksFrom [] rest

def words (cs : List Char) : List (List Char) :=
  (chunksFrom [] cs).flatMap (wordsOfChunk none [])

-- ---------------------------------------------------------------------------
-- Case styles
-- ---------------------------------------------------------------------------

def capitalize (cs : List Char) : List Char :=
  uppercase (cs.take 1) ++ lowercase (cs.drop 1)

def snakeCase (cs : List Char) : List Char :=
  ['_'].intercalate ((words cs).map lowercase)

def pascalCase (cs : List Char) : List Char :=
  (words cs).flatMap capitalize

def camelCase (cs : List Char) : List Char :=
  match words cs with
  | [] => []
  | first :: rest => lowercase first ++ rest.flatMap capitalize

example : snakeCase "HTTPServer2Go".toList = "http_server2_go".toList := by decide
example : camelCase "max_size".toList = "maxSize".toList := by decide

end AliasExpansion.Text
