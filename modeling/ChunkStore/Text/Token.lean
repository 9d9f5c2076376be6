import ChunkStore.Text.Alphanumeric
import ChunkStore.Text.Lowercase

/-!
# Tokens of a text

The tokens of a text are its maximal runs of letters and digits, in lower case.  Every run takes a
position; runs whose lower-case form is a stop word are left out, so positions may have gaps.
-/

set_option autoImplicit false

namespace ChunkStore.Text

/-- A word of a text: its lower-case form, its number among the runs, and the bytes that it covers.
-/
structure Token where
  word : String
  position : Nat
  start : Nat
  stop : Nat
deriving DecidableEq, Repr

/-- The number of bytes of characters. -/
def byteSize (chars : List Char) : Nat :=
  chars.foldl (fun size c => size + c.utf8Size) 0

/-- The maximal runs of letters and digits, each with its first byte, for a text that starts at
`offset`. -/
def runs (offset : Nat) : List Char → List (Nat × List Char)
  | [] => []
  | c :: rest =>
    if isAlphanumeric c then
      let run := c :: rest.takeWhile isAlphanumeric
      (offset, run) :: runs (offset + byteSize run) (rest.dropWhile isAlphanumeric)
    else runs (offset + c.utf8Size) rest
termination_by chars => chars.length
decreasing_by
  · have := (List.dropWhile_suffix (l := rest) isAlphanumeric).length_le
    simp only [List.length_cons]
    omega
  · simp

/-- All runs of a text as tokens. -/
def allTokens (text : String) : List Token :=
  (runs 0 text.toList).mapIdx fun position (start, run) =>
    ⟨String.ofList (lower run), position, start, start + byteSize run⟩

/-- The tokens of a text that are no stop words. -/
def tokens (stopWords : List String) (text : String) : List Token :=
  (allTokens text).filter fun token => !stopWords.contains token.word

end ChunkStore.Text
