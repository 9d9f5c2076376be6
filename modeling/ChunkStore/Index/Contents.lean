import ChunkStore.Index.Record
import ChunkStore.Text.Token

/-!
# The contents of an index

An index consists of segments, which are written once and never changed: a removal that takes some
of the entries of a segment puts another segment in its place.  An entry is a record together with
the words under which it is found.  Changes are staged first and then applied together, in the order
in which they were staged.
-/

set_option autoImplicit false

namespace ChunkStore.Index

/-- The longest term that is indexed, in bytes; longer ones are left out. -/
def longestTerm : Nat :=
  65530

/-- Whether a term is short enough to be indexed. -/
def isIndexed (term : String) : Bool :=
  term.utf8ByteSize ≤ longestTerm

/-- A record with the words of its text and their positions. -/
structure Entry where
  record : Record
  words : List (Nat × String)
deriving DecidableEq

namespace Entry

/-- The words of several texts: the positions of a text start one after the gap behind the text
before it, and words that are too long are left out. -/
def wordsOf (stopWords : List String) (texts : List String) : List (Nat × String) :=
  let step (state : Nat × List (Nat × String)) (text : String) : Nat × List (Nat × String) :=
    let (base, words) := state
    let found := (Text.tokens stopWords text).filter fun token => isIndexed token.word
    let placed := found.map fun token => (base + token.position, token.word)
    ((placed.map fun word => word.1 + 1).foldl max base + 1, words ++ placed)
  (texts.foldl step (0, [])).2

/-- The texts among the values of a field. -/
def textsOf (record : Record) (field : Field) : List String :=
  (record.values (FieldNumbers.standard.of field)).filterMap fun
    | .text s => some s
    | .number _ => none

/-- The entry of a record, indexed without the stop words. -/
def ofRecord (stopWords : List String) (record : Record) : Entry :=
  ⟨record, wordsOf stopWords (textsOf record .text)⟩

/-- The entry of a chunk. -/
def ofChunk (stopWords : List String) (chunk : Chunk) : Entry :=
  ofRecord stopWords (Record.ofChunk .standard chunk)

/-- Whether a text is a value of a field that is indexed as a whole. -/
def hasTerm (entry : Entry) (field : Field) (term : String) : Bool :=
  isIndexed term && (textsOf entry.record field).contains term

/-- Whether a number is a value of the chunk id. -/
def hasChunkId (entry : Entry) (id : UInt64) : Bool :=
  (entry.record.values FieldNumbers.standard.chunkId).contains (.number id)

/-- The chunk of an entry. -/
def toChunk (entry : Entry) : Except DecodeFault Chunk :=
  entry.record.toChunk .standard

end Entry

/-- Entries that were written together. -/
abbrev Segment : Type :=
  List Entry

/-- A change that waits for a commit. -/
inductive Change where
  | add (entry : Entry)
  | removeKey (key : String)
deriving DecidableEq

namespace Change

/-- The entries without a version key. -/
def without (key : String) (entries : List Entry) : List Entry :=
  entries.filter fun entry => !entry.hasTerm .versionKey key

/-- Applies a change to the segments and to the entries added so far. -/
def apply (state : List Segment × List Entry) : Change → List Segment × List Entry
  | .add entry => (state.1, state.2 ++ [entry])
  | .removeKey key => (state.1.map (without key), without key state.2)

/-- The segments after changes: what is left of each, then the entries that were added; segments
without entries vanish. -/
def applyAll (changes : List Change) (segments : List Segment) : List Segment :=
  let (kept, added) := changes.foldl apply (segments, [])
  (kept ++ [added]).filter fun segment => !segment.isEmpty

end Change

end ChunkStore.Index
