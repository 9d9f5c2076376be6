import ChunkStore.Metadata.Value
import ChunkStore.Number.Binary32

/-!
# Chunks, sources and results

What a store hands out: chunks with the document version that they belong to, the list of stored
document versions, and ranked hits.
-/

set_option autoImplicit false

namespace ChunkStore

/-- A stored piece of a document. -/
structure Chunk where
  id : UInt64
  text : String
  document : String
  docId : String
  version : UInt32
  metadata : Metadata
deriving DecidableEq

/-- One stored version of a document, with the name under which it was inserted. -/
structure Source where
  document : String
  docId : String
  version : UInt32
deriving DecidableEq

namespace Source

/-- The order of listings: by name, then by document id, then by version. -/
def compare (a b : Source) : Ordering :=
  (Ord.compare a.document b.document).then
    ((Ord.compare a.docId b.docId).then (Ord.compare a.version b.version))

/-- Sorts a listing; equal sources keep their order. -/
def sort (sources : List Source) : List Source :=
  sources.mergeSort fun a b => (a.compare b).isLE

end Source

/-- A chunk with its score; higher is better. -/
structure Hit where
  chunk : Chunk
  score : Binary32
deriving DecidableEq

/-- The hits of one query, best first. -/
structure Results where
  hits : List Hit
deriving DecidableEq

namespace Results

/-- The number of hits. -/
def size (results : Results) : Nat :=
  results.hits.length

/-- The hit at a position. -/
def get (results : Results) (index : Nat) : Except Failure Hit :=
  match results.hits[index]? with
  | some hit => .ok hit
  | none => .error (.indexOutOfRange index results.size)

/-- The metadata of the chunk at a position. -/
def metadataOf (results : Results) (index : Nat) : Except Failure Metadata :=
  (results.get index).map (·.chunk.metadata)

end Results

end ChunkStore
