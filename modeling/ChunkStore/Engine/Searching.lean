import ChunkStore.Engine.Basic
import ChunkStore.Metadata.Constraint
import ChunkStore.Query.Ranking

/-!
# Searching

A search goes through the ranking of all entries and keeps the chunks that satisfy the constraints,
until it has as many as asked for.  An entry that is no chunk fails the search if it is reached.
Among entries of one score those of larger segments come first.
-/

set_option autoImplicit false

namespace ChunkStore.Engine

open ChunkStore.Index (DecodeFault Entry Segment)

/-- Segments, larger ones first; segments of one size keep their order. -/
def bySize (segments : List Segment) : List Segment :=
  segments.mergeSort fun a b => decide (b.length ≤ a.length)

/-- All entries that match a query, best first. -/
def ranking (engine : Engine) (text : String) : List (Entry × Binary32) :=
  Query.rank engine.stopWords text (bySize engine.segments).flatten

/-- The first `limit` chunks of a ranking that satisfy constraints. -/
def scan (constraints : Constraints) : Nat → List (Entry × Binary32) → Except DecodeFault (List Hit)
  | 0, _ => .ok []
  | _, [] => .ok []
  | limit + 1, (entry, score) :: rest => do
    let chunk ← entry.toChunk
    if Metadata.satisfies chunk.metadata constraints then
      return ⟨chunk, score⟩ :: (← scan constraints limit rest)
    else scan constraints (limit + 1) rest

/-- The entries to look at: all of them if there are constraints, else as many as asked for. -/
def candidates (engine : Engine) (text : String) (limit : Nat) (constraints : Constraints) :
    List (Entry × Binary32) :=
  (engine.ranking text).take
    (if constraints.isEmpty then limit else engine.entries.length)

/-- The best chunks for a query that satisfy constraints, best first. -/
def search (engine : Engine) (text : String) (limit : Nat) (constraints : Constraints) :
    Except DecodeFault (List Hit) :=
  if limit = 0 ∨ engine.entries.isEmpty then .ok []
  else scan constraints limit (engine.candidates text limit constraints)

end ChunkStore.Engine
