import ChunkStore.Chunk
import ChunkStore.Document
import ChunkStore.Metadata.Constraint

/-!
# Databases

A database is a handle on an engine.  It passes calls on, gives each failure the kind of the call
that it came from, and answers for the order of results: they fall by score, equal scores keep the
engine's order, and there are at most as many as asked for.
-/

set_option autoImplicit false

namespace ChunkStore

/-- What a database needs of the engine behind it.  `σ` is all that calls read and change; a failing
call describes its failure. -/
class Retrieval (σ : Type) where
  insert : Document → σ → Except String Unit × σ
  query : String → Nat → Constraints → σ → Except String (List Hit) × σ
  delete : String → Bool → σ → Except String Unit × σ
  sources : σ → Except String (List Source) × σ
  save : String → σ → Except String Unit × σ

namespace Results

/-- Whether a hit stands before another or with it: higher scores come first. -/
def precedes (a b : Hit) : Bool :=
  (b.score.compareTotal a.score).isLE

/-- The failure of a hit whose score is no number. -/
def scoreFailure (hit : Hit) : Failure :=
  .query ("engine returned score " ++ hit.score.nonFiniteText ++ " for chunk " ++
    Numeral.text hit.chunk.id.toNat)

/-- The best of an engine's hits, unless one of them has no score. -/
def best (topK : Nat) (hits : List Hit) : Except Failure Results :=
  match hits.find? fun hit => !hit.score.isFinite with
  | some hit => .error (scoreFailure hit)
  | none => .ok ⟨(hits.mergeSort precedes).take topK⟩

end Results

namespace Database

variable {σ : Type} [Retrieval σ]

/-- Inserts a document as one unit. -/
def insert (document : Document) (state : σ) : Except Failure Unit × σ :=
  let (result, state) := Retrieval.insert document state
  (result.mapError .insert, state)

/-- The best results for a query among the chunks that satisfy constraints.  Asking for none does
not reach the engine. -/
def query (text : String) (topK : Nat) (constraints : Constraints) (state : σ) :
    Except Failure Results × σ :=
  if topK = 0 then (.ok ⟨[]⟩, state)
  else
    match Retrieval.query text topK constraints state with
    | (.error description, state) => (.error (.query description), state)
    | (.ok hits, state) => (Results.best topK hits, state)

/-- Deletes a document, or all its versions but the latest. -/
def delete (docId : String) (keepLatest : Bool) (state : σ) : Except Failure Unit × σ :=
  let (result, state) := Retrieval.delete docId keepLatest state
  (result.mapError .delete, state)

/-- All stored document versions in the order of listings. -/
def sources (state : σ) : Except Failure (List Source) × σ :=
  let (result, state) := Retrieval.sources state
  ((result.map Source.sort).mapError .sources, state)

/-- Saves the stored state to a path. -/
def save (path : String) (state : σ) : Except Failure Unit × σ :=
  let (result, state) := Retrieval.save path state
  (result.mapError .save, state)

end Database

end ChunkStore
