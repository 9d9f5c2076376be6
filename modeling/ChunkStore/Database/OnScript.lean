import ChunkStore.Database.Basic

/-!
# Databases on a script

A script answers calls with what it was given, whatever they ask, and records them.  Databases on
scripts show what a database does by itself.
-/

set_option autoImplicit false

namespace ChunkStore

/-- A call that reached an engine. -/
inductive RetrievalCall where
  | open (path : String)
  | insert (document : Document)
  | query (text : String) (limit : Nat) (keys : List String)
  | delete (docId : String) (keepLatest : Bool)
  | sources
  | save (path : String)
deriving DecidableEq

/-- The answers that a script gives and the calls that it got, the last one first. -/
structure Script where
  failure : List String
  hits : List Hit
  listing : List Source
  calls : List RetrievalCall

namespace Script

/-- Records a call and fails or gives an answer. -/
def answer {α : Type} (script : Script) (call : RetrievalCall) (value : α) :
    Except String α × Script :=
  let result := if script.failure.isEmpty then .ok value
    else .error (String.intercalate ": " script.failure)
  (result, { script with calls := call :: script.calls })

/-- Opens a database at a path. -/
def «open» (path : String) (script : Script) : Except Failure Unit × Script :=
  let (result, script) := script.answer (.open path) ()
  (result.mapError .construction, script)

end Script

instance : Retrieval Script where
  insert document script := script.answer (.insert document) ()
  query text limit constraints script :=
    script.answer (.query text limit constraints.keys) script.hits
  delete docId keepLatest script := script.answer (.delete docId keepLatest) ()
  sources script := script.answer .sources script.listing
  save path script := script.answer (.save path) ()

end ChunkStore
