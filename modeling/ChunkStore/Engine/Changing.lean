import ChunkStore.Engine.Basic

/-!
# Inserting and deleting

Each call stages its changes and commits them together with the new manifest.  If the disk fails
while changes are staged or committed, what was staged is dropped and the engine is as before.
Chunk ids are counted up and never used again; when they run out, the chunks that still got one stay
staged.
-/

set_option autoImplicit false

namespace ChunkStore.Engine

open ChunkStore.Index (Change Entry Manifest)

/-- Stages changes behind those that wait already, until the disk fails; says whether all of them
were staged. -/
def stage (engine : Engine) (changes : List Change) (disk : Disk) : Bool × Engine :=
  let taken := match disk.trouble with
    | none => changes
    | some room => changes.take room
  (taken.length == changes.length, { engine with staged := engine.staged ++ taken })

/-- Drops what is staged.  The description in the directory is taken to be the engine's own last
commit: a writer that starts over from another one, put there by a save, would not be as before. -/
def rollback (engine : Engine) : Engine :=
  { engine with staged := [] }

/-- Commits the staged changes under a manifest if all of them were staged, or drops them. -/
def commit (engine : Engine) (isComplete : Bool) (manifest : Manifest) (disk : Disk) :
    Except EngineFault Unit × Engine × Disk :=
  let segments := Change.applyAll engine.staged engine.segments
  if !isComplete || disk.trouble.isSome then (.error .rolledBack, engine.rollback, disk)
  else
    match disk.publish engine.home engine.segments ⟨segments, some manifest.render⟩ with
    | .ok disk => (.ok (), { engine with manifest, segments, staged := [] }, disk)
    | .error _ => (.error .rolledBack, engine.rollback, disk)

/-- The chunks of a document version, with consecutive ids from `first` on. -/
def numberedChunks (first : Nat) (document docId : String) (version : UInt32)
    (texts : List String) (maps : List Metadata) : List Chunk :=
  (texts.zip maps).mapIdx fun i (text, metadata) =>
    ⟨UInt64.ofNat (first + i), text, document, docId, version, metadata⟩

/-- Inserts a document version: the one asked for, or the one after the highest. -/
def insert (engine : Engine) (texts : List String) (maps : List Metadata) (document docId : String)
    (requested : Option UInt32) (disk : Disk) : Except EngineFault Unit × Engine × Disk :=
  if texts.length ≠ maps.length then
    (.error (.countMismatch texts.length maps.length), engine, disk)
  else
    match engine.manifest.resolveVersion docId requested with
    | .error fault => (.error (.version fault), engine, disk)
    | .ok version =>
      let first := engine.manifest.nextChunkId.toNat
      let next := first + texts.length
      let chunks := numberedChunks first document docId version texts maps
      let (isComplete, staged) := engine.stage ((chunks.take (UInt64.size - first)).map fun chunk =>
        .add (.ofChunk engine.stopWords chunk)) disk
      if UInt64.size ≤ next then (.error .idsExhausted, staged, disk)
      else
        let manifest := engine.manifest.addVersion docId version document
        staged.commit isComplete { manifest with nextChunkId := UInt64.ofNat next } disk

/-- Deletes the versions of a document, or all but the highest. -/
def delete (engine : Engine) (docId : String) (keepLatest : Bool) (disk : Disk) :
    Except EngineFault Unit × Engine × Disk :=
  let known := (engine.manifest.versionsOf docId).keys
  let doomed := if keepLatest then known.dropLast else known
  if doomed.isEmpty then (.ok (), engine, disk)
  else
    let (isComplete, staged) := engine.stage (doomed.map fun version =>
      .removeKey (Index.versionKey docId version)) disk
    staged.commit isComplete (engine.manifest.removeVersions docId doomed) disk

end ChunkStore.Engine
