import ChunkStore.Engine.Basic

/-!
# Opening and closing

Opening makes the directory, makes an empty index if none is there, and then holds the directory
until the engine is closed.  A directory that is held is refused, so an index has one writer at a
time.
-/

set_option autoImplicit false

namespace ChunkStore

namespace Disk

/-- The commit that an index opens with; an empty index is made where there is none. -/
def loadOrCreate (disk : Disk) (home : Location) : Except DescriptionFault Commit × Disk :=
  match disk.readDescription home with
  | .error .missing =>
    match disk.publish home [] ⟨[], none⟩ with
    | .ok disk => (.ok ⟨[], none⟩, disk)
    | .error _ => (.error .missing, disk)
  | result => (result, disk)

/-- Holds a directory. -/
def hold (disk : Disk) (number : Nat) : Disk :=
  { disk with held := number :: disk.held }

/-- Gives a directory free. -/
def release (disk : Disk) (number : Nat) : Disk :=
  { disk with held := disk.held.erase number }

end Disk

namespace Index.Manifest

/-- The manifest of a commit; the first commit of an index has none. -/
def ofCommit? (commit : Commit) : Option Index.Manifest :=
  match commit.manifestText with
  | none => some .empty
  | some text => ofText? text

end Index.Manifest

namespace Engine

/-- The most memory for each thread of the writer. -/
def mostMemoryPerThread : Nat :=
  4293967295

/-- Opens the index in a directory that is there. -/
def openAt (path : String) (settings : Settings) (home : Location) (number : Nat) (disk : Disk) :
    Except EngineFault Engine × Disk :=
  match disk.loadOrCreate home with
  | (.error fault, disk) => (.error (.unreadableIndex path fault), disk)
  | (.ok commit, disk) =>
    if disk.held.contains number then (.error .busy, disk)
    else if mostMemoryPerThread ≤
        settings.writerMemoryBytes.toNat / settings.writerThreads.toNat then
      (.error .tooMuchMemory, disk)
    else if !disk.holdsSegments home commit then (.error .missingData, disk)
    else
      match Index.Manifest.ofCommit? commit with
      | none => (.error .corruptManifest, disk)
      | some manifest =>
        (.ok ⟨path, home, number, settings.stopWords, manifest, commit.segments, []⟩,
          disk.hold number)

/-- Opens the index at a path. -/
def «open» (path : String) (settings : Settings) (disk : Disk) : Except EngineFault Engine × Disk :=
  match settings.validate with
  | .error fault => (.error (.settings fault), disk)
  | .ok () =>
    match disk.makeDirectories (.ofText path) with
    | (.error fault, disk) => (.error (.createDirectory path fault), disk)
    | (.ok (), disk) =>
      match disk.locate (.ofText path) with
      | .error _ => (.error (.missingDirectory path), disk)
      | .ok home =>
        match disk.directoryNumber? home with
        | none => (.error (.missingDirectory path), disk)
        | some number => openAt path settings home number disk

/-- Closes an engine. -/
def close (engine : Engine) (disk : Disk) : Disk :=
  disk.release engine.directoryNumber

end Engine

end ChunkStore
