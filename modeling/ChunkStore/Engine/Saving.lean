import ChunkStore.Engine.Basic

/-!
# Saving

Saving copies the committed index to another directory, the description last, so that the target
never describes data that was not copied.  A disk in trouble breaks the copying off in the middle of
a file.  Saving to the engine's own directory has nothing to do.
-/

set_option autoImplicit false

namespace ChunkStore.Engine

/-- Copies the files of a commit from one directory to another; a failure names the path of the
directory that was copied from. -/
def copyCommit (path : String) (source target : Location) (commit : Commit) (disk : Disk) :
    Except EngineFault Unit × Disk :=
  let room := disk.trouble
  match disk.copySegments source target commit.segments room with
  | (.error fault, disk) => (.error (.copySegment path fault), disk)
  | (.ok (), disk) =>
    let room := room.map (· - commit.segments.length)
    match disk.copyDescription source target (room == some 0) with
    | (.error fault, disk) => (.error (.copyDescription fault), disk)
    | (.ok (), disk) => (.ok (), disk)

/-- Copies the index of an engine from one directory to another. -/
def copyIndex (engine : Engine) (source target : Location) (disk : Disk) :
    Except EngineFault Unit × Disk :=
  match disk.readDescription engine.home with
  | .ok commit => copyCommit engine.path source target commit disk
  | .error .otherSchema => copyCommit engine.path source target ⟨[], none⟩ disk
  | .error fault => (.error (.unreadableSource fault), disk)

/-- Saves the index of an engine to a path. -/
def save (engine : Engine) (path : String) (disk : Disk) : Except EngineFault Unit × Disk :=
  match disk.makeDirectories (.ofText path) with
  | (.error fault, disk) => (.error (.createTarget path fault), disk)
  | (.ok (), disk) =>
    match disk.locate (.ofText engine.path), disk.locate (.ofText path) with
    | .error fault, _ => (.error (.unresolved engine.path fault), disk)
    | .ok _, .error fault => (.error (.unresolved path fault), disk)
    | .ok source, .ok target =>
      if source = target then (.ok (), disk) else engine.copyIndex source target disk

end ChunkStore.Engine
