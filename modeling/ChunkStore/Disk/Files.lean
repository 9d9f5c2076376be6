import ChunkStore.Disk.IndexFiles

/-!
# Work on files from outside

What can happen to a disk behind the back of the engines: files written and removed, directories
made, and closed indexes given another manifest or another entry.  What cannot be done leaves the
disk as it is.
-/

set_option autoImplicit false

namespace ChunkStore.Disk

/-- The disk after an attempt. -/
def attempt (disk : Disk) : Except DiskFault Disk → Disk
  | .ok after => after
  | .error _ => disk

/-- The location of a file that a path leads to, whether it is there or not. -/
def target (disk : Disk) (path : String) : Except DiskFault Location :=
  disk.follow [] (Path.ofText path).reverse

/-- Writes a file. -/
def writeText (disk : Disk) (path content : String) : Disk :=
  match disk.target path with
  | .ok location => disk.attempt (disk.write location (.text content))
  | .error _ => disk

/-- Makes a directory and those above it. -/
def makeDir (disk : Disk) (path : String) : Disk :=
  (disk.makeDirectories (.ofText path)).2

/-- Removes a file or a directory with all that is in it. -/
def remove (disk : Disk) (path : String) : Disk :=
  match disk.locate (.ofText path) with
  | .ok location => disk.removeTree location
  | .error _ => disk

/-- Whether a path leads to something. -/
def existsAt (disk : Disk) (path : String) : Bool :=
  match disk.locate (.ofText path) with
  | .ok _ => true
  | .error _ => false

/-- The text of a file. -/
def text? (disk : Disk) (name : String) : Option String :=
  match disk.nodes [.given name] with
  | some (.text content) => some content
  | _ => none

/-- What was committed last to the index at a path. -/
def commitAt? (disk : Disk) (path : String) : Option (Location × Commit) :=
  match disk.locate (.ofText path) with
  | .error _ => none
  | .ok home =>
    match disk.readDescription home with
    | .ok commit => some (home, commit)
    | .error _ => none

/-- The text of the manifest of the index at a path. -/
def manifestText? (disk : Disk) (path : String) : Option String :=
  (disk.commitAt? path).bind fun (_, commit) => commit.manifestText

/-- Gives the index at a path another text of the manifest, or none. -/
def setManifestText (disk : Disk) (path : String) (text : Option String) : Disk :=
  match disk.commitAt? path with
  | some (home, commit) =>
    disk.attempt (disk.publish home commit.segments { commit with manifestText := text })
  | none => disk

/-- Adds one entry to the index at a path and leaves its manifest alone. -/
def addEntry (disk : Disk) (path : String) (entry : Index.Entry) : Disk :=
  match disk.commitAt? path with
  | some (home, commit) =>
    disk.attempt (disk.publish home commit.segments
      { commit with segments := commit.segments ++ [[entry]] })
  | none => disk

/-- Makes an index with another schema at a path. -/
def makeForeignIndex (disk : Disk) (path : String) : Disk :=
  let disk := disk.makeDir path
  match disk.locate (.ofText path) with
  | .ok home => disk.attempt (disk.write (descriptionOf home) .foreignDescription)
  | .error _ => disk

end ChunkStore.Disk
