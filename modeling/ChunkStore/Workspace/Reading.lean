import ChunkStore.Workspace

/-!
# Reading

The queries of an engine go through a reader, which sees the segments that it was shown last.  It is
shown those of the index when the engine is opened, and again after each commit.  If this fails
after a commit, the commit counts all the same, and the next query tries once more before it is
answered.
-/

set_option autoImplicit false

namespace ChunkStore

open ChunkStore.Index (Segment)

/-- What queries go through: the segments that they see, and whether it is still to be shown what
was committed last. -/
structure Reader where
  segments : List Segment
  isPending : Bool

namespace Reader

/-- The segments of the index in a directory.  Beside what stands there, a mishap of the system can
keep them from being read. -/
def load (disk : Disk) (home : Location) (mishap : Option String) :
    Except String (List Segment) :=
  match mishap, disk.readDescription home with
  | some reason, _ => .error reason
  | none, .ok commit =>
    if disk.holdsSegments home commit then .ok commit.segments
    else .error "Failed to open file for read"
  | none, .error .otherSchema => .ok []
  | none, .error fault => .error fault.message

/-- Shows a reader what was loaded after a commit, or leaves this to the next query. -/
def follow (reader : Reader) : Except String (List Segment) → Reader
  | .ok segments => { reader with segments }
  | .error _ => { reader with isPending := true }

/-- Shows a reader what was loaded before a query, if this is still to be done. -/
def refresh (reader : Reader) (loaded : Except String (List Segment)) : Except String Reader :=
  if reader.isPending then
    match loaded with
    | .ok segments => .ok ⟨segments, false⟩
    | .error reason => .error ("failed to refresh index reader: " ++ reason)
  else .ok reader

end Reader

/-- An engine with the reader of its queries. -/
structure ReadingEngine where
  engine : Engine
  reader : Reader

namespace ReadingEngine

/-- An engine that was just opened, with its reader. -/
def opened (engine : Engine) : ReadingEngine :=
  ⟨engine, engine.segments, false⟩

/-- Whether a command has committed, by its answer: a deletion that finds nothing to delete is done
without a commit. -/
def hasCommitted (engine : Engine) : HandleCommand → Answer → Bool
  | .insert .., .done => true
  | .delete docId keepLatest, .done =>
    let known := (engine.manifest.versionsOf docId).keys
    !(if keepLatest then known.dropLast else known).isEmpty
  | _, _ => false

/-- Carries out a command: a query through the reader, which is refused if there is something that
the reader cannot be shown, and any other command by the engine, whose commits the reader
follows. -/
def run (state : ReadingEngine × Disk) (mishap : Option String) (command : HandleCommand) :
    Except String Answer × ReadingEngine × Disk :=
  let (⟨engine, reader⟩, disk) := state
  match command with
  | .query text topK constraints =>
    match reader.refresh (Reader.load disk engine.home mishap) with
    | .error reason => (.error reason, state)
    | .ok reader =>
      let seen : Engine := { engine with segments := reader.segments }
      let (answer, _) := Handle.runEngine (seen, disk) (.query text topK constraints)
      (.ok answer, ⟨engine, reader⟩, disk)
  | command =>
    let (answer, engine', disk) := Handle.runEngine (engine, disk) command
    let reader :=
      if hasCommitted engine command answer then
        reader.follow (Reader.load disk engine'.home mishap)
      else reader
    (.ok answer, ⟨engine', reader⟩, disk)

/-- Carries out commands one after another, each with the mishap that befalls it, if any. -/
def runAll (state : ReadingEngine × Disk) :
    List (Option String × HandleCommand) → List (Except String Answer) × ReadingEngine × Disk
  | [] => ([], state)
  | (mishap, command) :: rest =>
    let (result, state) := run state mishap command
    let (results, state) := runAll state rest
    (result :: results, state)

end ReadingEngine

end ChunkStore
