import ChunkStore.Boundary.Text
import ChunkStore.Database.OnEngine

/-!
# Objects at the C boundary

The objects that a caller holds, each kind under names of its own; a name without an object is a
null pointer.  A document that was inserted stays until it is released, but is empty.
-/

set_option autoImplicit false

namespace ChunkStore.Boundary

/-- The objects of a caller and the disk below them. -/
structure State where
  disk : Disk
  environment : List (String × String)
  databases : Dict String Engine
  documents : Dict String (Option Document)
  results : Dict String Results
  metadataLists : Dict String Metadata
  constraintSets : Dict String Constraints
  listings : Dict String (List Source)

/-- A pointer to an object: its name, or null. -/
abbrev Pointer : Type :=
  Option String

/-- The object that a pointer leads to. -/
def lookUp {α : Type} (pointer : Pointer) (objects : Dict String α) : Option α :=
  pointer.bind objects.find?

/-- The name and the object that a pointer leads to. -/
def object {α : Type} (kind : String) (pointer : Pointer) (objects : Dict String α) :
    Except Failure (String × α) :=
  match pointer with
  | none => .error (.invalidArgument (kind ++ " handle is null"))
  | some name =>
    match objects.find? name with
    | some found => .ok (name, found)
    | none => .error (.invalidArgument (kind ++ " handle is null"))

/-- The objects without the one that a pointer leads to. -/
def releaseFrom {α : Type} (pointer : Pointer) (objects : Dict String α) : Dict String α :=
  match pointer with
  | some name => objects.erase name
  | none => objects

namespace State

/-- No objects and an empty disk. -/
def empty : State :=
  ⟨.empty, [], .empty, .empty, .empty, .empty, .empty, .empty⟩

/-- The database that a pointer leads to. -/
def database (state : State) (pointer : Pointer) : Except Failure (String × Engine) :=
  object "engine" pointer state.databases

/-- The document that a pointer leads to, unless it was inserted. -/
def document (state : State) (pointer : Pointer) : Except Failure (String × Document) := do
  let (name, staged) ← object "document" pointer state.documents
  match staged with
  | some document => return (name, document)
  | none => throw (.invalidArgument "document was already inserted")

/-- Puts an opened engine under a name and closes the one that had it. -/
def installDatabase (state : State) (name : String) (engine : Engine) : State :=
  let disk := match state.databases.find? name with
    | some before => before.close state.disk
    | none => state.disk
  { state with disk, databases := state.databases.insert name engine }

/-- Puts another document at a name. -/
def putDocument (state : State) (name : String) (document : Document) : State :=
  { state with documents := state.documents.insert name (some document) }

/-- Puts an engine and its disk back after a call. -/
def putEngine (state : State) (name : String) (after : Engine × Disk) : State :=
  { state with disk := after.2, databases := state.databases.insert name after.1 }

end State

end ChunkStore.Boundary
