import ChunkStore.Database.OnEngine

/-!
# Workspaces

A workspace is a disk with named handles on indexes: databases and bare engines.  `step` carries out
one command and gives its answer.  Opening under a name that is taken closes the older handle once
the new one is open.
-/

set_option autoImplicit false

namespace ChunkStore

/-- How an engine is reached: through a database, or directly. -/
inductive Surface where
  | database
  | engine
deriving DecidableEq, Repr

/-- An open engine and how it is reached. -/
structure Handle where
  surface : Surface
  engine : Engine

/-- A disk, the environment, and the open handles. -/
structure Workspace where
  disk : Disk
  environment : List (String × String)
  handles : Dict String Handle

/-- A command to a handle. -/
inductive HandleCommand where
  | insert (texts : List String) (maps : List Metadata) (document docId : String)
      (version : Option UInt32)
  | query (text : String) (topK : Nat) (constraints : Constraints)
  | delete (docId : String) (keepLatest : Bool)
  | sources
  | versionsOf (docId : String)
  | save (path : String)
  | path
  | close

/-- Work on files. -/
inductive FileCommand where
  | write (path content : String)
  | makeDirectory (path : String)
  | remove (path : String)
  | exists (path : String)
  | manifestText (path : String)
  | setManifestText (path : String) (text : Option String)
  | makeForeignIndex (path : String)
  | addRecord (path : String) (record : Index.Record)

/-- A command to a workspace. -/
inductive Command where
  | openDatabase (name path : String)
  | openEngine (name path : String) (settings : Option Settings)
  | on (name : String) (command : HandleCommand)
  | file (command : FileCommand)

/-- The answer to a command. -/
inductive Answer where
  | done
  | flag (b : Bool)
  | hits (list : List Hit)
  | sources (list : List Source)
  | versions (list : List UInt32)
  | path (text : String)
  | manifestText (text : Option String)
  | failure (failure : Failure)
  | fault (fault : EngineFault)
  | noHandle

namespace Answer

/-- The answer of a call that gives nothing back. -/
def ofFailable : Except Failure Unit → Answer
  | .ok () => .done
  | .error reason => .failure reason

/-- The answer of an engine's call that gives nothing back. -/
def ofFallible : Except EngineFault Unit → Answer
  | .ok () => .done
  | .error reason => .fault reason

end Answer

namespace FileCommand

/-- Carries out work on files. -/
def run (disk : Disk) : FileCommand → Answer × Disk
  | .write path content => (.done, disk.writeText path content)
  | .makeDirectory path => (.done, disk.makeDir path)
  | .remove path => (.done, disk.remove path)
  | .exists path => (.flag (disk.existsAt path), disk)
  | .manifestText path => (.manifestText (disk.manifestText? path), disk)
  | .setManifestText path text => (.done, disk.setManifestText path text)
  | .makeForeignIndex path => (.done, disk.makeForeignIndex path)
  | .addRecord path record =>
    (.done, disk.addEntry path (.ofRecord Settings.defaultStopWords record))

end FileCommand

namespace Handle

/-- The document of parallel lists of texts and metadata. -/
def documentOf (texts : List String) (maps : List Metadata) (document docId : String)
    (version : Option UInt32) : Document :=
  let chunks : List DraftChunk := (texts.zip maps).map fun (text, metadata) => ⟨text, metadata⟩
  ⟨document, docId, version, chunks⟩

/-- Carries out a command on a database. -/
def runDatabase (state : Engine × Disk) : HandleCommand → Answer × Engine × Disk
  | .insert texts maps document docId version =>
    let (result, state) := Database.insert (documentOf texts maps document docId version) state
    (.ofFailable result, state)
  | .query text topK constraints =>
    match Database.query text topK constraints state with
    | (.ok results, state) => (.hits results.hits, state)
    | (.error failure, state) => (.failure failure, state)
  | .delete docId keepLatest =>
    let (result, state) := Database.delete docId keepLatest state
    (.ofFailable result, state)
  | .sources =>
    match Database.sources state with
    | (.ok list, state) => (.sources list, state)
    | (.error failure, state) => (.failure failure, state)
  | .versionsOf docId => (.versions (state.1.versionsOf docId), state)
  | .save path =>
    let (result, state) := Database.save path state
    (.ofFailable result, state)
  | .path => (.path state.1.path, state)
  | .close => (.done, state.1, state.1.close state.2)

/-- Carries out a command on an engine. -/
def runEngine (state : Engine × Disk) : HandleCommand → Answer × Engine × Disk
  | .insert texts maps document docId version =>
    let (result, state) := state.1.insert texts maps document docId version state.2
    (.ofFallible result, state)
  | .query text topK constraints =>
    match state.1.search text topK constraints with
    | .ok list => (.hits list, state)
    | .error fault => (.fault (.undecodable fault), state)
  | .delete docId keepLatest =>
    let (result, state) := state.1.delete docId keepLatest state.2
    (.ofFallible result, state)
  | .sources => (.sources state.1.sources, state)
  | .versionsOf docId => (.versions (state.1.versionsOf docId), state)
  | .save path =>
    let (result, disk) := state.1.save path state.2
    (.ofFallible result, state.1, disk)
  | .path => (.path state.1.path, state)
  | .close => (.done, state.1, state.1.close state.2)

/-- Carries out a command on a handle. -/
def run (handle : Handle) (disk : Disk) (command : HandleCommand) : Answer × Engine × Disk :=
  match handle.surface with
  | .database => runDatabase (handle.engine, disk) command
  | .engine => runEngine (handle.engine, disk) command

end Handle

namespace Workspace

/-- A workspace with an empty disk and without handles. -/
def empty : Workspace :=
  ⟨.empty, [], .empty⟩

/-- Puts an opened engine under a name and closes the one that had it. -/
def install (workspace : Workspace) (name : String) (handle : Handle) (disk : Disk) : Workspace :=
  let disk := match workspace.handles.find? name with
    | some before => before.engine.close disk
    | none => disk
  { workspace with disk, handles := workspace.handles.insert name handle }

/-- Carries out a command. -/
def step (workspace : Workspace) : Command → Answer × Workspace
  | .openDatabase name path =>
    match Database.open path workspace.environment workspace.disk with
    | (.error failure, disk) => (.failure failure, { workspace with disk })
    | (.ok engine, disk) => (.done, workspace.install name ⟨.database, engine⟩ disk)
  | .openEngine name path settings =>
    let opened := match settings with
      | some settings => Engine.open path settings workspace.disk
      | none => Engine.openConfigured path workspace.environment workspace.disk
    match opened with
    | (.error fault, disk) => (.fault fault, { workspace with disk })
    | (.ok engine, disk) => (.done, workspace.install name ⟨.engine, engine⟩ disk)
  | .on name command =>
    match workspace.handles.find? name with
    | none => (.noHandle, workspace)
    | some handle =>
      let (answer, engine, disk) := handle.run workspace.disk command
      let handles := match command with
        | .close => workspace.handles.erase name
        | _ => workspace.handles.insert name { handle with engine }
      (answer, { workspace with disk, handles })
  | .file command =>
    let (answer, disk) := command.run workspace.disk
    (answer, { workspace with disk })

end Workspace

end ChunkStore
