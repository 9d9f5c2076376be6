import ChunkStore.Config.Basic
import ChunkStore.Database.Basic
import ChunkStore.Disk.Files
import ChunkStore.Engine.Changing
import ChunkStore.Engine.Opening
import ChunkStore.Engine.Saving
import ChunkStore.Engine.Searching

/-!
# Databases on an index

An engine together with the disk that it works on serves a database.  Where no settings are given,
they are read from the files of the working directory and from the environment.
-/

set_option autoImplicit false

namespace ChunkStore

/-- Opens the index at a path with the settings of the configuration. -/
def Engine.openConfigured (path : String) (environment : List (String × String)) (disk : Disk) :
    Except EngineFault Engine × Disk :=
  match Config.loadSettings ⟨disk.text?, environment⟩ with
  | .error failure => (.error (.configuration failure), disk)
  | .ok settings => Engine.open path settings disk

/-- Opens a database at a path. -/
def Database.open (path : String) (environment : List (String × String)) (disk : Disk) :
    Except Failure Engine × Disk :=
  let (result, disk) := Engine.openConfigured path environment disk
  (result.mapError fun fault => .construction fault.message, disk)

instance : Retrieval (Engine × Disk) where
  insert document state :=
    let (result, engine, disk) := state.1.insert document.texts document.metadata document.name
      document.docId document.version state.2
    (result.mapError EngineFault.message, engine, disk)
  query text limit constraints state :=
    ((state.1.search text limit constraints).mapError fun fault =>
      (EngineFault.undecodable fault).message, state)
  delete docId keepLatest state :=
    let (result, engine, disk) := state.1.delete docId keepLatest state.2
    (result.mapError EngineFault.message, engine, disk)
  sources state := (.ok state.1.sources, state)
  save path state :=
    let (result, disk) := state.1.save path state.2
    (result.mapError EngineFault.message, state.1, disk)

end ChunkStore
