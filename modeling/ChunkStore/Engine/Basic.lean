import ChunkStore.Disk.IndexFiles
import ChunkStore.Index.Manifest
import ChunkStore.Settings

/-!
# Engines

An engine is an open index.  It holds the directory of the index, knows the manifest and the
segments of the last commit, and keeps the changes that wait for the next one.  What a query sees
are the segments: staged changes are not seen before they are committed.  The reader that stands
between an engine and its queries is put there in `ChunkStore.Workspace.Reading`.
-/

set_option autoImplicit false

namespace ChunkStore

open ChunkStore.Index (Change Entry Manifest Segment)

/-- An open index. -/
structure Engine where
  path : String
  home : Location
  directoryNumber : Nat
  stopWords : List String
  manifest : Manifest
  segments : List Segment
  staged : List Change

/-- Why an engine refuses a call. -/
inductive EngineFault where
  | configuration (failure : Failure)
  | settings (fault : SettingsFault)
  | createDirectory (path : String) (fault : DiskFault)
  | missingDirectory (path : String)
  | unreadableIndex (path : String) (fault : DescriptionFault)
  | busy
  | tooMuchMemory
  | missingData
  | corruptManifest
  | countMismatch (chunks maps : Nat)
  | version (fault : Index.VersionFault)
  | idsExhausted
  | rolledBack
  | undecodable (fault : Index.DecodeFault)
  | createTarget (path : String) (fault : DiskFault)
  | unresolved (path : String) (fault : DiskFault)
  | unreadableSource (fault : DescriptionFault)
  | copySegment (path : String) (fault : DiskFault)
  | copyDescription (fault : DiskFault)
deriving DecidableEq

namespace EngineFault

/-- The message of a fault: what was tried and, behind it, why it failed. -/
def message : EngineFault → String
  | .configuration failure => failure.message
  | .settings fault => fault.message
  | .createDirectory path fault =>
    "failed to create index directory " ++ path ++ ": " ++ fault.message
  | .missingDirectory path =>
    "failed to open index directory " ++ path ++ ": Directory does not exist: '" ++ path ++ "'."
  | .unreadableIndex path fault => "failed to load index at " ++ path ++ ": " ++ fault.message
  | .busy =>
    "failed to acquire index writer: Failed to acquire Lockfile: LockBusy. " ++
      "Some(\"Failed to acquire index lock. If you are using a regular directory, this means " ++
      "there is already an \x60IndexWriter\x60 working on this \x60Directory\x60, in this " ++
      "process or in a different process.\")"
  | .tooMuchMemory =>
    "failed to acquire index writer: An invalid argument was passed: " ++
      "'The memory arena in bytes per thread cannot exceed 4293967295'"
  | .missingData => "failed to open index reader: Failed to open file for read"
  | .corruptManifest => "index manifest is corrupt"
  | .countMismatch chunks maps =>
    Numeral.text chunks ++ " chunks but " ++ Numeral.text maps ++ " metadata maps"
  | .version fault => fault.message
  | .idsExhausted => "panicked: attempt to add with overflow"
  | .rolledBack => "changes were rolled back"
  | .undecodable fault => fault.message
  | .createTarget path fault => "failed to create " ++ path ++ ": " ++ fault.message
  | .unresolved path fault => "failed to resolve " ++ path ++ ": " ++ fault.message
  | .unreadableSource fault => fault.message
  | .copySegment path fault => "failed to copy " ++ path ++ ": " ++ fault.message
  | .copyDescription fault => "failed to copy meta.json: " ++ fault.message

end EngineFault

namespace Engine

/-- The entries that queries see. -/
def entries (engine : Engine) : List Entry :=
  engine.segments.flatten

/-- All document versions, by document id and version. -/
def sources (engine : Engine) : List Source :=
  engine.manifest.sources

/-- The versions of a document, in their order. -/
def versionsOf (engine : Engine) (docId : String) : List UInt32 :=
  (engine.manifest.versionsOf docId).keys

end Engine

end ChunkStore
