import ChunkStore.Chunk
import ChunkStore.Json.Decode
import ChunkStore.Json.Reader
import ChunkStore.Json.Writer

/-!
# The manifest of an index

Which document versions an index holds, under which names they were inserted, and which chunk id
comes next.  The manifest is committed as one text together with the chunks that it speaks of.
-/

set_option autoImplicit false

namespace ChunkStore.Index

/-- The bookkeeping of an index: the next chunk id and, for each document id, the name of each of
its versions. -/
structure Manifest where
  nextChunkId : UInt64
  versions : Dict String (Dict UInt32 String)
deriving DecidableEq

/-- Why a document gets no version. -/
inductive VersionFault where
  | taken (docId : String) (version : UInt32)
  | exhausted (docId : String)
deriving DecidableEq

namespace VersionFault

/-- The message of a fault. -/
def message : VersionFault → String
  | .taken docId version =>
    "document '" ++ docId ++ "' already has version " ++ Numeral.text version.toNat
  | .exhausted docId => "document '" ++ docId ++ "' has no versions left"

end VersionFault

namespace Manifest

/-- The manifest of an index that never had a chunk. -/
def empty : Manifest :=
  ⟨0, .empty⟩

instance : Inhabited Manifest := ⟨empty⟩

/-- The versions of a document with their names; none for an unknown document. -/
def versionsOf (manifest : Manifest) (docId : String) : Dict UInt32 String :=
  (manifest.versions.find? docId).getD .empty

/-- The highest version of a document. -/
def latest? (manifest : Manifest) (docId : String) : Option UInt32 :=
  (manifest.versionsOf docId).keys.getLast?

/-- The version of a document to be inserted: the one asked for, which has to be new, or the one
after the highest. -/
def resolveVersion (manifest : Manifest) (docId : String) (requested : Option UInt32) :
    Except VersionFault UInt32 :=
  match requested with
  | some version =>
    if (manifest.versionsOf docId).contains version then .error (.taken docId version)
    else .ok version
  | none =>
    match manifest.latest? docId with
    | none => .ok 1
    | some version => if version = 0xFFFFFFFF then .error (.exhausted docId) else .ok (version + 1)

/-- Adds a version of a document. -/
def addVersion (manifest : Manifest) (docId : String) (version : UInt32) (document : String) :
    Manifest :=
  { manifest with
    versions :=
      manifest.versions.insert docId ((manifest.versionsOf docId).insert version document) }

/-- Takes versions of a document out; a document without versions goes as well. -/
def removeVersions (manifest : Manifest) (docId : String) (doomed : List UInt32) : Manifest :=
  let rest := doomed.foldl Dict.erase (manifest.versionsOf docId)
  { manifest with
    versions :=
      if rest.isEmpty then manifest.versions.erase docId else manifest.versions.insert docId rest }

/-- All document versions, by document id and version. -/
def sources (manifest : Manifest) : List Source :=
  manifest.versions.toList.flatMap fun (docId, known) =>
    known.toList.map fun (version, document) => ⟨document, docId, version⟩

/-! ### The text of a manifest -/

/-- A manifest as a tree; versions are keys, so they are written as strings. -/
def toJson (manifest : Manifest) : Json :=
  Json.ofFields [
    ("next_chunk_id", Json.ofNat manifest.nextChunkId.toNat),
    ("versions", Json.ofFields (manifest.versions.toList.map fun (docId, known) =>
      (docId, Json.ofFields (known.toList.map fun (version, document) =>
        (Numeral.text version.toNat, Json.ofText document)))))]

/-- The version that a key stands for: a numeral without leading zeros and without escapes. -/
def versionOfKey? (lexeme : List Char) : Option UInt32 := do
  let (number, rest) ← Json.splitNumber? lexeme
  if rest.isEmpty then (Json.number number).asUInt32? else none

/-- The manifest that a tree stands for. -/
def ofJson? (json : Json) : Option Manifest := do
  let fields ← json.asRecord? ["next_chunk_id", "versions"]
  return {
    nextChunkId := ← (← fields.lookup "next_chunk_id").asUInt64?
    versions := ← (← fields.lookup "versions").asDict? Json.lexemeText?
      (Json.asDict? versionOfKey? Json.asText?) }

/-- The text that is committed. -/
def render (manifest : Manifest) : String :=
  manifest.toJson.render

/-- The manifest that a committed text stands for. -/
def ofText? (text : String) : Option Manifest := do
  ofJson? (← Json.ofString? text)

end Manifest

end ChunkStore.Index
