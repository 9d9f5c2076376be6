import ChunkStore.Chunk
import ChunkStore.Metadata.Json

/-!
# JSON forms of chunks and sources

The public forms: records with the fields in a fixed order.  A chunk whose metadata has a float that
is no real number is written all the same, but does not read back.
-/

set_option autoImplicit false

namespace ChunkStore

namespace Chunk

/-- A chunk as a tree. -/
def toJson (chunk : Chunk) : Json :=
  Json.ofFields [
    ("id", Json.ofNat chunk.id.toNat),
    ("text", Json.ofText chunk.text),
    ("document", Json.ofText chunk.document),
    ("doc_id", Json.ofText chunk.docId),
    ("doc_version", Json.ofNat chunk.version.toNat),
    ("metadata", Metadata.toJson .public chunk.metadata)]

/-- The chunk that a tree stands for. -/
def ofJson? (json : Json) : Option Chunk := do
  let fields ← json.asRecord? ["id", "text", "document", "doc_id", "doc_version", "metadata"]
  return {
    id := ← (← fields.lookup "id").asUInt64?
    text := ← (← fields.lookup "text").asText?
    document := ← (← fields.lookup "document").asText?
    docId := ← (← fields.lookup "doc_id").asText?
    version := ← (← fields.lookup "doc_version").asUInt32?
    metadata := ← Metadata.ofJson? .public (← fields.lookup "metadata") }

end Chunk

namespace Source

/-- A source as a tree. -/
def toJson (source : Source) : Json :=
  Json.ofFields [
    ("document", Json.ofText source.document),
    ("doc_id", Json.ofText source.docId),
    ("doc_version", Json.ofNat source.version.toNat)]

/-- The source that a tree stands for. -/
def ofJson? (json : Json) : Option Source := do
  let fields ← json.asRecord? ["document", "doc_id", "doc_version"]
  return {
    document := ← (← fields.lookup "document").asText?
    docId := ← (← fields.lookup "doc_id").asText?
    version := ← (← fields.lookup "doc_version").asUInt32? }

end Source

end ChunkStore
