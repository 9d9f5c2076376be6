import ChunkStore.Chunk
import ChunkStore.Json.Reader
import ChunkStore.Metadata.Json

/-!
# Stored records

A chunk is stored as a record of numbered fields, each with a number or a text, possibly several.
Which number a field has is decided by the schema, a list of field names.  Metadata is stored as one
text, in which floats are written as their bits.  Beside the fields of the chunk a record has the
*version key*, which is the same for all chunks of one document version and of no other.
-/

set_option autoImplicit false

namespace ChunkStore.Index

/-- What a field of a record holds. -/
inductive FieldValue where
  | number (n : UInt64)
  | text (s : String)
deriving DecidableEq

/-- A record: its fields with their numbers, in the order in which they were put in. -/
abbrev Record : Type :=
  List (Nat × FieldValue)

/-- The fields that a chunk is stored in. -/
inductive Field where
  | chunkId
  | docId
  | versionKey
  | document
  | version
  | text
  | metadata
deriving DecidableEq, Repr

namespace Field

/-- All fields, in the order in which they are stored. -/
def all : List Field :=
  [.chunkId, .docId, .versionKey, .document, .version, .text, .metadata]

/-- The name of a field in schemas and messages. -/
def name : Field → String
  | .chunkId => "chunk_id"
  | .docId => "doc_id"
  | .versionKey => "doc_key"
  | .document => "document"
  | .version => "doc_version"
  | .text => "text"
  | .metadata => "metadata"

/-- The field with a name. -/
def ofName? (name : String) : Option Field :=
  all.find? fun field => field.name = name

end Field

/-- The number of each field. -/
structure FieldNumbers where
  chunkId : Nat
  docId : Nat
  versionKey : Nat
  document : Nat
  version : Nat
  text : Nat
  metadata : Nat
deriving DecidableEq

namespace FieldNumbers

/-- The number of a field. -/
def of (numbers : FieldNumbers) : Field → Nat
  | .chunkId => numbers.chunkId
  | .docId => numbers.docId
  | .versionKey => numbers.versionKey
  | .document => numbers.document
  | .version => numbers.version
  | .text => numbers.text
  | .metadata => numbers.metadata

/-- The place of a field in a schema; a field that is not there is given back as the error. -/
def place (schema : List String) (field : Field) : Except Field Nat :=
  match schema.idxOf? field.name with
  | some number => .ok number
  | none => .error field

/-- The numbers of the fields in a schema, or the first field that is not there. -/
def resolve (schema : List String) : Except Field FieldNumbers := do
  return {
    chunkId := ← place schema .chunkId
    docId := ← place schema .docId
    versionKey := ← place schema .versionKey
    document := ← place schema .document
    version := ← place schema .version
    text := ← place schema .text
    metadata := ← place schema .metadata }

/-- The message of a field that a schema does not have. -/
def missingMessage (field : Field) : String :=
  "The field does not exist: '" ++ field.name ++ "'"

/-- The numbers of the fields in the schema of an index. -/
def standard : FieldNumbers :=
  ⟨0, 1, 2, 3, 4, 5, 6⟩

end FieldNumbers

/-- The key that all chunks of one document version share. -/
def versionKey (docId : String) (version : UInt32) : String :=
  docId ++ "\x1f" ++ Numeral.text version.toNat

/-- Why a record is no chunk. -/
inductive DecodeFault where
  | missing (field : Field)
  | versionOutOfRange (id : UInt64)
  | unreadableMetadata (id : UInt64)
deriving DecidableEq

namespace DecodeFault

/-- The message of a fault. -/
def message : DecodeFault → String
  | .missing field => "stored chunk is missing '" ++ field.name ++ "'"
  | .versionOutOfRange id =>
    "chunk " ++ Numeral.text id.toNat ++
      " has an out-of-range version: number too large to fit in target type"
  | .unreadableMetadata id => "chunk " ++ Numeral.text id.toNat ++ " has unreadable metadata"

end DecodeFault

namespace Record

/-- The values of a field, in their order. -/
def values (record : Record) (number : Nat) : List FieldValue :=
  (record.filter fun field => field.1 = number).map Prod.snd

/-- The first value of a field, if it is a number. -/
def numberOf (numbers : FieldNumbers) (record : Record) (field : Field) :
    Except DecodeFault UInt64 :=
  match (record.values (numbers.of field)).head? with
  | some (.number n) => .ok n
  | _ => .error (.missing field)

/-- The first value of a field, if it is a text. -/
def textOf (numbers : FieldNumbers) (record : Record) (field : Field) :
    Except DecodeFault String :=
  match (record.values (numbers.of field)).head? with
  | some (.text s) => .ok s
  | _ => .error (.missing field)

/-- The text that metadata is stored as, the same for equal metadata. -/
def metadataText (metadata : Metadata) : String :=
  (Metadata.toJson .stored metadata).render

/-- The metadata that a stored text stands for. -/
def metadataOfText? (text : String) : Option Metadata := do
  Metadata.ofJson? .stored (← Json.ofString? text)

/-- The record of a chunk. -/
def ofChunk (numbers : FieldNumbers) (chunk : Chunk) : Record := [
  (numbers.chunkId, .number chunk.id),
  (numbers.docId, .text chunk.docId),
  (numbers.versionKey, .text (versionKey chunk.docId chunk.version)),
  (numbers.document, .text chunk.document),
  (numbers.version, .number chunk.version.toUInt64),
  (numbers.text, .text chunk.text),
  (numbers.metadata, .text (metadataText chunk.metadata))]

/-- The chunk of a record. -/
def toChunk (numbers : FieldNumbers) (record : Record) : Except DecodeFault Chunk := do
  let id ← numberOf numbers record .chunkId
  let version ← numberOf numbers record .version
  if UInt32.size ≤ version.toNat then throw (.versionOutOfRange id)
  let metadata ← match metadataOfText? (← textOf numbers record .metadata) with
    | some metadata => pure metadata
    | none => throw (.unreadableMetadata id)
  return {
    id
    text := ← textOf numbers record .text
    document := ← textOf numbers record .document
    docId := ← textOf numbers record .docId
    version := version.toUInt32
    metadata }

end Record

end ChunkStore.Index
