import ChunkStore.Metadata.Value

/-!
# Documents under construction

A document is built up chunk by chunk and then inserted as one unit.  The texts of its chunks stand
in one list and their metadata in another, at the same places: a new chunk gets an empty metadata
map beside its text.
-/

set_option autoImplicit false

namespace ChunkStore

/-- A chunk that is not stored yet. -/
structure DraftChunk where
  text : String
  metadata : Metadata
deriving DecidableEq

/-- Chunks that are not stored yet: their texts, and at the same places their metadata. -/
structure DraftChunks where
  texts : List String
  metadata : List Metadata
  aligned : metadata.length = texts.length
deriving DecidableEq

namespace DraftChunks

/-- No chunks. -/
def empty : DraftChunks :=
  ⟨[], [], rfl⟩

/-- Adds a text at the end, and an empty metadata map. -/
def push (chunks : DraftChunks) (text : String) : DraftChunks where
  texts := chunks.texts ++ [text]
  metadata := chunks.metadata ++ [.empty]
  aligned := by
    rw [List.length_append, List.length_append, chunks.aligned]
    rfl

/-- Sets the value of a key in the metadata at a place. -/
def setValue (chunks : DraftChunks) (index : Nat) (key : String) (value : Metadata.Value) :
    DraftChunks where
  texts := chunks.texts
  metadata := chunks.metadata.modify index fun metadata => metadata.insert key value
  aligned := by
    rw [List.length_modify, chunks.aligned]

/-- The texts and the metadata of chunks. -/
def ofList (chunks : List DraftChunk) : DraftChunks where
  texts := chunks.map (·.text)
  metadata := chunks.map (·.metadata)
  aligned := by
    rw [List.length_map, List.length_map]

instance : Coe (List DraftChunk) DraftChunks :=
  ⟨ofList⟩

end DraftChunks

/-- A document that is not stored yet. -/
structure Document where
  name : String
  docId : String
  version : Option UInt32
  chunks : DraftChunks
deriving DecidableEq

namespace Document

/-- A document without chunks and without a version of its own. -/
def new (name docId : String) : Document :=
  ⟨name, docId, none, .empty⟩

/-- Adds a chunk without metadata at the end. -/
def addChunk (document : Document) (text : String) : Document :=
  { document with chunks := document.chunks.push text }

/-- Asks for a version, in the place of one asked for before. -/
def setVersion (document : Document) (version : UInt32) : Document :=
  { document with version := some version }

/-- Sets the value of a key of one chunk, in the place of the one that was there. -/
def setMetadata (document : Document) (index : Nat) (key : String) (value : Metadata.Value) :
    Except Failure Document := do
  checkIndex index document.chunks.texts.length
  return { document with chunks := document.chunks.setValue index key value }

/-- The texts of the chunks. -/
def texts (document : Document) : List String :=
  document.chunks.texts

/-- The metadata of the chunks. -/
def metadata (document : Document) : List Metadata :=
  document.chunks.metadata

/-- The number of chunks. -/
def size (document : Document) : Nat :=
  document.texts.length

end Document

end ChunkStore
