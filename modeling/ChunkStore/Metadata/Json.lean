import ChunkStore.Json.Decode
import ChunkStore.Json.Writer
import ChunkStore.Metadata.Value

/-!
# JSON forms of metadata values

A value is written with its kind beside it, `{"type":"int","value":5}`, so that reading cannot take
it for a value of another kind.  There are two forms, which differ for floats: the *public* form
writes the number itself, and the *stored* form writes its bits as an unsigned integer, which keeps
NaNs, infinities and the sign of zero.
-/

set_option autoImplicit false

namespace ChunkStore.Metadata

/-- How a float is written and read. -/
structure FloatForm where
  write : Binary64 → Json
  read? : Json → Option Binary64

/-- Floats as numbers; one that is no real number has no such form and is written `null`. -/
def FloatForm.public : FloatForm :=
  ⟨Json.ofFloat, Json.asFloat?⟩

/-- Floats as their bits. -/
def FloatForm.stored : FloatForm :=
  ⟨fun x => Json.ofNat x.bits.toNat, fun json => json.asUInt64?.map Binary64.mk⟩

namespace Value

/-- The part of a value beside its kind. -/
def contentJson (form : FloatForm) : Value → Json
  | .bool b => .bool b
  | .int n => Json.ofInt n.toInt
  | .float x => form.write x
  | .str s => Json.ofText s

/-- A value as a tree. -/
def toJson (form : FloatForm) (value : Value) : Json :=
  Json.ofFields [("type", Json.ofText value.kind.name), ("value", value.contentJson form)]

/-- The value of a kind that a tree stands for. -/
def ofContent? (form : FloatForm) (content : Json) : Kind → Option Value
  | .bool => content.asBool?.map .bool
  | .int => content.asInt64?.map .int
  | .float => (form.read? content).map .float
  | .str => content.asText?.map .str

/-- The value that a tree stands for. -/
def ofJson? (form : FloatForm) (json : Json) : Option Value := do
  let fields ← json.asRecord? ["type", "value"]
  let name ← (← fields.lookup "type").asText?
  let kind ← Kind.ofName? name
  ofContent? form (← fields.lookup "value") kind

end Value

/-- Metadata as a tree, keys in their order. -/
def toJson (form : Metadata.FloatForm) (metadata : Metadata) : Json :=
  Json.ofFields (metadata.toList.map fun (key, value) => (key, value.toJson form))

/-- The metadata that a tree stands for. -/
def ofJson? (form : Metadata.FloatForm) (json : Json) : Option Metadata :=
  json.asDict? Json.lexemeText? (Metadata.Value.ofJson? form)

end ChunkStore.Metadata
