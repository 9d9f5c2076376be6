import ChunkStore.Index.Record
import ChunkStore.Proofs.Json.Decoding
import ChunkStore.Proofs.Json.Reading

/-!
# Chunks come back from their records

A chunk is stored field by field, its metadata as one text in which floats stand as their bits.  So
every chunk that is stored is found again as it was, NaNs and signs of zeros included.
-/

set_option autoImplicit false

namespace ChunkStore

namespace Metadata.Value

variable {form : FloatForm}

theorem isWritten_toJson {value : Value}
    (hfloat : ∀ x, value = .float x → (form.write x).IsWritten) :
    (value.toJson form).IsWritten := by
  have hcontent : (value.contentJson form).IsWritten := by
    cases value with
    | bool b => exact .bool b
    | int n => exact Json.isWritten_ofInt n.toInt
    | float x => exact hfloat x rfl
    | str s => exact Json.isWritten_ofText s
  apply Json.isWritten_ofFields
  rw [List.forall_mem_cons, List.forall_mem_singleton]
  exact ⟨Json.isWritten_ofText value.kind.name, hcontent⟩

theorem ofContent?_contentJson {value : Value}
    (hfloat : ∀ x, value = .float x → form.read? (form.write x) = some x) :
    ofContent? form (value.contentJson form) value.kind = some value := by
  cases value with
  | bool b => rfl
  | int n => simp [contentJson, kind, ofContent?, Json.asInt64?_ofInt]
  | float x => simp [contentJson, kind, ofContent?, hfloat x rfl]
  | str s => simp [contentJson, kind, ofContent?, Json.asText?_ofText]

/-- What is read from the tree of a value is decided by what it holds. -/
theorem ofJson?_toJson_eq (form : FloatForm) (value : Value) :
    ofJson? form (value.toJson form) = ofContent? form (value.contentJson form) value.kind := by
  have hfields : (value.toJson form).asRecord? ["type", "value"] =
      some [("value", value.contentJson form), ("type", Json.ofText value.kind.name)] :=
    Json.asRecord?_ofFields _ rfl (by decide)
  simp [ofJson?, hfields, List.lookup, Json.asText?_ofText, Kind.ofName?_name]

/-- A value comes back from its tree if its float does. -/
theorem ofJson?_toJson {value : Value}
    (hfloat : ∀ x, value = .float x → form.read? (form.write x) = some x) :
    ofJson? form (value.toJson form) = some value := by
  rw [ofJson?_toJson_eq, ofContent?_contentJson hfloat]

end Metadata.Value

namespace Metadata

theorem isWritten_write_stored (x : Binary64) : (FloatForm.stored.write x).IsWritten :=
  Json.isWritten_ofNat x.bits.toNat

theorem read?_write_stored (x : Binary64) :
    FloatForm.stored.read? (FloatForm.stored.write x) = some x := by
  simp [FloatForm.stored, Json.asUInt64?_ofNat]

theorem isWritten_toJson_stored (metadata : Metadata) :
    (metadata.toJson .stored).IsWritten := by
  apply Json.isWritten_ofFields
  intro field hfield
  obtain ⟨⟨key, value⟩, -, rfl⟩ := List.mem_map.1 hfield
  exact Value.isWritten_toJson fun x _ => isWritten_write_stored x

theorem ofJson?_toJson_stored (metadata : Metadata) :
    ofJson? .stored (metadata.toJson .stored) = some metadata := by
  have hkey : ∀ entry ∈ metadata.toList,
      Json.lexemeText? (Json.encode entry.1.toList) = some entry.1 :=
    fun entry _ => Json.lexemeText?_encode entry.1
  have hvalue : ∀ entry ∈ metadata.toList,
      Value.ofJson? .stored (entry.2.toJson .stored) = some entry.2 :=
    fun entry _ => Value.ofJson?_toJson fun x _ => read?_write_stored x
  have hback := Json.asDict?_ofFields (fun key : String => key)
    (fun value : Value => value.toJson .stored) hkey hvalue
  exact hback

end Metadata

namespace Index.FieldNumbers

/-- Different fields have different numbers. -/
def AreDistinct (numbers : FieldNumbers) : Prop :=
  ∀ field field', numbers.of field = numbers.of field' → field = field'

theorem areDistinct_standard : standard.AreDistinct := by
  intro field field'
  cases field <;> cases field' <;> decide

end Index.FieldNumbers

namespace Index.Record

/-- Metadata comes back from the text that it is stored as, floats bit for bit. -/
theorem metadataOfText?_metadataText (metadata : Metadata) :
    metadataOfText? (metadataText metadata) = some metadata := by
  simp [metadataOfText?, metadataText, Json.ofString?_render
    (Metadata.isWritten_toJson_stored metadata), Metadata.ofJson?_toJson_stored]

/-- What a field of the record of a chunk holds. -/
def content (chunk : Chunk) : Field → FieldValue
  | .chunkId => .number chunk.id
  | .docId => .text chunk.docId
  | .versionKey => .text (versionKey chunk.docId chunk.version)
  | .document => .text chunk.document
  | .version => .number chunk.version.toUInt64
  | .text => .text chunk.text
  | .metadata => .text (metadataText chunk.metadata)

theorem ofChunk_eq_map (numbers : FieldNumbers) (chunk : Chunk) :
    ofChunk numbers chunk = Field.all.map fun field => (numbers.of field, content chunk field) :=
  rfl

theorem values_ofChunk {numbers : FieldNumbers} (hdistinct : numbers.AreDistinct) (chunk : Chunk)
    (field : Field) :
    (ofChunk numbers chunk).values (numbers.of field) = [content chunk field] := by
  have hsame : ∀ other, (numbers.of other = numbers.of field) = (other = field) := by
    intro other
    apply propext
    constructor
    · exact hdistinct other field
    · intro heq
      rw [heq]
  have hone : (Field.all.filter fun other => other = field) = [field] := by
    cases field <;> decide
  unfold values
  rw [ofChunk_eq_map, List.filter_map, List.map_map]
  simp only [Function.comp_def, hsame, hone, List.map_cons, List.map_nil]

/-- A chunk comes back from its record, whatever numbers the fields have. -/
theorem toChunk_ofChunk_of_areDistinct {numbers : FieldNumbers} (hdistinct : numbers.AreDistinct)
    (chunk : Chunk) : toChunk numbers (ofChunk numbers chunk) = .ok chunk := by
  have hvalues := values_ofChunk hdistinct chunk
  have hid : numberOf numbers (ofChunk numbers chunk) .chunkId = .ok chunk.id := by
    simp [numberOf, hvalues, content]
  have hversion : numberOf numbers (ofChunk numbers chunk) .version =
      .ok chunk.version.toUInt64 := by
    simp [numberOf, hvalues, content]
  have hmetadata : textOf numbers (ofChunk numbers chunk) .metadata =
      .ok (metadataText chunk.metadata) := by
    simp [textOf, hvalues, content]
  have htext : textOf numbers (ofChunk numbers chunk) .text = .ok chunk.text := by
    simp [textOf, hvalues, content]
  have hdocument : textOf numbers (ofChunk numbers chunk) .document = .ok chunk.document := by
    simp [textOf, hvalues, content]
  have hdocId : textOf numbers (ofChunk numbers chunk) .docId = .ok chunk.docId := by
    simp [textOf, hvalues, content]
  have hrange : ¬UInt32.size ≤ chunk.version.toUInt64.toNat := by
    rw [UInt32.toNat_toUInt64]
    exact Nat.not_le.2 chunk.version.toNat_lt_size
  simp only [toChunk, hid, hversion, hmetadata, htext, hdocument, hdocId,
    metadataOfText?_metadataText, bind, Except.bind, if_neg hrange, pure, Except.pure]
  simp

/-- A chunk comes back from its record. -/
theorem toChunk_ofChunk (chunk : Chunk) :
    toChunk .standard (ofChunk .standard chunk) = .ok chunk :=
  toChunk_ofChunk_of_areDistinct FieldNumbers.areDistinct_standard chunk

end Index.Record

end ChunkStore
