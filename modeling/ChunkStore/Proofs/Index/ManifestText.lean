import ChunkStore.Index.Manifest
import ChunkStore.Proofs.Json.Decoding
import ChunkStore.Proofs.Json.Reading

/-!
# Manifests come back from their texts

A manifest is committed as a text and read again when the index is opened.  Nothing is lost on the
way, whatever the document ids and names: strings are escaped and versions are keys, which are read
as numerals.
-/

set_option autoImplicit false

namespace ChunkStore.Index.Manifest

theorem splitNumber?_digits (n : Nat) :
    Json.splitNumber? (Numeral.digits n) = some (Json.Number.ofNat n, []) := by
  have h := Json.splitNumber?_append (Json.Number.isWritten_ofNat n)
    (show Json.EndsNumber [] by simp [Json.EndsNumber])
  simpa [Json.Number.toChars, Json.Number.ofNat] using h

theorem versionOfKey?_encode (version : UInt32) :
    versionOfKey? (Json.encode (Numeral.text version.toNat).toList) = some version := by
  have hread := Json.asUInt32?_ofNat version
  unfold Json.ofNat at hread
  simp [versionOfKey?, Numeral.text, Json.encode_digits, splitNumber?_digits, hread]

/-- The names of the versions of one document as a tree. -/
def namesJson (known : Dict UInt32 String) : Json :=
  Json.ofFields (known.toList.map fun entry =>
    (Numeral.text entry.1.toNat, Json.ofText entry.2))

/-- The versions of all documents as a tree. -/
def versionsJson (versions : Dict String (Dict UInt32 String)) : Json :=
  Json.ofFields (versions.toList.map fun entry => (entry.1, namesJson entry.2))

theorem toJson_eq (manifest : Manifest) :
    manifest.toJson = Json.ofFields [
      ("next_chunk_id", Json.ofNat manifest.nextChunkId.toNat),
      ("versions", versionsJson manifest.versions)] :=
  rfl

theorem asDict?_namesJson (known : Dict UInt32 String) :
    (namesJson known).asDict? versionOfKey? Json.asText? = some known := by
  have hkey : ∀ entry ∈ known.toList,
      versionOfKey? (Json.encode (Numeral.text entry.1.toNat).toList) = some entry.1 :=
    fun entry _ => versionOfKey?_encode entry.1
  have hname : ∀ entry ∈ known.toList, (Json.ofText entry.2).asText? = some entry.2 :=
    fun entry _ => Json.asText?_ofText entry.2
  have hback := Json.asDict?_ofFields (fun version : UInt32 => Numeral.text version.toNat)
    Json.ofText hkey hname
  exact hback

theorem asDict?_versionsJson (versions : Dict String (Dict UInt32 String)) :
    (versionsJson versions).asDict? Json.lexemeText? (Json.asDict? versionOfKey? Json.asText?) =
      some versions := by
  have hkey : ∀ entry ∈ versions.toList,
      Json.lexemeText? (Json.encode entry.1.toList) = some entry.1 :=
    fun entry _ => Json.lexemeText?_encode entry.1
  have hknown : ∀ entry ∈ versions.toList,
      (namesJson entry.2).asDict? versionOfKey? Json.asText? = some entry.2 :=
    fun entry _ => asDict?_namesJson entry.2
  exact Json.asDict?_ofFields (fun docId => docId) namesJson hkey hknown

theorem isWritten_namesJson (known : Dict UInt32 String) : (namesJson known).IsWritten := by
  apply Json.isWritten_ofFields
  intro field hfield
  obtain ⟨entry, -, rfl⟩ := List.mem_map.1 hfield
  exact Json.isWritten_ofText entry.2

theorem isWritten_toJson (manifest : Manifest) : manifest.toJson.IsWritten := by
  have hversions : (versionsJson manifest.versions).IsWritten := by
    apply Json.isWritten_ofFields
    intro field hfield
    obtain ⟨entry, -, rfl⟩ := List.mem_map.1 hfield
    exact isWritten_namesJson entry.2
  rw [toJson_eq]
  apply Json.isWritten_ofFields
  rw [List.forall_mem_cons, List.forall_mem_singleton]
  exact ⟨Json.isWritten_ofNat _, hversions⟩

theorem ofJson?_toJson (manifest : Manifest) : ofJson? manifest.toJson = some manifest := by
  have hfields : manifest.toJson.asRecord? ["next_chunk_id", "versions"] = some [
      ("versions", versionsJson manifest.versions),
      ("next_chunk_id", Json.ofNat manifest.nextChunkId.toNat)] := by
    rw [toJson_eq]
    exact Json.asRecord?_ofFields _ rfl (by decide)
  simp [ofJson?, hfields, Json.asUInt64?_ofNat, asDict?_versionsJson, List.lookup]

/-- A manifest comes back from the text that is committed for it. -/
theorem ofText?_render (manifest : Manifest) : ofText? manifest.render = some manifest := by
  simp [ofText?, render, Json.ofString?_render (isWritten_toJson manifest), ofJson?_toJson]

end ChunkStore.Index.Manifest
