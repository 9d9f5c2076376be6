import ChunkStore.Proofs.Index.StoredChunk
import Mathlib

/-!
# Every schema stores every chunk

Which number a field has is decided by the schema.  A schema resolves exactly if it has all the
fields, in whatever order and whatever else it has, and then different fields have different
numbers.  So every chunk comes back from its record under every schema that resolves.  The text that
metadata is stored as is canonical: it depends on the entries alone and not on the order in which
they come, and different entries give different texts.
-/

set_option autoImplicit false

namespace ChunkStore

/-- Entries with different keys give the same dictionary in whatever order they are put in. -/
theorem Dict.ofList_eq_of_perm {κ α : Type} [Ord κ] [Std.TransOrd κ] [Std.LawfulEqOrd κ]
    [DecidableEq κ] {entries entries' : List (κ × α)} (hperm : entries.Perm entries')
    (hkeys : (entries.map Prod.fst).Nodup) : ofList entries = ofList entries' := by
  apply hperm.foldl_eq'
  intro first hfirst second hsecond dict
  by_cases heq : first = second
  · rw [heq]
  · have hne : first.1 ≠ second.1 :=
      fun hkey => heq (List.inj_on_of_nodup_map hkeys hfirst hsecond hkey)
    apply ext_find?
    intro key
    simp only [find?_insert]
    split
    · next hkey =>
      have hother : key ≠ first.1 := fun h => hne (h.symm.trans hkey)
      rw [if_neg hother]
    · rfl

namespace Index

theorem Field.name_injective {field field' : Field} (h : field.name = field'.name) :
    field = field' := by
  revert h
  cases field <;> cases field' <;> decide

namespace FieldNumbers

variable {schema : List String} {numbers : FieldNumbers}

theorem place_eq_ok_iff {field : Field} {number : Nat} :
    place schema field = .ok number ↔ schema.idxOf? field.name = some number := by
  unfold place
  cases schema.idxOf? field.name <;> simp

theorem exists_place_iff {field : Field} :
    (∃ number, place schema field = .ok number) ↔ field.name ∈ schema := by
  simp only [place_eq_ok_iff, ← Option.isSome_iff_exists, List.isSome_idxOf?]

/-- A schema resolves to the places of the fields. -/
theorem resolve_eq_ok_iff :
    resolve schema = .ok numbers ↔ ∀ field, place schema field = .ok (numbers.of field) := by
  constructor
  · intro h
    unfold resolve at h
    obtain ⟨chunkId, hchunkId, h⟩ := bind_eq_ok_iff.1 h
    obtain ⟨docId, hdocId, h⟩ := bind_eq_ok_iff.1 h
    obtain ⟨versionKey, hversionKey, h⟩ := bind_eq_ok_iff.1 h
    obtain ⟨document, hdocument, h⟩ := bind_eq_ok_iff.1 h
    obtain ⟨version, hversion, h⟩ := bind_eq_ok_iff.1 h
    obtain ⟨text, htext, h⟩ := bind_eq_ok_iff.1 h
    obtain ⟨metadata, hmetadata, h⟩ := bind_eq_ok_iff.1 h
    obtain rfl := Except.ok.inj h
    intro field
    cases field <;> assumption
  · intro h
    have hall : ∀ field, place schema field = .ok (numbers.of field) := h
    simp only [resolve, hall, bind, Except.bind, pure, Except.pure]
    rfl

/-- A schema resolves exactly if it has all the fields. -/
theorem exists_resolve_iff :
    (∃ numbers, resolve schema = .ok numbers) ↔ ∀ field : Field, field.name ∈ schema := by
  constructor
  · rintro ⟨numbers, h⟩ field
    exact exists_place_iff.1 ⟨_, resolve_eq_ok_iff.1 h field⟩
  · intro h
    have hplaces : ∀ field, ∃ number, place schema field = .ok number :=
      fun field => exists_place_iff.2 (h field)
    choose number hnumber using hplaces
    refine ⟨⟨number .chunkId, number .docId, number .versionKey, number .document, number .version,
      number .text, number .metadata⟩, resolve_eq_ok_iff.2 ?_⟩
    intro field
    rw [hnumber]
    cases field <;> rfl

theorem areDistinct_of_resolve (h : resolve schema = .ok numbers) : numbers.AreDistinct := by
  intro field field' heq
  have hplace := place_eq_ok_iff.1 (resolve_eq_ok_iff.1 h field)
  have hplace' := place_eq_ok_iff.1 (resolve_eq_ok_iff.1 h field')
  obtain ⟨hlt, hname, -⟩ := List.idxOf?_eq_some_iff.1 hplace
  obtain ⟨hlt', hname', -⟩ := List.idxOf?_eq_some_iff.1 hplace'
  apply Field.name_injective
  rw [← hname, ← hname']
  simp only [heq]

end FieldNumbers

namespace Record

/-- Metadata is stored as the same text exactly if it has the same value at every key. -/
theorem metadataText_eq_iff (metadata metadata' : Metadata) :
    metadataText metadata = metadataText metadata' ↔
      ∀ key, metadata.find? key = metadata'.find? key := by
  constructor
  · intro htext key
    have hback := metadataOfText?_metadataText metadata
    rw [htext, metadataOfText?_metadataText, Option.some.injEq] at hback
    rw [hback]
  · intro hfind
    rw [Dict.ext_find? hfind]

/-- A schema resolves exactly if it has all the fields, and then every chunk comes back from its
record as it was, those included that were read from a record before.  Metadata is stored as a text
that depends on its entries and not on their order, and that is another one if a single entry is. -/
theorem chunk_comes_back_under_every_schema (schema : List String) :
    ((∃ numbers, FieldNumbers.resolve schema = .ok numbers) ↔
        ∀ field : Field, field.name ∈ schema) ∧
      ∀ numbers, FieldNumbers.resolve schema = .ok numbers →
        (∀ chunk, toChunk numbers (ofChunk numbers chunk) = .ok chunk) ∧
          (∀ entries entries' : List (String × Metadata.Value), entries.Perm entries' →
            (entries.map Prod.fst).Nodup →
              metadataText (Dict.ofList entries) = metadataText (Dict.ofList entries')) ∧
          (∀ metadata metadata', metadataText metadata = metadataText metadata' ↔
            ∀ key, metadata.find? key = metadata'.find? key) ∧
          ∀ record chunk, toChunk numbers record = .ok chunk →
            toChunk numbers (ofChunk numbers chunk) = .ok chunk := by
  refine ⟨FieldNumbers.exists_resolve_iff, ?_⟩
  intro numbers hresolve
  have hdistinct := FieldNumbers.areDistinct_of_resolve hresolve
  refine ⟨?_, ?_, metadataText_eq_iff, ?_⟩
  · intro chunk
    exact toChunk_ofChunk_of_areDistinct hdistinct chunk
  · intro entries entries' hperm hkeys
    rw [Dict.ofList_eq_of_perm hperm hkeys]
  · intro record chunk _
    exact toChunk_ofChunk_of_areDistinct hdistinct chunk

/-- A schema with the fields in another order and one more among them. -/
def shuffledSchema : List String :=
  ["text", "metadata", "note", "doc_version", "document", "doc_key", "doc_id", "chunk_id"]

/-- A chunk with null characters, the highest numbers, a NaN with a payload and a negative zero. -/
def oddChunk : Chunk :=
  ⟨0xFFFFFFFFFFFFFFFF, "\x00\"", "\\", "\x1f1", 0xFFFFFFFF,
    .ofList [("b", .float ⟨0x7FF4000000000001⟩), ("a", .float ⟨0x8000000000000000⟩)]⟩

theorem oddChunk_comes_back :
    FieldNumbers.resolve shuffledSchema = .ok ⟨7, 6, 5, 4, 3, 0, 1⟩ ∧
      toChunk ⟨7, 6, 5, 4, 3, 0, 1⟩ (ofChunk ⟨7, 6, 5, 4, 3, 0, 1⟩ oddChunk) = .ok oddChunk := by
  have hresolve : FieldNumbers.resolve shuffledSchema = .ok ⟨7, 6, 5, 4, 3, 0, 1⟩ := rfl
  obtain ⟨hback, -⟩ := (chunk_comes_back_under_every_schema shuffledSchema).2 _ hresolve
  exact ⟨hresolve, hback oddChunk⟩

end Record

end Index

end ChunkStore
