import ChunkStore.Proofs.Index.Agreement

/-!
# What an insertion adds

An insertion that finds as many metadata maps as texts, and enough chunk ids left, comes down to its
version: it is refused if the version that is asked for is recorded, or, where none is asked for, if
the highest possible version is.  Otherwise the index gains the version and one chunk for each text,
numbered from the next chunk id on, and nothing that was there before changes.
-/

set_option autoImplicit false

namespace ChunkStore.Index

open ChunkStore.Engine (numberedChunks)

namespace Contents

variable {stopWords texts : List String} {maps : List Metadata} {document docId : String}
  {requested : Option UInt32} {contents after : Contents}

/-! ### The chunks that are added -/

theorem map_draft_numberedChunks (first : Nat) (document docId : String) (version : UInt32)
    (hcount : texts.length = maps.length) :
    (numberedChunks first document docId version texts maps).map (·.text) = texts ∧
      (numberedChunks first document docId version texts maps).map (·.metadata) = maps := by
  constructor
  · apply List.ext_getElem
    · simp [numberedChunks, hcount]
    · intro i _ _
      simp [numberedChunks]
  · apply List.ext_getElem
    · simp [numberedChunks, hcount]
    · intro i _ _
      simp [numberedChunks]

/-- The ids that an insertion gives are consecutive in the order of the chunks. -/
theorem map_toNat_numberedChunks {first : Nat} {version : UInt32}
    (hcount : texts.length = maps.length) (hroom : first + texts.length < UInt64.size) :
    ((numberedChunks first document docId version texts maps).map (·.id)).map UInt64.toNat =
      (List.range texts.length).map (first + ·) := by
  rw [map_id_numberedChunks, ← hcount, Nat.min_self, List.map_map]
  apply List.map_congr_left
  intro i hi
  have hlt : i < texts.length := List.mem_range.1 hi
  have hid : first + i < UInt64.size := by omega
  exact UInt64.toNat_ofNat_of_lt' hid

/-- The chunks of a document version: one for each text, with its metadata, and with consecutive ids
from `first` on. -/
structure AreChunksOf (first : Nat) (texts : List String) (maps : List Metadata)
    (document docId : String) (version : UInt32) (chunks : List Chunk) : Prop where
  ids : chunks.map (·.id.toNat) = (List.range texts.length).map (first + ·)
  texts : chunks.map (·.text) = texts
  maps : chunks.map (·.metadata) = maps
  version : ∀ chunk ∈ chunks,
    chunk.document = document ∧ chunk.docId = docId ∧ chunk.version = version

theorem areChunksOf_numberedChunks {first : Nat} {version : UInt32}
    (hcount : texts.length = maps.length) (hroom : first + texts.length < UInt64.size) :
    AreChunksOf first texts maps document docId version
      (numberedChunks first document docId version texts maps) where
  ids := by
    rw [← map_toNat_numberedChunks hcount hroom, List.map_map]
    rfl
  texts := (map_draft_numberedChunks first document docId version hcount).1
  maps := (map_draft_numberedChunks first document docId version hcount).2
  version := fun _ hchunk => mem_numberedChunks hchunk

/-! ### What becomes of the index -/

/-- What an insertion that is done has made of an index.  The chunks of a version that was not
recorded came behind those that were there, the manifest has gained that version and nothing else,
and as many chunk ids are used up as there are texts. -/
structure Inserted (texts : List String) (maps : List Metadata) (document docId : String)
    (version : UInt32) (before after : Contents) : Prop where
  isNew : before.manifest.nameOf? docId version = none
  chunks : ∃ added, after.chunks = before.chunks ++ added ∧
    AreChunksOf before.manifest.nextChunkId.toNat texts maps document docId version added
  nextChunkId : after.manifest.nextChunkId.toNat =
    before.manifest.nextChunkId.toNat + texts.length
  names : ∀ other known, after.manifest.nameOf? other known =
    if other = docId ∧ known = version then some document
    else before.manifest.nameOf? other known
  others : ∀ other, other ≠ docId →
    after.manifest.versions.find? other = before.manifest.versions.find? other

theorem inserted_of_insert
    (h : contents.insert stopWords texts maps document docId requested = .ok after) :
    ∃ version, contents.manifest.Gives docId requested version ∧
      Inserted texts maps document docId version contents after := by
  obtain ⟨_, hcount, -, hroom, -, -⟩ := insert_inv h
  obtain ⟨version, hversion, hmanifest, hchunks⟩ := chunks_insert h
  refine ⟨version, Manifest.gives_of_resolveVersion hversion, ?_, ?_, ?_, ?_, ?_⟩
  · exact Manifest.nameOf?_of_resolveVersion hversion
  · exact ⟨_, hchunks, areChunksOf_numberedChunks hcount hroom⟩
  · rw [hmanifest]
    exact UInt64.toNat_ofNat_of_lt' hroom
  · intro other known
    rw [hmanifest]
    exact contents.manifest.nameOf?_addVersion docId version document other known
  · intro other hne
    rw [hmanifest]
    show (contents.manifest.versions.insert docId _).find? other = _
    rw [Dict.find?_insert, if_neg hne]

/-- With a metadata map for each text and chunk ids left, an insertion is refused exactly if the
document gets no version. -/
theorem insert_cases (contents : Contents) (stopWords : List String) (document docId : String)
    (requested : Option UInt32) (hcount : texts.length = maps.length)
    (hroom : contents.manifest.nextChunkId.toNat + texts.length < UInt64.size) :
    (contents.manifest.Takes docId requested ∧ ∃ after,
        contents.insert stopWords texts maps document docId requested = .ok after) ∨
      ¬contents.manifest.Takes docId requested ∧ ∃ fault,
        contents.insert stopWords texts maps document docId requested =
          .error (.version fault) := by
  unfold insert
  rw [if_neg (not_not_intro hcount)]
  cases hversion : contents.manifest.resolveVersion docId requested with
  | ok version =>
    refine .inl ⟨(Manifest.gives_of_resolveVersion hversion).takes, ?_⟩
    exact ⟨_, if_neg (Nat.not_le_of_lt hroom)⟩
  | error fault =>
    refine .inr ⟨?_, fault, rfl⟩
    intro htakes
    obtain ⟨version, hok⟩ := htakes.exists_resolveVersion
    rw [hversion] at hok
    exact absurd hok (by simp)

end Contents

end ChunkStore.Index
