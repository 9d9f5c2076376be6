import ChunkStore.Proofs.Index.Contents

/-!
# The manifest agrees with the chunks

An index says twice which document versions it holds: in the manifest, and in the chunks themselves.
Insertions and deletions change both, each in its own way.  Here they are shown to stay in agreement
as long as the version keys are short enough to be indexed, so that a deletion finds every chunk of
the versions that it takes out of the manifest.
-/

set_option autoImplicit false

namespace ChunkStore.Index.Contents

open ChunkStore.Engine (numberedChunks)

/-- The manifest and the chunks of an index agree: every entry is a chunk of a recorded version
under its recorded name, no document is recorded without versions, and the chunk ids are distinct
and below the next one. -/
structure Agrees (contents : Contents) : Prop where
  decodes : ∀ entry ∈ contents.entries, ∃ chunk, entry.toChunk = .ok chunk
  recorded : ∀ chunk ∈ contents.chunks,
    contents.manifest.nameOf? chunk.docId chunk.version = some chunk.document
  hasNoEmpty : contents.manifest.HasNoEmpty
  distinct : (contents.chunks.map (·.id)).Nodup
  below : ∀ chunk ∈ contents.chunks, chunk.id < contents.manifest.nextChunkId

/-- Every entry was stored for a chunk and is found under the key of its document version. -/
def IsFindable (contents : Contents) : Prop :=
  ∀ entry ∈ contents.entries, ∃ stopWords chunk, entry = .ofChunk stopWords chunk ∧
    isIndexed (versionKey chunk.docId chunk.version) = true

theorem agrees_empty : empty.Agrees where
  decodes := by intro entry hentry; exact absurd hentry List.not_mem_nil
  recorded := by intro chunk hchunk; exact absurd hchunk List.not_mem_nil
  hasNoEmpty := by intro docId known hfind; exact absurd hfind (by simp [empty, Manifest.empty])
  distinct := List.nodup_nil
  below := by intro chunk hchunk; exact absurd hchunk List.not_mem_nil

theorem isFindable_empty : empty.IsFindable := by
  intro entry hentry
  exact absurd hentry List.not_mem_nil

/-! ### Insertions -/

section Insert

variable {stopWords texts : List String} {maps : List Metadata} {document docId : String}
  {requested : Option UInt32} {contents after : Contents}

theorem isFindable_insert (h : contents.IsFindable)
    (hfits : ∀ version, contents.manifest.resolveVersion docId requested = .ok version →
      isIndexed (versionKey docId version) = true)
    (hinsert : contents.insert stopWords texts maps document docId requested = .ok after) :
    after.IsFindable := by
  obtain ⟨version, -, hversion, -, -, hentries⟩ := insert_inv hinsert
  intro entry hentry
  rw [hentries] at hentry
  rcases List.mem_append.1 hentry with hold | hnew
  · exact h entry hold
  · obtain ⟨chunk, hchunk, rfl⟩ := List.mem_map.1 hnew
    obtain ⟨-, hdoc, hver⟩ := mem_numberedChunks hchunk
    refine ⟨stopWords, chunk, rfl, ?_⟩
    rw [hdoc, hver]
    exact hfits version hversion

/-- The ids that an insertion gives are those from the next chunk id on, as many as chunks. -/
theorem toNat_of_mem_numberedChunks {first : Nat} {version : UInt32} {chunk : Chunk}
    (hroom : first + texts.length < UInt64.size)
    (h : chunk ∈ numberedChunks first document docId version texts maps) :
    first ≤ chunk.id.toNat ∧ chunk.id.toNat < first + texts.length := by
  have hid : chunk.id ∈ (numberedChunks first document docId version texts maps).map (·.id) :=
    List.mem_map_of_mem h
  rw [map_id_numberedChunks] at hid
  obtain ⟨i, hi, heq⟩ := List.mem_map.1 hid
  rw [List.mem_range] at hi
  have hlt : first + i < UInt64.size := by omega
  rw [← heq, UInt64.toNat_ofNat_of_lt' hlt]
  omega

theorem nodup_id_numberedChunks {first : Nat} {version : UInt32}
    (hroom : first + texts.length < UInt64.size) :
    ((numberedChunks first document docId version texts maps).map (·.id)).Nodup := by
  rw [map_id_numberedChunks]
  refine List.Nodup.map_on ?_ List.nodup_range
  intro i hi j hj heq
  rw [List.mem_range] at hi hj
  have hi' : first + i < UInt64.size := by omega
  have hj' : first + j < UInt64.size := by omega
  have hnat := congrArg UInt64.toNat heq
  rw [UInt64.toNat_ofNat_of_lt' hi', UInt64.toNat_ofNat_of_lt' hj'] at hnat
  omega

/-- The ids that an insertion gives are above any that is below the next one. -/
theorem lt_of_mem_numberedChunks {version : UInt32} {id next : UInt64} {chunk : Chunk}
    (hbelow : id < next) (hroom : next.toNat + texts.length < UInt64.size)
    (h : chunk ∈ numberedChunks next.toNat document docId version texts maps) : id < chunk.id := by
  have hlt := UInt64.lt_iff_toNat_lt.1 hbelow
  have habove := (toNat_of_mem_numberedChunks hroom h).1
  rw [UInt64.lt_iff_toNat_lt]
  omega

/-- After an insertion all ids are below the next one if they were so before. -/
theorem below_insert
    (hinsert : contents.insert stopWords texts maps document docId requested = .ok after)
    (hbelow : ∀ chunk ∈ contents.chunks, chunk.id < contents.manifest.nextChunkId) :
    ∀ chunk ∈ after.chunks, chunk.id < after.manifest.nextChunkId := by
  obtain ⟨_, -, -, hroom, -, -⟩ := insert_inv hinsert
  obtain ⟨version, -, hmanifest, hchunks⟩ := chunks_insert hinsert
  have hnext : after.manifest.nextChunkId.toNat =
      contents.manifest.nextChunkId.toNat + texts.length := by
    rw [hmanifest]
    exact UInt64.toNat_ofNat_of_lt' hroom
  intro chunk hchunk
  rw [UInt64.lt_iff_toNat_lt, hnext]
  rw [hchunks] at hchunk
  rcases List.mem_append.1 hchunk with hold | hnew
  · have hlt := UInt64.lt_iff_toNat_lt.1 (hbelow chunk hold)
    omega
  · exact (toNat_of_mem_numberedChunks hroom hnew).2

/-- An insertion leaves the names of the versions that are recorded. -/
theorem nameOf?_insert_of_eq_some
    (hinsert : contents.insert stopWords texts maps document docId requested = .ok after)
    {other name : String} {recorded : UInt32}
    (h : contents.manifest.nameOf? other recorded = some name) :
    after.manifest.nameOf? other recorded = some name := by
  obtain ⟨version, hversion, hmanifest, -⟩ := chunks_insert hinsert
  rw [hmanifest]
  show (contents.manifest.addVersion docId version document).nameOf? other recorded = some name
  rw [Manifest.nameOf?_addVersion]
  split
  · next hboth =>
    -- The version that is given is new, so it is not the recorded one.
    rw [hboth.1, hboth.2, Manifest.nameOf?_of_resolveVersion hversion] at h
    exact absurd h (by simp)
  · exact h

/-- The chunks after an insertion were there before, or are recorded under the name that was
given. -/
theorem mem_chunks_insert
    (hinsert : contents.insert stopWords texts maps document docId requested = .ok after)
    {chunk : Chunk} (hchunk : chunk ∈ after.chunks) :
    chunk ∈ contents.chunks ∨
      after.manifest.nameOf? chunk.docId chunk.version = some chunk.document := by
  obtain ⟨version, hversion, hmanifest, hchunks⟩ := chunks_insert hinsert
  rw [hchunks] at hchunk
  rcases List.mem_append.1 hchunk with hold | hnew
  · exact .inl hold
  · obtain ⟨hdocument, hdoc, hver⟩ := mem_numberedChunks hnew
    refine .inr ?_
    rw [hmanifest]
    show (contents.manifest.addVersion docId version document).nameOf? _ _ = _
    rw [Manifest.nameOf?_addVersion, if_pos ⟨hdoc, hver⟩, hdocument]

theorem recorded_insert (h : contents.Agrees)
    (hinsert : contents.insert stopWords texts maps document docId requested = .ok after) :
    ∀ chunk ∈ after.chunks,
      after.manifest.nameOf? chunk.docId chunk.version = some chunk.document := by
  intro chunk hchunk
  rcases mem_chunks_insert hinsert hchunk with hold | hnew
  · exact nameOf?_insert_of_eq_some hinsert (h.recorded chunk hold)
  · exact hnew

theorem agrees_insert (h : contents.Agrees)
    (hinsert : contents.insert stopWords texts maps document docId requested = .ok after) :
    after.Agrees := by
  obtain ⟨_, -, -, hroom, -, hentries⟩ := insert_inv hinsert
  obtain ⟨version, -, hmanifest, hchunks⟩ := chunks_insert hinsert
  exact {
    decodes := by
      intro entry hentry
      rw [hentries] at hentry
      rcases List.mem_append.1 hentry with hold | hnew
      · exact h.decodes entry hold
      · obtain ⟨chunk, -, rfl⟩ := List.mem_map.1 hnew
        exact ⟨chunk, Entry.toChunk_ofChunk stopWords chunk⟩
    recorded := recorded_insert h hinsert
    hasNoEmpty := by
      rw [hmanifest]
      exact Manifest.hasNoEmpty_addVersion h.hasNoEmpty docId version document
    distinct := by
      rw [hchunks, List.map_append, List.nodup_append]
      refine ⟨h.distinct, nodup_id_numberedChunks hroom, ?_⟩
      intro old hold new hnew
      obtain ⟨chunk, hchunk, rfl⟩ := List.mem_map.1 hold
      obtain ⟨chunk', hchunk', rfl⟩ := List.mem_map.1 hnew
      intro heq
      have hlt := lt_of_mem_numberedChunks (h.below chunk hchunk) hroom hchunk'
      rw [heq] at hlt
      exact UInt64.lt_irrefl _ hlt
    below := below_insert hinsert h.below }

end Insert

/-! ### Deletions -/

section Delete

variable {docId : String} {keepLatest : Bool} {contents after : Contents}

theorem isFindable_delete (h : contents.IsFindable)
    (hdelete : contents.delete docId keepLatest = some after) : after.IsFindable := by
  intro entry hentry
  rw [(delete_inv hdelete).2] at hentry
  exact h entry (List.mem_filter.1 hentry).1

/-- An entry that is found under its version key stays exactly if its version does. -/
theorem all_not_hasTerm_ofChunk {stopWords : List String} {chunk : Chunk}
    (hindexed : isIndexed (versionKey chunk.docId chunk.version) = true)
    (doomed : List UInt32) :
    ((doomed.map (versionKey docId)).all fun key =>
        !(Entry.ofChunk stopWords chunk).hasTerm .versionKey key) =
      !decide (chunk.docId = docId ∧ chunk.version ∈ doomed) := by
  rw [Bool.eq_iff_iff]
  simp only [List.all_eq_true, List.mem_map, Bool.not_eq_true', decide_eq_false_iff_not,
    forall_exists_index, and_imp, forall_apply_eq_imp_iff₂]
  constructor
  · rintro hall ⟨rfl, hmem⟩
    have hfound := hall chunk.version hmem
    rw [Entry.hasTerm_versionKey_ofChunk, hindexed] at hfound
    simp at hfound
  · intro hnot version hversion
    rw [Entry.hasTerm_versionKey_ofChunk]
    by_contra hfound
    simp only [Bool.not_eq_false, Bool.and_eq_true, beq_iff_eq] at hfound
    obtain ⟨hdoc, hver⟩ := eq_of_versionKey_eq hfound.2
    exact hnot ⟨hdoc.symm, hver ▸ hversion⟩

/-- A deletion takes out the chunks of the versions that it takes out of the manifest, and no
others. -/
theorem chunks_delete (h : contents.IsFindable)
    (hdelete : contents.delete docId keepLatest = some after) :
    after.chunks = contents.chunks.filter fun chunk =>
      !decide (chunk.docId = docId ∧ chunk.version ∈ contents.doomed docId keepLatest) := by
  unfold chunks
  rw [(delete_inv hdelete).2, List.filterMap_filter, List.filter_filterMap]
  apply List.filterMap_congr
  intro entry hentry
  obtain ⟨stopWords, chunk, rfl, hindexed⟩ := h entry hentry
  rw [all_not_hasTerm_ofChunk hindexed, Entry.toChunk_ofChunk]
  rfl

theorem agrees_delete (h : contents.Agrees) (hfindable : contents.IsFindable)
    (hdelete : contents.delete docId keepLatest = some after) : after.Agrees := by
  obtain ⟨hmanifest, hentries⟩ := delete_inv hdelete
  have hchunks := chunks_delete hfindable hdelete
  have hsub : after.chunks.Sublist contents.chunks := by
    rw [hchunks]
    exact List.filter_sublist
  refine ⟨?_, ?_, ?_, ?_, ?_⟩
  · intro entry hentry
    rw [hentries] at hentry
    exact h.decodes entry (List.mem_filter.1 hentry).1
  · intro chunk hchunk
    rw [hchunks, List.mem_filter] at hchunk
    obtain ⟨hold, hstays⟩ := hchunk
    simp only [Bool.not_eq_true', decide_eq_false_iff_not] at hstays
    rw [hmanifest, Manifest.nameOf?_removeVersions, if_neg hstays]
    exact h.recorded chunk hold
  · rw [hmanifest]
    exact Manifest.hasNoEmpty_removeVersions h.hasNoEmpty _ _
  · exact h.distinct.sublist (hsub.map _)
  · intro chunk hchunk
    rw [hmanifest]
    exact h.below chunk (hsub.subset hchunk)

end Delete

end ChunkStore.Index.Contents
