import ChunkStore.Engine.Changing
import ChunkStore.Proofs.Index.Changes
import ChunkStore.Proofs.Index.Versions

/-!
# Insertions and deletions as functions of what an index holds

What an index holds is a manifest and segments.  Whether a call is refused and what it makes of the
index depends on nothing else but the stop words.  Here both calls are such functions, with what
they do to the chunks: an insertion adds numbered chunks, a deletion takes out the chunks of some
versions of one document.
-/

set_option autoImplicit false

namespace ChunkStore.Index

open ChunkStore.Engine (numberedChunks)

/-- What an index holds. -/
structure Contents where
  manifest : Manifest
  segments : List Segment

namespace Contents

/-- An index that never had a chunk. -/
def empty : Contents :=
  ⟨.empty, []⟩

/-- All entries. -/
def entries (contents : Contents) : List Entry :=
  contents.segments.flatten

/-- The chunks of the entries that are chunks. -/
def chunks (contents : Contents) : List Chunk :=
  contents.entries.filterMap fun entry => entry.toChunk.toOption

/-- The contents as they are committed. -/
def toCommit (contents : Contents) : Commit :=
  ⟨contents.segments, some contents.manifest.render⟩

/-- What an insertion makes of an index, or why it is refused. -/
def insert (stopWords : List String) (texts : List String) (maps : List Metadata)
    (document docId : String) (requested : Option UInt32) (contents : Contents) :
    Except EngineFault Contents :=
  if texts.length ≠ maps.length then .error (.countMismatch texts.length maps.length)
  else
    match contents.manifest.resolveVersion docId requested with
    | .error fault => .error (.version fault)
    | .ok version =>
      let first := contents.manifest.nextChunkId.toNat
      let next := first + texts.length
      if UInt64.size ≤ next then .error .idsExhausted
      else
        let manifest := contents.manifest.addVersion docId version document
        let added := (numberedChunks first document docId version texts maps).map
          (Entry.ofChunk stopWords)
        .ok ⟨{ manifest with nextChunkId := UInt64.ofNat next },
          Change.applyAll (added.map .add) contents.segments⟩

/-- The versions of a document that a deletion takes out. -/
def doomed (docId : String) (keepLatest : Bool) (contents : Contents) : List UInt32 :=
  let known := (contents.manifest.versionsOf docId).keys
  if keepLatest then known.dropLast else known

/-- What a deletion makes of an index, unless there is nothing to delete. -/
def delete (docId : String) (keepLatest : Bool) (contents : Contents) : Option Contents :=
  let doomed := contents.doomed docId keepLatest
  if doomed.isEmpty then none
  else some ⟨contents.manifest.removeVersions docId doomed,
    Change.applyAll ((doomed.map (versionKey docId)).map .removeKey) contents.segments⟩

/-! ### What an insertion does -/

section Insert

variable {stopWords texts : List String} {maps : List Metadata} {document docId : String}
  {requested : Option UInt32} {contents after : Contents}

/-- All that an insertion that is not refused asks for and does. -/
theorem insert_inv
    (h : contents.insert stopWords texts maps document docId requested = .ok after) :
    ∃ version, texts.length = maps.length ∧
      contents.manifest.resolveVersion docId requested = .ok version ∧
      contents.manifest.nextChunkId.toNat + texts.length < UInt64.size ∧
      after.manifest = { contents.manifest.addVersion docId version document with
        nextChunkId := UInt64.ofNat (contents.manifest.nextChunkId.toNat + texts.length) } ∧
      after.entries = contents.entries ++
        (numberedChunks contents.manifest.nextChunkId.toNat document docId version texts maps).map
          (Entry.ofChunk stopWords) := by
  unfold insert at h
  split at h
  · exact absurd h (by simp)
  · next hcount =>
    split at h
    · exact absurd h (by simp)
    · next version hversion =>
      simp only at h
      split at h
      · exact absurd h (by simp)
      · next hroom =>
        simp only [Except.ok.injEq] at h
        subst h
        exact ⟨version, Decidable.not_not.1 hcount, hversion, Nat.lt_of_not_le hroom, rfl,
          Change.flatten_applyAll_add _ _⟩

theorem length_numberedChunks (first : Nat) (document docId : String) (version : UInt32)
    (texts : List String) (maps : List Metadata) :
    (numberedChunks first document docId version texts maps).length =
      min texts.length maps.length := by
  simp [numberedChunks]

theorem map_id_numberedChunks (first : Nat) (document docId : String) (version : UInt32)
    (texts : List String) (maps : List Metadata) :
    (numberedChunks first document docId version texts maps).map (·.id) =
      (List.range (min texts.length maps.length)).map fun i => UInt64.ofNat (first + i) := by
  apply List.ext_getElem
  · simp [numberedChunks]
  · intro i _ _
    simp [numberedChunks]

theorem mem_numberedChunks {first : Nat} {version : UInt32} {chunk : Chunk}
    (h : chunk ∈ numberedChunks first document docId version texts maps) :
    chunk.document = document ∧ chunk.docId = docId ∧ chunk.version = version := by
  unfold numberedChunks at h
  obtain ⟨i, hi, rfl⟩ := List.mem_mapIdx.1 h
  exact ⟨rfl, rfl, rfl⟩

end Insert

theorem filterMap_toChunk_map_ofChunk (stopWords : List String) (chunks : List Chunk) :
    (chunks.map (Entry.ofChunk stopWords)).filterMap (fun entry => entry.toChunk.toOption) =
      chunks := by
  rw [List.filterMap_map]
  have hback : (fun entry : Entry => entry.toChunk.toOption) ∘ Entry.ofChunk stopWords = some := by
    funext chunk
    simp [Except.toOption]
  rw [hback, List.filterMap_some]

/-- An insertion records one version and adds its chunks, numbered from the next chunk id on. -/
theorem chunks_insert {stopWords texts : List String} {maps : List Metadata}
    {document docId : String} {requested : Option UInt32} {contents after : Contents}
    (h : contents.insert stopWords texts maps document docId requested = .ok after) :
    ∃ version, contents.manifest.resolveVersion docId requested = .ok version ∧
      after.manifest = { contents.manifest.addVersion docId version document with
        nextChunkId := UInt64.ofNat (contents.manifest.nextChunkId.toNat + texts.length) } ∧
      after.chunks = contents.chunks ++
        numberedChunks contents.manifest.nextChunkId.toNat document docId version texts maps := by
  obtain ⟨version, -, hversion, -, hmanifest, hentries⟩ := insert_inv h
  refine ⟨version, hversion, hmanifest, ?_⟩
  unfold chunks
  rw [hentries, List.filterMap_append, filterMap_toChunk_map_ofChunk]

/-! ### What a deletion does -/

theorem delete_inv {docId : String} {keepLatest : Bool} {contents after : Contents}
    (h : contents.delete docId keepLatest = some after) :
    after.manifest = contents.manifest.removeVersions docId (contents.doomed docId keepLatest) ∧
      after.entries = contents.entries.filter fun entry =>
        ((contents.doomed docId keepLatest).map (versionKey docId)).all
          fun key => !entry.hasTerm .versionKey key := by
  unfold delete at h
  simp only at h
  split at h
  · exact absurd h (by simp)
  · simp only [Option.some.injEq] at h
    subst h
    exact ⟨rfl, Change.flatten_applyAll_removeKey _ _⟩

end Contents

end ChunkStore.Index
