import ChunkStore.Proofs.Index.Agreement

/-!
# What an index holds of one document

Insertions and deletions name a document.  Whether they are refused and what they make of this
document depends on nothing else that the index holds, up to the ids of the chunks, and what the
index holds of other documents stays.  For deletions this needs that a version key tells the
document, and that whether a key is indexed depends on the key alone.
-/

set_option autoImplicit false

namespace ChunkStore

/-- A chunk as it is whatever its id. -/
def Chunk.unnumbered (chunk : Chunk) : Chunk :=
  { chunk with id := 0 }

namespace Index

open ChunkStore.Engine (numberedChunks)

namespace Manifest

variable {docId : String} {manifest manifest' : Manifest}

theorem resolveVersion_congr (h : manifest.versionsOf docId = manifest'.versionsOf docId)
    (requested : Option UInt32) :
    manifest.resolveVersion docId requested = manifest'.resolveVersion docId requested := by
  unfold resolveVersion latest?
  rw [h]

theorem versionsOf_addVersion (manifest : Manifest) (docId : String) (version : UInt32)
    (document other : String) :
    (manifest.addVersion docId version document).versionsOf other =
      if other = docId then (manifest.versionsOf docId).insert version document
      else manifest.versionsOf other := by
  unfold addVersion versionsOf
  dsimp only
  rw [Dict.find?_insert]
  split
  · rfl
  · rfl

theorem HasNoEmpty.find?_versions (h : manifest.HasNoEmpty) (docId : String) :
    manifest.versions.find? docId =
      if (manifest.versionsOf docId).keys = [] then none else some (manifest.versionsOf docId) := by
  unfold versionsOf
  cases hknown : manifest.versions.find? docId with
  | none => rfl
  | some known => rw [Option.getD_some, if_neg (h docId known hknown)]

/-- Manifests without empty documents record the same if they do so for each document. -/
theorem HasNoEmpty.versions_eq (h : manifest.HasNoEmpty) (h' : manifest'.HasNoEmpty)
    (hsame : ∀ docId, manifest.versionsOf docId = manifest'.versionsOf docId) :
    manifest.versions = manifest'.versions := by
  apply Dict.ext_find?
  intro docId
  rw [h.find?_versions, h'.find?_versions, hsame docId]

theorem HasNoEmpty.sources_eq (h : manifest.HasNoEmpty) (h' : manifest'.HasNoEmpty)
    (hsame : ∀ docId, manifest.versionsOf docId = manifest'.versionsOf docId) :
    manifest.sources = manifest'.sources := by
  unfold sources
  rw [h.versions_eq h' hsame]

end Manifest

namespace Contents

/-- The chunks of a document. -/
def chunksOf (docId : String) (contents : Contents) : List Chunk :=
  contents.chunks.filter fun chunk => chunk.docId = docId

/-- The chunks of a document version. -/
def chunksOfVersion (docId : String) (version : UInt32) (contents : Contents) : List Chunk :=
  (contents.chunksOf docId).filter fun chunk => chunk.version = version

/-- Two indexes hold the same of a document: the same versions under the same names, and the same
chunks in the same order, maybe with other ids. -/
structure SameDocument (docId : String) (first second : Contents) : Prop where
  versions : first.manifest.versionsOf docId = second.manifest.versionsOf docId
  chunks : (first.chunksOf docId).map Chunk.unnumbered =
    (second.chunksOf docId).map Chunk.unnumbered

/-- Every entry was stored for a chunk, the ids of the chunks grow and are below the next one, and
no document is recorded without versions. -/
structure IsOrderly (contents : Contents) : Prop where
  stored : ∀ entry ∈ contents.entries, ∃ stopWords chunk, entry = .ofChunk stopWords chunk
  ascending : contents.chunks.Pairwise fun chunk later => chunk.id < later.id
  below : ∀ chunk ∈ contents.chunks, chunk.id < contents.manifest.nextChunkId
  hasNoEmpty : contents.manifest.HasNoEmpty

variable {docId other : String} {first second third contents after : Contents}

theorem SameDocument.refl (docId : String) (contents : Contents) :
    SameDocument docId contents contents :=
  ⟨rfl, rfl⟩

theorem SameDocument.symm (h : SameDocument docId first second) :
    SameDocument docId second first :=
  ⟨h.versions.symm, h.chunks.symm⟩

theorem SameDocument.trans (h : SameDocument docId first second)
    (h' : SameDocument docId second third) : SameDocument docId first third :=
  ⟨h.versions.trans h'.versions, h.chunks.trans h'.chunks⟩

theorem SameDocument.chunksOfVersion (h : SameDocument docId first second) (version : UInt32) :
    (first.chunksOfVersion docId version).map Chunk.unnumbered =
      (second.chunksOfVersion docId version).map Chunk.unnumbered := by
  have hfilter : ∀ chunks : List Chunk,
      (chunks.filter fun chunk => chunk.version = version).map Chunk.unnumbered =
        (chunks.map Chunk.unnumbered).filter fun chunk => chunk.version = version := by
    intro chunks
    rw [List.filter_map]
    rfl
  unfold Contents.chunksOfVersion
  rw [hfilter, hfilter, h.chunks]

theorem IsOrderly.ascending_chunksOfVersion (h : contents.IsOrderly) (docId : String)
    (version : UInt32) :
    (contents.chunksOfVersion docId version).Pairwise fun chunk later => chunk.id < later.id :=
  h.ascending.sublist (List.filter_sublist.trans List.filter_sublist)

theorem isOrderly_empty : empty.IsOrderly where
  stored := by intro entry hentry; exact absurd hentry List.not_mem_nil
  ascending := List.Pairwise.nil
  below := by intro chunk hchunk; exact absurd hchunk List.not_mem_nil
  hasNoEmpty := by intro docId known hfind; exact absurd hfind (by simp [empty, Manifest.empty])

/-! ### Insertions -/

section Insert

variable {stopWords texts : List String} {maps : List Metadata} {document : String}
  {requested : Option UInt32}

/-- Without their ids, the chunks of an insertion do not depend on where the ids begin. -/
theorem map_unnumbered_numberedChunks (start : Nat) (document docId : String) (version : UInt32)
    (texts : List String) (maps : List Metadata) :
    (numberedChunks start document docId version texts maps).map Chunk.unnumbered =
      (texts.zip maps).map fun (text, metadata) =>
        ⟨0, text, document, docId, version, metadata⟩ := by
  apply List.ext_getElem
  · simp [numberedChunks]
  · intro i _ _
    simp [numberedChunks, Chunk.unnumbered]

/-- The ids of the chunks of an insertion grow. -/
theorem ascending_numberedChunks {start : Nat} {version : UInt32}
    (hroom : start + texts.length < UInt64.size) :
    (numberedChunks start document docId version texts maps).Pairwise
      fun chunk later => chunk.id < later.id := by
  rw [← List.pairwise_map (f := Chunk.id) (R := (· < ·)), map_id_numberedChunks, List.pairwise_map]
  refine List.pairwise_lt_range.imp_of_mem ?_
  intro i j hi hj hlt
  rw [List.mem_range] at hi hj
  rw [UInt64.lt_iff_toNat_lt, UInt64.toNat_ofNat_of_lt' (by omega),
    UInt64.toNat_ofNat_of_lt' (by omega)]
  omega

theorem chunksOf_insert
    (h : contents.insert stopWords texts maps document docId requested = .ok after) :
    ∃ version, contents.manifest.resolveVersion docId requested = .ok version ∧
      (∀ other, after.manifest.versionsOf other =
        if other = docId then (contents.manifest.versionsOf docId).insert version document
        else contents.manifest.versionsOf other) ∧
      ∀ other, (after.chunksOf other).map Chunk.unnumbered =
        (contents.chunksOf other).map Chunk.unnumbered ++
          if other = docId then (texts.zip maps).map fun (text, metadata) =>
            ⟨0, text, document, docId, version, metadata⟩
          else [] := by
  obtain ⟨version, hversion, hmanifest, hchunks⟩ := chunks_insert h
  refine ⟨version, hversion, ?_, ?_⟩
  · intro other
    rw [hmanifest]
    exact Manifest.versionsOf_addVersion contents.manifest docId version document other
  · intro other
    unfold chunksOf
    rw [hchunks, List.filter_append, List.map_append, ← map_unnumbered_numberedChunks
      contents.manifest.nextChunkId.toNat]
    congr 1
    split
    · next heq =>
      rw [List.filter_eq_self.2]
      intro chunk hchunk
      rw [decide_eq_true_iff, heq]
      exact (mem_numberedChunks hchunk).2.1
    · next hne =>
      rw [List.filter_eq_nil_iff.2]
      · rfl
      · intro chunk hchunk hother
        rw [decide_eq_true_iff, (mem_numberedChunks hchunk).2.1] at hother
        exact hne hother.symm

/-- An insertion leaves all other documents. -/
theorem sameDocument_insert_of_ne
    (h : contents.insert stopWords texts maps document docId requested = .ok after)
    (hne : other ≠ docId) : SameDocument other contents after := by
  obtain ⟨version, -, hversions, hchunks⟩ := chunksOf_insert h
  refine ⟨?_, ?_⟩
  · rw [hversions, if_neg hne]
  · rw [hchunks, if_neg hne, List.append_nil]

theorem IsOrderly.insert (h : contents.IsOrderly)
    (hinsert : contents.insert stopWords texts maps document docId requested = .ok after) :
    after.IsOrderly := by
  obtain ⟨_, -, -, hroom, -, hentries⟩ := insert_inv hinsert
  obtain ⟨version, -, hmanifest, hchunks⟩ := chunks_insert hinsert
  refine ⟨?_, ?_, below_insert hinsert h.below, ?_⟩
  · intro entry hentry
    rw [hentries] at hentry
    rcases List.mem_append.1 hentry with hold | hnew
    · exact h.stored entry hold
    · obtain ⟨chunk, -, rfl⟩ := List.mem_map.1 hnew
      exact ⟨stopWords, chunk, rfl⟩
  · rw [hchunks, List.pairwise_append]
    refine ⟨h.ascending, ascending_numberedChunks hroom, ?_⟩
    intro chunk hchunk later hlater
    exact lt_of_mem_numberedChunks (h.below chunk hchunk) hroom hlater
  · rw [hmanifest]
    exact Manifest.hasNoEmpty_addVersion h.hasNoEmpty docId version document

/-- Where the ids suffice, an insertion is refused for what is held of its document, or else it
makes the same of the document. -/
theorem SameDocument.insert (h : SameDocument docId first second)
    (stopWords stopWords' : List String) {texts : List String} (maps : List Metadata)
    (document : String) (requested : Option UInt32)
    (hroom : first.manifest.nextChunkId.toNat + texts.length < UInt64.size)
    (hroom' : second.manifest.nextChunkId.toNat + texts.length < UInt64.size) :
    (∃ fault, fault ≠ .idsExhausted ∧
        first.insert stopWords texts maps document docId requested = .error fault ∧
        second.insert stopWords' texts maps document docId requested = .error fault) ∨
      ∃ after after', first.insert stopWords texts maps document docId requested = .ok after ∧
        second.insert stopWords' texts maps document docId requested = .ok after' ∧
        SameDocument docId after after' := by
  by_cases hcount : texts.length = maps.length
  · have hresolve := Manifest.resolveVersion_congr h.versions requested
    cases hversion : first.manifest.resolveVersion docId requested with
    | error fault =>
      refine .inl ⟨.version fault, by simp, ?_, ?_⟩
      · unfold Contents.insert
        rw [if_neg (not_not.2 hcount), hversion]
      · unfold Contents.insert
        rw [if_neg (not_not.2 hcount), ← hresolve, hversion]
    | ok version =>
      have hinsert : ∃ after,
          first.insert stopWords texts maps document docId requested = .ok after := by
        unfold Contents.insert
        rw [if_neg (not_not.2 hcount), hversion]
        dsimp only
        rw [if_neg (Nat.not_le.2 hroom)]
        exact ⟨_, rfl⟩
      have hinsert' : ∃ after',
          second.insert stopWords' texts maps document docId requested = .ok after' := by
        unfold Contents.insert
        rw [if_neg (not_not.2 hcount), ← hresolve, hversion]
        dsimp only
        rw [if_neg (Nat.not_le.2 hroom')]
        exact ⟨_, rfl⟩
      obtain ⟨after, hafter⟩ := hinsert
      obtain ⟨after', hafter'⟩ := hinsert'
      obtain ⟨_, hgiven, hversions, hchunks⟩ := chunksOf_insert hafter
      obtain ⟨_, hgiven', hversions', hchunks'⟩ := chunksOf_insert hafter'
      obtain rfl := Except.ok.inj (hversion.symm.trans hgiven)
      obtain rfl := Except.ok.inj ((hversion.symm.trans hresolve).trans hgiven')
      refine .inr ⟨after, after', hafter, hafter', ?_, ?_⟩
      · rw [hversions, hversions', h.versions]
      · rw [hchunks, hchunks', h.chunks]
  · refine .inl ⟨.countMismatch texts.length maps.length, by simp, ?_, ?_⟩
    · unfold Contents.insert
      rw [if_pos hcount]
    · unfold Contents.insert
      rw [if_pos hcount]

end Insert

/-! ### Deletions -/

section Delete

variable {keepLatest : Bool}

/-- Whether a chunk is still there when versions of a document have been deleted. -/
def survives (docId : String) (doomed : List UInt32) (chunk : Chunk) : Bool :=
  !decide (chunk.docId = docId ∧ chunk.version ∈ doomed ∧
    isIndexed (versionKey docId chunk.version) = true)

theorem all_not_hasTerm_eq_survives (stopWords : List String) (chunk : Chunk) (docId : String)
    (doomed : List UInt32) :
    ((doomed.map (versionKey docId)).all fun key =>
      !(Entry.ofChunk stopWords chunk).hasTerm .versionKey key) = survives docId doomed chunk := by
  cases hindexed : isIndexed (versionKey chunk.docId chunk.version) with
  | true =>
    rw [all_not_hasTerm_ofChunk hindexed]
    unfold survives
    congr 1
    rw [decide_eq_decide]
    constructor
    · rintro ⟨rfl, hmem⟩
      exact ⟨rfl, hmem, hindexed⟩
    · rintro ⟨hdoc, hmem, -⟩
      exact ⟨hdoc, hmem⟩
  | false =>
    -- The key of the chunk is not indexed, so no key finds it.
    have hsurvives : survives docId doomed chunk = true := by
      unfold survives
      rw [Bool.not_eq_true', decide_eq_false_iff_not]
      rintro ⟨rfl, -, hkey⟩
      rw [hkey] at hindexed
      exact absurd hindexed (by simp)
    rw [hsurvives, List.all_eq_true]
    intro key _
    rw [Entry.hasTerm_versionKey_ofChunk]
    cases hsame : key == versionKey chunk.docId chunk.version with
    | false => simp
    | true =>
      rw [eq_of_beq hsame, hindexed]
      rfl

theorem chunks_delete_of_isOrderly (h : contents.IsOrderly)
    (hdelete : contents.delete docId keepLatest = some after) :
    after.chunks = contents.chunks.filter (survives docId (contents.doomed docId keepLatest)) := by
  unfold chunks
  rw [(delete_inv hdelete).2, List.filterMap_filter, List.filter_filterMap]
  apply List.filterMap_congr
  intro entry hentry
  obtain ⟨stopWords, chunk, rfl⟩ := h.stored entry hentry
  rw [all_not_hasTerm_eq_survives, Entry.toChunk_ofChunk]
  rfl

/-- What is left of a document. -/
theorem map_unnumbered_delete (h : contents.IsOrderly)
    (hdelete : contents.delete docId keepLatest = some after) (other : String) :
    (after.chunksOf other).map Chunk.unnumbered =
      ((contents.chunksOf other).map Chunk.unnumbered).filter
        (survives docId (contents.doomed docId keepLatest)) := by
  unfold chunksOf
  rw [chunks_delete_of_isOrderly h hdelete, List.filter_map, List.filter_filter, List.filter_filter]
  congr 2
  funext chunk
  exact Bool.and_comm _ _

theorem versionsOf_delete (hdelete : contents.delete docId keepLatest = some after)
    (other : String) :
    after.manifest.versionsOf other = if other = docId then
        (contents.doomed docId keepLatest).foldl Dict.erase (contents.manifest.versionsOf docId)
      else contents.manifest.versionsOf other := by
  rw [(delete_inv hdelete).1]
  exact Manifest.versionsOf_removeVersions ..

/-- A deletion leaves all other documents. -/
theorem sameDocument_delete_of_ne (h : contents.IsOrderly)
    (hdelete : contents.delete docId keepLatest = some after) (hne : other ≠ docId) :
    SameDocument other contents after := by
  refine ⟨?_, ?_⟩
  · rw [versionsOf_delete hdelete, if_neg hne]
  · rw [map_unnumbered_delete h hdelete, List.filter_eq_self.2]
    intro chunk hchunk
    obtain ⟨held, hheld, rfl⟩ := List.mem_map.1 hchunk
    have hother : held.docId = other := of_decide_eq_true (List.mem_filter.1 hheld).2
    unfold survives
    rw [Bool.not_eq_true', decide_eq_false_iff_not]
    rintro ⟨hdoc, -⟩
    exact hne (hother.symm.trans hdoc)

theorem IsOrderly.delete (h : contents.IsOrderly)
    (hdelete : contents.delete docId keepLatest = some after) : after.IsOrderly := by
  obtain ⟨hmanifest, hentries⟩ := delete_inv hdelete
  have hsub : after.chunks.Sublist contents.chunks := by
    rw [chunks_delete_of_isOrderly h hdelete]
    exact List.filter_sublist
  refine ⟨?_, h.ascending.sublist hsub, ?_, ?_⟩
  · intro entry hentry
    rw [hentries] at hentry
    exact h.stored entry (List.mem_filter.1 hentry).1
  · intro chunk hchunk
    rw [hmanifest]
    exact h.below chunk (hsub.subset hchunk)
  · rw [hmanifest]
    exact Manifest.hasNoEmpty_removeVersions h.hasNoEmpty _ _

/-- A deletion has nothing to delete by what is held of its document, or else it makes the same of
the document. -/
theorem SameDocument.delete (h : SameDocument docId first second) (hfirst : first.IsOrderly)
    (hsecond : second.IsOrderly) (keepLatest : Bool) :
    (first.delete docId keepLatest = none ∧ second.delete docId keepLatest = none) ∨
      ∃ after after', first.delete docId keepLatest = some after ∧
        second.delete docId keepLatest = some after' ∧ SameDocument docId after after' := by
  have hdoomed : first.doomed docId keepLatest = second.doomed docId keepLatest := by
    unfold doomed
    rw [h.versions]
  cases hempty : (second.doomed docId keepLatest).isEmpty with
  | true =>
    refine .inl ⟨?_, ?_⟩
    · unfold Contents.delete
      dsimp only
      rw [hdoomed, if_pos hempty]
    · unfold Contents.delete
      dsimp only
      rw [if_pos hempty]
  | false =>
    have hdelete : ∃ after, first.delete docId keepLatest = some after := by
      unfold Contents.delete
      dsimp only
      rw [hdoomed, hempty]
      exact ⟨_, rfl⟩
    have hdelete' : ∃ after', second.delete docId keepLatest = some after' := by
      unfold Contents.delete
      dsimp only
      rw [hempty]
      exact ⟨_, rfl⟩
    obtain ⟨after, hafter⟩ := hdelete
    obtain ⟨after', hafter'⟩ := hdelete'
    refine .inr ⟨after, after', hafter, hafter', ?_, ?_⟩
    · rw [versionsOf_delete hafter, versionsOf_delete hafter', hdoomed, h.versions]
    · rw [map_unnumbered_delete hfirst hafter, map_unnumbered_delete hsecond hafter', hdoomed,
        h.chunks]

end Delete

end Contents

end Index

end ChunkStore
