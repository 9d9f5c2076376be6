import ChunkStore.Proofs.Index.Documents

/-!
# What a deletion takes out

A deletion reads from the manifest which versions of a document are to go, and takes their chunks
out by their version keys.  Manifest and chunks go together for every chunk whose version key is
indexed.  A version key that is too long to be indexed finds nothing, so the chunks of such a
version stay, although the manifest forgets it.
-/

set_option autoImplicit false

namespace ChunkStore.Index

namespace Manifest

/-- Whether a deletion is to take a document version out: it is a version of the document, and, if
the latest is to be kept, one below another that is recorded. -/
def isDoomed (manifest : Manifest) (docId : String) (keepLatest : Bool) (other : String)
    (version : UInt32) : Bool :=
  other = docId &&
    (!keepLatest || (manifest.versionsOf docId).keys.any fun later => version < later)

variable {manifest : Manifest} {docId other : String} {version : UInt32}

/-- All versions but the highest are those below another one. -/
theorem mem_dropLast_keys_iff :
    version ∈ (manifest.versionsOf docId).keys.dropLast ↔
      version ∈ (manifest.versionsOf docId).keys ∧
        ∃ later ∈ (manifest.versionsOf docId).keys, version < later := by
  have hascending := (manifest.versionsOf docId).ascending_keys
  rcases List.eq_nil_or_concat (manifest.versionsOf docId).keys with hnone | ⟨front, last, hkeys⟩
  · simp [hnone]
  · rw [List.concat_eq_append] at hkeys
    rw [hkeys, List.pairwise_append] at hascending
    have hbelow : ∀ earlier ∈ front, earlier < last := by
      intro earlier hearlier
      exact Std.compare_eq_lt.1 (hascending.2.2 earlier hearlier last List.mem_cons_self)
    rw [hkeys, List.dropLast_concat]
    constructor
    · intro hversion
      exact ⟨List.mem_append_left _ hversion, last, by simp, hbelow version hversion⟩
    · rintro ⟨hversion, later, hlater, hlt⟩
      rcases List.mem_append.1 hversion with hfront | hlast
      · exact hfront
      · -- Nothing is above the highest version.
        obtain rfl := List.mem_singleton.1 hlast
        rcases List.mem_append.1 hlater with hearlier | hsame
        · exact absurd (UInt32.lt_trans hlt (hbelow later hearlier)) (UInt32.lt_irrefl _)
        · rw [List.mem_singleton.1 hsame] at hlt
          exact absurd hlt (UInt32.lt_irrefl _)

end Manifest

namespace Contents

variable {docId other : String} {keepLatest : Bool} {contents after : Contents}

/-- A deletion takes out the recorded versions that it is to take out. -/
theorem mem_doomed_iff {version : UInt32} :
    version ∈ contents.doomed docId keepLatest ↔
      version ∈ (contents.manifest.versionsOf docId).keys ∧
        contents.manifest.isDoomed docId keepLatest docId version = true := by
  unfold doomed Manifest.isDoomed
  cases keepLatest with
  | false => simp
  | true =>
    simp only [if_true, Manifest.mem_dropLast_keys_iff]
    simp

/-- Every chunk whose version key is indexed belongs to a recorded version, under its name. -/
def RecordsIndexed (contents : Contents) : Prop :=
  ∀ chunk ∈ contents.chunks, isIndexed (versionKey chunk.docId chunk.version) = true →
    contents.manifest.nameOf? chunk.docId chunk.version = some chunk.document

theorem recordsIndexed_empty : empty.RecordsIndexed := by
  intro chunk hchunk
  exact absurd hchunk List.not_mem_nil

theorem RecordsIndexed.insert (h : contents.RecordsIndexed) {stopWords texts : List String}
    {maps : List Metadata} {document : String} {requested : Option UInt32}
    (hinsert : contents.insert stopWords texts maps document docId requested = .ok after) :
    after.RecordsIndexed := by
  intro chunk hchunk hindexed
  rcases mem_chunks_insert hinsert hchunk with hold | hnew
  · exact nameOf?_insert_of_eq_some hinsert (h chunk hold hindexed)
  · exact hnew

theorem RecordsIndexed.delete (h : contents.RecordsIndexed) (horderly : contents.IsOrderly)
    (hdelete : contents.delete docId keepLatest = some after) : after.RecordsIndexed := by
  intro chunk hchunk hindexed
  rw [chunks_delete_of_isOrderly horderly hdelete] at hchunk
  obtain ⟨hold, hsurvives⟩ := List.mem_filter.1 hchunk
  have hstays : ¬(chunk.docId = docId ∧ chunk.version ∈ contents.doomed docId keepLatest) := by
    rintro ⟨rfl, hdoomed⟩
    simp [survives, hdoomed, hindexed] at hsurvives
  rw [(delete_inv hdelete).1, Manifest.nameOf?_removeVersions, if_neg hstays]
  exact h chunk hold hindexed

/-! ### What is left -/

/-- What a deletion that is done has made of an index.  The chunks that went are those of doomed
versions, as far as their version keys are indexed; the manifest has lost the doomed versions; and
the next chunk id and all that belongs to other documents are as before. -/
structure Deleted (docId : String) (keepLatest : Bool) (before after : Contents) : Prop where
  chunks : after.chunks = before.chunks.filter fun chunk =>
    !(before.manifest.isDoomed docId keepLatest chunk.docId chunk.version &&
      isIndexed (versionKey chunk.docId chunk.version))
  names : ∀ other version, after.manifest.nameOf? other version =
    if before.manifest.isDoomed docId keepLatest other version then none
    else before.manifest.nameOf? other version
  nextChunkId : after.manifest.nextChunkId = before.manifest.nextChunkId
  versionsOf : ∀ other, other ≠ docId →
    after.manifest.versionsOf other = before.manifest.versionsOf other
  chunksOf : ∀ other, other ≠ docId → after.chunksOf other = before.chunksOf other

theorem isDoomed_of_ne (manifest : Manifest) (keepLatest : Bool) (hne : other ≠ docId)
    (version : UInt32) : manifest.isDoomed docId keepLatest other version = false := by
  simp [Manifest.isDoomed, hne]

/-- A chunk whose version key is indexed goes exactly if its version is one of those that are taken
out of the manifest. -/
theorem survives_eq (h : contents.RecordsIndexed) {chunk : Chunk}
    (hchunk : chunk ∈ contents.chunks) :
    survives docId (contents.doomed docId keepLatest) chunk =
      !(contents.manifest.isDoomed docId keepLatest chunk.docId chunk.version &&
        isIndexed (versionKey chunk.docId chunk.version)) := by
  unfold survives
  congr 1
  by_cases hdoc : chunk.docId = docId
  · subst hdoc
    cases hindexed : isIndexed (versionKey chunk.docId chunk.version) with
    | false => simp
    | true =>
      have hrecorded : chunk.version ∈ (contents.manifest.versionsOf chunk.docId).keys :=
        Dict.mem_keys.2 ⟨chunk.document, h chunk hchunk hindexed⟩
      rw [Bool.eq_iff_iff]
      simp [mem_doomed_iff, hrecorded]
  · simp [hdoc, isDoomed_of_ne _ _ hdoc]

/-- The names that are left when the doomed versions are taken out. -/
theorem nameOf?_of_doomed (contents : Contents) (docId : String) (keepLatest : Bool)
    (other : String) (version : UInt32) :
    (if other = docId ∧ version ∈ contents.doomed docId keepLatest then none
      else contents.manifest.nameOf? other version) =
      if contents.manifest.isDoomed docId keepLatest other version then none
      else contents.manifest.nameOf? other version := by
  by_cases hother : other = docId
  · subst hother
    by_cases hrecorded : version ∈ (contents.manifest.versionsOf other).keys
    · simp [mem_doomed_iff, hrecorded]
    · have hnone := Manifest.nameOf?_eq_none_iff.2 hrecorded
      simp [hnone]
  · simp [hother, isDoomed_of_ne _ _ hother]

theorem chunksOf_filter {keeps : Chunk → Bool} (h : ∀ chunk, chunk.docId = other →
    keeps chunk = true) (chunks : List Chunk) :
    (chunks.filter keeps).filter (fun chunk => chunk.docId = other) =
      chunks.filter fun chunk => chunk.docId = other := by
  rw [List.filter_filter]
  apply List.filter_congr
  intro chunk _
  by_cases hdoc : chunk.docId = other
  · simp [hdoc, h chunk hdoc]
  · simp [hdoc]

theorem Deleted.of_delete (horderly : contents.IsOrderly) (h : contents.RecordsIndexed)
    (hdelete : contents.delete docId keepLatest = some after) :
    Deleted docId keepLatest contents after := by
  obtain ⟨hmanifest, -⟩ := delete_inv hdelete
  have hchunks : after.chunks = contents.chunks.filter fun chunk =>
      !(contents.manifest.isDoomed docId keepLatest chunk.docId chunk.version &&
        isIndexed (versionKey chunk.docId chunk.version)) := by
    rw [chunks_delete_of_isOrderly horderly hdelete]
    exact List.filter_congr fun chunk hchunk => survives_eq h hchunk
  refine ⟨hchunks, ?_, ?_, ?_, ?_⟩
  · intro other version
    rw [hmanifest, Manifest.nameOf?_removeVersions]
    exact nameOf?_of_doomed contents docId keepLatest other version
  · rw [hmanifest]
    rfl
  · intro other hne
    rw [versionsOf_delete hdelete, if_neg hne]
  · intro other hne
    unfold Contents.chunksOf
    rw [hchunks]
    apply chunksOf_filter
    intro chunk hdoc
    rw [isDoomed_of_ne _ _ (hdoc ▸ hne)]
    rfl

/-- Where there is nothing to delete, nothing is doomed that would be found. -/
theorem Deleted.of_delete_eq_none (h : contents.RecordsIndexed)
    (hdelete : contents.delete docId keepLatest = none) :
    Deleted docId keepLatest contents contents := by
  have hdoomed : contents.doomed docId keepLatest = [] := by
    unfold delete at hdelete
    dsimp only at hdelete
    split at hdelete
    · next hempty => exact List.isEmpty_iff.1 hempty
    · exact absurd hdelete (by simp)
  refine ⟨?_, ?_, rfl, fun _ _ => rfl, fun _ _ => rfl⟩
  · symm
    apply List.filter_eq_self.2
    intro chunk hchunk
    rw [← survives_eq h hchunk, hdoomed]
    simp [survives]
  · intro other version
    rw [← nameOf?_of_doomed, hdoomed]
    simp

end Contents

end ChunkStore.Index
