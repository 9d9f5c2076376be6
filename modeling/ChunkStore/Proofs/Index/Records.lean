import ChunkStore.Proofs.Index.Contents

/-!
# What becomes of the records does not depend on the words

Stop words decide which words of a chunk are indexed, and nothing else.  Insertions and deletions
look at the records of the entries only, so under any stop words they are refused alike and leave
the same manifest and the same chunks.
-/

set_option autoImplicit false

namespace ChunkStore.Index

/-- The records of the entries of segments. -/
def recordsOf (segments : List Segment) : List (List Record) :=
  segments.map (List.map Entry.record)

theorem recordsOf_filter_isEmpty (segments : List Segment) :
    recordsOf (segments.filter fun segment => !segment.isEmpty) =
      (recordsOf segments).filter fun records => !records.isEmpty := by
  unfold recordsOf
  rw [List.filter_map]
  congr 1
  apply List.filter_congr
  intro segment _
  simp

namespace Change

theorem recordsOf_applyAll_add (added : List Entry) (segments : List Segment) :
    recordsOf (applyAll (added.map .add) segments) =
      (recordsOf segments ++ [added.map Entry.record]).filter fun records => !records.isEmpty := by
  unfold applyAll
  rw [foldl_apply_add]
  simp only [List.nil_append]
  rw [recordsOf_filter_isEmpty]
  simp [recordsOf]

theorem recordsOf_applyAll_removeKey (keys : List String) (segments : List Segment) :
    recordsOf (applyAll (keys.map .removeKey) segments) =
      ((recordsOf segments).map (List.filter fun record =>
          keys.all fun key => !(Entry.mk record []).hasTerm .versionKey key) ++ [[]]).filter
        fun records => !records.isEmpty := by
  unfold applyAll
  rw [foldl_apply_removeKey]
  simp only
  rw [recordsOf_filter_isEmpty]
  congr 1
  unfold recordsOf
  simp only [List.map_append, List.map_map, List.map_cons, List.map_nil,
    List.append_cancel_right_eq]
  apply List.map_congr_left
  intro segment _
  simp only [Function.comp_apply, foldl_without, List.filter_map]
  rfl

end Change

namespace Contents

/-- Contents that differ in nothing but the words of the entries. -/
structure SameRecords (first second : Contents) : Prop where
  manifest : second.manifest = first.manifest
  records : recordsOf second.segments = recordsOf first.segments

theorem chunks_eq (contents : Contents) :
    contents.chunks = (recordsOf contents.segments).flatten.filterMap
      fun record => (record.toChunk .standard).toOption := by
  unfold chunks entries recordsOf
  rw [← List.map_flatten, List.filterMap_map]
  rfl

variable {first second : Contents}

theorem SameRecords.chunks (h : SameRecords first second) : second.chunks = first.chunks := by
  rw [chunks_eq, chunks_eq, h.records]

/-- An insertion is refused alike under any stop words, or leaves the same but for the words. -/
theorem SameRecords.insert (h : SameRecords first second) (stopWords stopWords' : List String)
    (texts : List String) (maps : List Metadata) (document docId : String)
    (requested : Option UInt32) :
    (∃ fault, first.insert stopWords texts maps document docId requested = .error fault ∧
        second.insert stopWords' texts maps document docId requested = .error fault) ∨
      ∃ after after', first.insert stopWords texts maps document docId requested = .ok after ∧
        second.insert stopWords' texts maps document docId requested = .ok after' ∧
        SameRecords after after' := by
  unfold Contents.insert
  rw [h.manifest]
  dsimp only
  split
  · exact .inl ⟨_, rfl, rfl⟩
  · cases first.manifest.resolveVersion docId requested with
    | error fault => exact .inl ⟨_, rfl, rfl⟩
    | ok version =>
      dsimp only
      split
      · exact .inl ⟨_, rfl, rfl⟩
      · refine .inr ⟨_, _, rfl, rfl, rfl, ?_⟩
        dsimp only
        rw [Change.recordsOf_applyAll_add, Change.recordsOf_applyAll_add, h.records,
          List.map_map, List.map_map]
        rfl

theorem SameRecords.delete (h : SameRecords first second) (docId : String) (keepLatest : Bool) :
    first.delete docId keepLatest = none ∧ second.delete docId keepLatest = none ∨
      ∃ after after', first.delete docId keepLatest = some after ∧
        second.delete docId keepLatest = some after' ∧ SameRecords after after' := by
  have hdoomed : second.doomed docId keepLatest = first.doomed docId keepLatest := by
    unfold doomed
    rw [h.manifest]
  unfold Contents.delete
  rw [h.manifest, hdoomed]
  dsimp only
  split
  · exact .inl ⟨rfl, rfl⟩
  · refine .inr ⟨_, _, rfl, rfl, rfl, ?_⟩
    dsimp only
    rw [Change.recordsOf_applyAll_removeKey, Change.recordsOf_applyAll_removeKey, h.records]

end Contents

end ChunkStore.Index
