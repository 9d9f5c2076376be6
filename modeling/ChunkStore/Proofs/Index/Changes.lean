import ChunkStore.Index.Contents
import ChunkStore.Proofs.Index.StoredChunk

/-!
# What changes do to the entries of an index

Seen as one list of entries, an index takes additions at the end, and a removal takes out the
entries that are found under a version key.  Keys of different document versions differ, because the
numeral behind the last separator has no separator in it, so a removal takes out the chunks of one
document version and no others.
-/

set_option autoImplicit false

namespace ChunkStore.Index

theorem append_cons_inj_of_last {α : Type} {c : α} {left right tail tail' : List α}
    (htail : c ∉ tail) (htail' : c ∉ tail') (h : left ++ c :: tail = right ++ c :: tail') :
    left = right ∧ tail = tail' := by
  rcases List.append_eq_append_iff.1 h with ⟨middle, rfl, hrest⟩ | ⟨middle, rfl, hrest⟩
  all_goals
    cases middle with
    | nil => simp_all
    | cons d middle =>
      obtain ⟨-, rfl⟩ := List.cons.inj hrest
      simp at *

/-- Two document versions with one key are the same. -/
theorem eq_of_versionKey_eq {docId docId' : String} {version version' : UInt32}
    (h : versionKey docId version = versionKey docId' version') :
    docId = docId' ∧ version = version' := by
  have hnot : ∀ n, '\x1f' ∉ Numeral.digits n := by
    intro n hmem
    exact absurd (Numeral.isDigit_of_mem_digits hmem) (by decide)
  have hlist : docId.toList ++ '\x1f' :: Numeral.digits version.toNat =
      docId'.toList ++ '\x1f' :: Numeral.digits version'.toNat := by
    have := congrArg String.toList h
    simpa [versionKey, Numeral.text] using this
  obtain ⟨hdoc, hdigits⟩ := append_cons_inj_of_last (hnot _) (hnot _) hlist
  exact ⟨String.toList_inj.1 hdoc, UInt32.toNat_inj.1 (Numeral.digits_injective hdigits)⟩

/-- Keys are equal exactly if they belong to one document version, whatever characters the document
ids are made of. -/
theorem versionKey_eq_versionKey_iff (docId docId' : String) (version version' : UInt32) :
    versionKey docId version = versionKey docId' version' ↔
      docId = docId' ∧ version = version' := by
  constructor
  · exact eq_of_versionKey_eq
  · rintro ⟨rfl, rfl⟩
    rfl

namespace Entry

@[simp] theorem toChunk_ofChunk (stopWords : List String) (chunk : Chunk) :
    (ofChunk stopWords chunk).toChunk = .ok chunk :=
  Record.toChunk_ofChunk chunk

/-- A stored chunk is found under the key of its document version and under no other. -/
theorem hasTerm_versionKey_ofChunk (stopWords : List String) (chunk : Chunk) (key : String) :
    (ofChunk stopWords chunk).hasTerm .versionKey key =
      (isIndexed key && key == versionKey chunk.docId chunk.version) := by
  have htexts : textsOf (ofChunk stopWords chunk).record .versionKey =
      [versionKey chunk.docId chunk.version] := rfl
  rw [hasTerm, htexts, List.contains_cons]
  simp

end Entry

namespace Change

theorem foldl_apply_add (entries : List Entry) (segments : List Segment) (added : List Entry) :
    (entries.map Change.add).foldl apply (segments, added) = (segments, added ++ entries) := by
  induction entries generalizing added with
  | nil => simp
  | cons entry entries ih =>
    rw [List.map_cons, List.foldl_cons]
    simp only [apply]
    rw [ih]
    simp

theorem foldl_apply_removeKey (keys : List String) (segments : List Segment) :
    (keys.map Change.removeKey).foldl apply (segments, []) =
      (segments.map fun segment => keys.foldl (fun entries key => without key entries) segment,
        []) := by
  induction keys generalizing segments with
  | nil => simp
  | cons key keys ih =>
    rw [List.map_cons, List.foldl_cons]
    simp only [apply]
    have hnil : without key [] = [] := rfl
    rw [hnil, ih, List.map_map]
    rfl

theorem flatten_filter_isEmpty {α : Type} (lists : List (List α)) :
    (lists.filter fun list => !list.isEmpty).flatten = lists.flatten := by
  induction lists with
  | nil => rfl
  | cons list lists ih => cases list <;> simp [ih]

/-- Added entries stand behind those that were there. -/
theorem flatten_applyAll_add (entries : List Entry) (segments : List Segment) :
    (applyAll (entries.map Change.add) segments).flatten = segments.flatten ++ entries := by
  unfold applyAll
  rw [foldl_apply_add]
  simp [flatten_filter_isEmpty]

theorem foldl_without (keys : List String) (entries : List Entry) :
    keys.foldl (fun entries key => without key entries) entries =
      entries.filter fun entry => keys.all fun key => !entry.hasTerm .versionKey key := by
  induction keys generalizing entries with
  | nil => exact (List.filter_eq_self.2 fun _ _ => rfl).symm
  | cons key keys ih =>
    rw [List.foldl_cons, ih]
    simp [without, List.filter_filter, Bool.and_comm]

/-- What is removed are the entries that are found under one of the keys. -/
theorem flatten_applyAll_removeKey (keys : List String) (segments : List Segment) :
    (applyAll (keys.map Change.removeKey) segments).flatten =
      segments.flatten.filter fun entry => keys.all fun key => !entry.hasTerm .versionKey key := by
  unfold applyAll
  rw [foldl_apply_removeKey]
  simp only [flatten_filter_isEmpty, List.flatten_append, List.flatten_singleton, List.append_nil]
  simp only [foldl_without, List.filter_flatten]

end Change

end ChunkStore.Index
