import ChunkStore.Proofs.Index.Versions
import ChunkStore.Proofs.Text.ByteOrder

/-!
# Listings

A manifest keeps its versions by document id; a listing gives them by name.  Sorting brings the one
into the order of the other and changes nothing else: no two sources are equal in that order unless
they are the same, and a manifest has each version once.
-/

set_option autoImplicit false

namespace ChunkStore

namespace Source

/-- A source stands before another one in a listing: by the bytes of the names, then by the bytes of
the document ids, then by the versions. -/
def Precedes (a b : Source) : Prop :=
  bytesOf a.document < bytesOf b.document ∨
    a.document = b.document ∧
      (bytesOf a.docId < bytesOf b.docId ∨ a.docId = b.docId ∧ a.version < b.version)

theorem compare_eq_lt_iff {a b : Source} : a.compare b = .lt ↔ a.Precedes b := by
  unfold compare Precedes
  rw [Ordering.then_eq_lt, Ordering.then_eq_lt, compare_text_eq_lt_iff, compare_text_eq_lt_iff,
    Std.compare_eq_iff_eq, Std.compare_eq_iff_eq, Std.compare_eq_lt]

theorem compare_eq_eq_iff {a b : Source} : a.compare b = .eq ↔ a = b := by
  obtain ⟨document, docId, version⟩ := a
  obtain ⟨document', docId', version'⟩ := b
  unfold compare
  simp [Ordering.then_eq_eq]

instance : Std.TransCmp compare :=
  inferInstanceAs (Std.TransCmp (compareLex (compareOn Source.document)
    (compareLex (compareOn Source.docId) (compareOn Source.version))))

theorem mem_sort {source : Source} {sources : List Source} :
    source ∈ sort sources ↔ source ∈ sources :=
  List.mem_mergeSort

/-- A listing of distinct sources is strictly increasing. -/
theorem pairwise_sort {sources : List Source} (h : sources.Nodup) :
    (sort sources).Pairwise Precedes := by
  have hsorted : (sort sources).Pairwise fun a b => (a.compare b).isLE = true := by
    apply List.pairwise_mergeSort
    · intro a b c hab hbc
      exact Std.TransCmp.isLE_trans hab hbc
    · intro a b
      have hswap : b.compare a = (a.compare b).swap := Std.OrientedCmp.eq_swap
      rw [hswap]
      cases a.compare b <;> rfl
  have hdistinct : (sort sources).Nodup := (List.mergeSort_perm sources _).nodup_iff.2 h
  refine (hsorted.and hdistinct).imp ?_
  rintro a b ⟨hle, hne⟩
  apply compare_eq_lt_iff.1
  cases hcompare : a.compare b with
  | lt => rfl
  | eq => exact absurd (compare_eq_eq_iff.1 hcompare) hne
  | gt =>
    rw [hcompare] at hle
    exact absurd hle (by simp)

end Source

namespace Index.Manifest

variable {manifest : Manifest}

theorem mem_sources_iff {source : Source} :
    source ∈ manifest.sources ↔
      manifest.nameOf? source.docId source.version = some source.document := by
  unfold sources nameOf? versionsOf
  obtain ⟨document, docId, version⟩ := source
  simp only [List.mem_flatMap, List.mem_map, Prod.exists, Dict.mem_toList, Source.mk.injEq]
  constructor
  · rintro ⟨_, known, hknown, _, _, hname, rfl, rfl, rfl⟩
    rw [hknown]
    exact hname
  · intro hname
    cases hknown : manifest.versions.find? docId with
    | none =>
      rw [hknown] at hname
      exact absurd hname (by simp)
    | some known =>
      rw [hknown] at hname
      exact ⟨docId, known, hknown, version, document, hname, rfl, rfl, rfl⟩

/-- A manifest has each source once: the document ids are distinct, and so are the versions of each
of them. -/
theorem nodup_sources (manifest : Manifest) : manifest.sources.Nodup := by
  have hids : manifest.versions.toList.Pairwise fun a b => compare a.1 b.1 = .lt :=
    manifest.versions.ascending
  refine List.nodup_flatMap.2 ⟨?_, hids.imp ?_⟩
  · rintro ⟨docId, known⟩ -
    have hversions : known.toList.Pairwise fun a b => compare a.1 b.1 = .lt := known.ascending
    refine List.pairwise_map.2 (hversions.imp ?_)
    rintro ⟨version, document⟩ ⟨version', document'⟩ hlt heq
    obtain ⟨-, -, rfl⟩ := Source.mk.inj heq
    simp at hlt
  · rintro ⟨docId, known⟩ ⟨docId', known'⟩ hlt source hleft hright
    obtain ⟨_, -, rfl⟩ := List.mem_map.1 hleft
    obtain ⟨_, -, heq⟩ := List.mem_map.1 hright
    obtain ⟨-, rfl, -⟩ := Source.mk.inj heq
    simp at hlt

/-- The versions of a document are strictly increasing. -/
theorem pairwise_keys_versionsOf (manifest : Manifest) (docId : String) :
    (manifest.versionsOf docId).keys.Pairwise fun a b => a < b :=
  (manifest.versionsOf docId).ascending_keys.imp Std.compare_eq_lt.1

/-- The versions of a document are those of its sources. -/
theorem mem_keys_versionsOf_iff {docId : String} {version : UInt32} :
    version ∈ (manifest.versionsOf docId).keys ↔
      ∃ document, ⟨document, docId, version⟩ ∈ manifest.sources := by
  rw [Dict.mem_keys]
  constructor
  · rintro ⟨document, hname⟩
    exact ⟨document, mem_sources_iff.2 hname⟩
  · rintro ⟨document, hsource⟩
    exact ⟨document, mem_sources_iff.1 hsource⟩

end Index.Manifest

end ChunkStore
