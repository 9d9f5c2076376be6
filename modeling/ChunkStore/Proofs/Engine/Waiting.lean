import ChunkStore.Proofs.Engine.Changing

/-!
# Calls to an engine in which changes wait

When the chunk ids run out in an insertion, the chunks that still got one wait in the engine: the
next commit takes them along, and the next failure drops them.  Here is what insertions and
deletions can do to any engine, whatever waits in it: which entries it has afterwards, and that what
is committed is what it holds.
-/

set_option autoImplicit false

namespace ChunkStore

open ChunkStore.Index (Change Entry Manifest)

namespace Index.Change

theorem mem_of_mem_without {key : String} {entries : List Entry} {entry : Entry}
    (h : entry ∈ without key entries) : entry ∈ entries :=
  List.mem_of_mem_filter h

theorem mem_foldl_apply {changes : List Change} {state : List Segment × List Entry} {entry : Entry}
    (h : entry ∈ (changes.foldl apply state).1.flatten ∨ entry ∈ (changes.foldl apply state).2) :
    entry ∈ state.1.flatten ∨ entry ∈ state.2 ∨ .add entry ∈ changes := by
  -- From any state, because a removal also takes out what was added before it.
  induction changes generalizing state with
  | nil => exact h.imp_right .inl
  | cons change changes ih =>
    have hrest := ih h
    cases change with
    | add added =>
      rcases hrest with hkept | hadded | hlater
      · exact .inl hkept
      · rcases List.mem_append.1 hadded with hbefore | hnew
        · exact .inr (.inl hbefore)
        · obtain rfl := List.mem_singleton.1 hnew
          exact .inr (.inr List.mem_cons_self)
      · exact .inr (.inr (List.mem_cons_of_mem _ hlater))
    | removeKey key =>
      rcases hrest with hkept | hadded | hlater
      · obtain ⟨segment, hsegment, hentry⟩ := List.mem_flatten.1 hkept
        obtain ⟨before, hbefore, rfl⟩ := List.mem_map.1 hsegment
        exact .inl (List.mem_flatten.2 ⟨before, hbefore, mem_of_mem_without hentry⟩)
      · exact .inr (.inl (mem_of_mem_without hadded))
      · exact .inr (.inr (List.mem_cons_of_mem _ hlater))

/-- What is in an index after changes was in it, or was added by one of them. -/
theorem mem_flatten_applyAll {changes : List Change} {segments : List Segment} {entry : Entry}
    (h : entry ∈ (applyAll changes segments).flatten) :
    entry ∈ segments.flatten ∨ .add entry ∈ changes := by
  unfold applyAll at h
  dsimp only at h
  rw [flatten_filter_isEmpty, List.flatten_append, List.flatten_singleton, List.mem_append] at h
  simpa using mem_foldl_apply h

end Index.Change

namespace Engine

/-- An entry that an engine has: in its index, or waiting for the next commit. -/
def Holds (engine : Engine) (entry : Entry) : Prop :=
  entry ∈ engine.contents.entries ∨ .add entry ∈ engine.staged

variable {engine engine' : Engine} {disk disk' : Disk} {result : Except EngineFault Unit}
  {entry : Entry}

theorem manifest_of_contents (h : engine'.contents = engine.contents) :
    engine'.manifest = engine.manifest :=
  congrArg Index.Contents.manifest h

theorem Holds.of_contents (h : engine'.Holds entry) (hcontents : engine'.contents = engine.contents)
    (hstaged : engine'.staged = []) : engine.Holds entry := by
  rcases h with hentry | hwaits
  · rw [hcontents] at hentry
    exact .inl hentry
  · rw [hstaged] at hwaits
    exact absurd hwaits List.not_mem_nil

theorem Holds.of_stage {changes : List Change} (h : (engine.stage changes disk).2.Holds entry) :
    engine.Holds entry ∨ .add entry ∈ changes := by
  rcases h with hentry | hwaits
  · exact .inl (.inl hentry)
  · rcases List.mem_append.1 hwaits with hbefore | hnew
    · exact .inl (.inr hbefore)
    · refine .inr ?_
      split at hnew
      · exact hnew
      · exact List.mem_of_mem_take hnew

/-- A commit fails and drops all that waits, or commits what the engine holds from then on. -/
theorem commit_inv {isComplete : Bool} {manifest : Manifest}
    (h : engine.commit isComplete manifest disk = (result, engine', disk')) :
    result = .error .rolledBack ∧ engine' = engine.rollback ∧ disk' = disk ∨
      result = .ok () ∧
        engine' = engine.withContents ⟨manifest, Change.applyAll engine.staged engine.segments⟩ ∧
        disk.publish engine.home engine.segments engine'.contents.toCommit = .ok disk' := by
  unfold commit at h
  dsimp only at h
  split at h
  · cases h
    exact .inl ⟨rfl, rfl, rfl⟩
  · split at h
    · next published hpublish =>
      cases h
      exact .inr ⟨rfl, rfl, hpublish⟩
    · cases h
      exact .inl ⟨rfl, rfl, rfl⟩

theorem Holds.of_commit {segments : List Index.Segment} {manifest : Manifest}
    (h : (engine.withContents ⟨manifest, Change.applyAll engine.staged segments⟩).Holds entry)
    (hsegments : segments = engine.segments) : engine.Holds entry := by
  subst hsegments
  rcases h with hentry | hwaits
  · exact Change.mem_flatten_applyAll hentry
  · exact absurd hwaits List.not_mem_nil

/-! ### Carrying out plans -/

/-- What a plan does that commits something: it fails and drops all that waits, or commits what the
engine holds from then on, and that was there before or is added by the plan. -/
theorem carryOut_commit_inv {changes : List Change} {manifest : Manifest}
    (h : engine.carryOut disk (.commit changes manifest) = (result, engine', disk')) :
    result = .error .rolledBack ∧ engine' = engine.rollback ∧ disk' = disk ∨
      result = .ok () ∧ engine'.manifest = manifest ∧ engine'.staged = [] ∧
        disk.publish engine.home engine.segments engine'.contents.toCommit = .ok disk' ∧
        ∀ entry, engine'.Holds entry → engine.Holds entry ∨ .add entry ∈ changes := by
  rcases commit_inv h with ⟨hresult, hengine, hdisk⟩ | ⟨hresult, hengine, hpublish⟩
  · exact .inl ⟨hresult, hengine, hdisk⟩
  · refine .inr ⟨hresult, ?_, ?_, hpublish, ?_⟩
    · rw [hengine]
      rfl
    · rw [hengine]
      rfl
    · intro entry hentry
      rw [hengine] at hentry
      exact (hentry.of_commit rfl).of_stage

/-- The chunks that an insertion numbers, as far as there are ids for them. -/
def numbered (engine : Engine) (texts : List String) (maps : List Metadata)
    (document docId : String) (version : UInt32) : List Chunk :=
  (numberedChunks engine.manifest.nextChunkId.toNat document docId version texts maps).take
    (UInt64.size - engine.manifest.nextChunkId.toNat)

theorem exists_of_mem_numbered {texts : List String} {maps : List Metadata}
    {document docId : String} {version : UInt32} {chunk : Chunk}
    (h : chunk ∈ engine.numbered texts maps document docId version) :
    ∃ index, ∃ (htext : index < texts.length) (hmap : index < maps.length),
      chunk.id.toNat = engine.manifest.nextChunkId.toNat + index ∧ chunk.text = texts[index] ∧
        chunk.document = document ∧ chunk.docId = docId ∧ chunk.version = version ∧
        chunk.metadata = maps[index] := by
  obtain ⟨index, hindex, rfl⟩ := List.mem_iff_getElem.1 h
  have hbelow := hindex
  unfold numbered at hbelow
  rw [List.length_take, Index.Contents.length_numberedChunks, lt_min_iff, lt_min_iff] at hbelow
  obtain ⟨hroom, htext, hmap⟩ := hbelow
  have hid : engine.manifest.nextChunkId.toNat + index < UInt64.size := by omega
  refine ⟨index, htext, hmap, ?_, ?_⟩
  · rw [← UInt64.toNat_ofNat_of_lt' hid]
    simp [numbered, numberedChunks]
  · simp [numbered, numberedChunks]

section Insertion

variable {texts : List String} {maps : List Metadata} {document docId : String}
  {requested : Option UInt32}

/-- What an insertion does that numbers its chunks and does not fail: they are committed under the
manifest with the new version, or the ids run out and some of them wait from then on. -/
structure Numbers (engine : Engine) (disk : Disk) (texts : List String) (maps : List Metadata)
    (document docId : String) (version : UInt32) (result : Except EngineFault Unit)
    (engine' : Engine) (disk' : Disk) : Prop where
  entries : ∀ entry, engine'.Holds entry → engine.Holds entry ∨
    ∃ chunk ∈ engine.numbered texts maps document docId version,
      entry = .ofChunk engine.stopWords chunk
  outcome : result = .ok () ∧ engine.manifest.nextChunkId.toNat + texts.length < UInt64.size ∧
      engine'.manifest = { engine.manifest.addVersion docId version document with
        nextChunkId := UInt64.ofNat (engine.manifest.nextChunkId.toNat + texts.length) } ∧
      engine'.staged = [] ∧
      disk.publish engine.home engine.segments engine'.contents.toCommit = .ok disk' ∨
    result = .error .idsExhausted ∧ engine'.contents = engine.contents ∧ disk' = disk

/-- All that an insertion can do: it is refused or fails, and then at most drops what waited, or it
numbers its chunks. -/
theorem insert_cases
    (h : engine.insert texts maps document docId requested disk = (result, engine', disk')) :
    (∃ fault, result = .error fault) ∧ (engine' = engine ∨ engine' = engine.rollback) ∧
        disk' = disk ∨
      ∃ version, engine.manifest.resolveVersion docId requested = .ok version ∧
        engine.Numbers disk texts maps document docId version result engine' disk' := by
  have hadded : ∀ version entry, Change.add entry ∈ ((engine.numbered texts maps document docId
      version).map fun chunk => Change.add (.ofChunk engine.stopWords chunk)) →
      ∃ chunk ∈ engine.numbered texts maps document docId version,
        entry = .ofChunk engine.stopWords chunk := by
    intro version entry hmem
    obtain ⟨chunk, hchunk, heq⟩ := List.mem_map.1 hmem
    exact ⟨chunk, hchunk, (Change.add.inj heq).symm⟩
  rw [insert_eq_carryOut] at h
  unfold insertion at h
  split at h
  · cases h
    exact .inl ⟨⟨_, rfl⟩, .inl rfl, rfl⟩
  · cases hversion : engine.manifest.resolveVersion docId requested with
    | error fault =>
      rw [hversion] at h
      cases h
      exact .inl ⟨⟨_, rfl⟩, .inl rfl, rfl⟩
    | ok version =>
      rw [hversion] at h
      dsimp only at h
      split at h
      · cases h
        refine .inr ⟨version, rfl, ?_, .inr ⟨rfl, rfl, rfl⟩⟩
        intro entry hentry
        exact hentry.of_stage.imp_right (hadded version entry)
      · next hroom =>
        rcases carryOut_commit_inv h with
          ⟨hresult, hengine, hdisk⟩ | ⟨hresult, hmanifest, hstaged, hpublish, hentries⟩
        · exact .inl ⟨⟨_, hresult⟩, .inr hengine, hdisk⟩
        · refine .inr ⟨version, rfl, ?_,
            .inl ⟨hresult, Nat.lt_of_not_le hroom, hmanifest, hstaged, hpublish⟩⟩
          intro entry hentry
          exact (hentries entry hentry).imp_right (hadded version entry)

end Insertion

/-- All that a deletion can do: at most drop what waited, or commit some of what there was. -/
theorem delete_cases {docId : String} {keepLatest : Bool}
    (h : engine.delete docId keepLatest disk = (result, engine', disk')) :
    (engine' = engine ∨ engine' = engine.rollback) ∧ disk' = disk ∨
      result = .ok () ∧ engine'.staged = [] ∧
        (∃ doomed, engine'.manifest = engine.manifest.removeVersions docId doomed) ∧
        disk.publish engine.home engine.segments engine'.contents.toCommit = .ok disk' ∧
        ∀ entry, engine'.Holds entry → engine.Holds entry := by
  rw [delete_eq_carryOut] at h
  unfold deletion at h
  dsimp only at h
  generalize hdoomed : (if keepLatest = true then _ else _) = doomed at h
  split at h
  · cases h
    exact .inl ⟨.inl rfl, rfl⟩
  · rcases carryOut_commit_inv h with
      ⟨-, hengine, hdisk⟩ | ⟨hresult, hmanifest, hstaged, hpublish, hentries⟩
    · exact .inl ⟨.inr hengine, hdisk⟩
    · refine .inr ⟨hresult, hstaged, ⟨doomed, hmanifest⟩, hpublish, ?_⟩
      intro entry hentry
      rcases hentries entry hentry with hbefore | hadded
      · exact hbefore
      · obtain ⟨version, -, heq⟩ := List.mem_map.1 hadded
        exact absurd heq (by simp)

end Engine

end ChunkStore
