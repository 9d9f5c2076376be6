import ChunkStore.Proofs.Boundary.Staging
import ChunkStore.Proofs.Engine.Waiting

/-!
# Where the chunks of an index come from

What an engine holds came about by insertions and deletions among the calls of a run, starting from
an empty index.  Its lineage lists the chunks that these insertions numbered, with their ids, as
their caller had staged them: with text and metadata, document name and document id as they were
handed over, and with the version that the insertion took.  Every chunk of the index stands in the
lineage under its id.
-/

set_option autoImplicit false

namespace ChunkStore.Boundary

open CString
open ChunkStore.Index (Entry)

/-- A call of a run: what its caller had staged and the state before it. -/
structure Step where
  ledger : Ledger
  before : State
  call : Call

namespace Step

/-- What came of the call. -/
def outcome (step : Step) : Except Failure Returned :=
  (perform step.before step.call).1

/-- The state after the call. -/
def after (step : Step) : State :=
  (perform step.before step.call).2

/-- The call was an insertion for which there were too few chunk ids. -/
def RanOut (step : Step) : Prop :=
  step.outcome = .error (.insert EngineFault.idsExhausted.message)

instance (step : Step) : Decidable step.RanOut :=
  inferInstanceAs (Decidable (step.outcome = _))

end Step

/-- A chunk as its caller knows it, with the document version that it was inserted under. -/
structure Item where
  text : CString
  name : CString
  docId : CString
  version : UInt32
  metadata : SentMetadata

/-- Chunks with the ids that they were given. -/
abbrev Lineage : Type :=
  List (Nat × Item)

/-- The chunks of a document, inserted under a version, with ids from `first` on. -/
def SentDocument.numbered (sent : SentDocument) (first : Nat) (version : UInt32) : Lineage :=
  sent.chunks.mapIdx fun i chunk =>
    (first + i, ⟨chunk.text, sent.name, sent.docId, version, chunk.metadata⟩)

/-- A call that inserts a staged document into an engine, or that runs out of ids for its chunks. -/
inductive Step.Inserts (step : Step) (engine : Engine) : Lineage → Engine → Prop where
  | done {database document : Pointer} {name draftName : String} {draft : Document}
      {version : UInt32} {engine' : Engine} (hcall : step.call = .insert database document)
      (hengine : step.before.database database = .ok (name, engine))
      (hdocument : step.before.document document = .ok (draftName, draft))
      (hdraft : IsDocument draft (step.ledger draftName))
      (hversion : engine.manifest.resolveVersion draft.docId draft.version = .ok version)
      (houtcome : step.outcome = .ok (.bool true) ∨ step.RanOut)
      (hafter : step.after.databases.find? name = some engine') :
      step.Inserts engine
        ((step.ledger draftName).numbered engine.manifest.nextChunkId.toNat version) engine'

/-- A call that deletes from an engine. -/
inductive Step.Deletes (step : Step) (engine : Engine) : Engine → Prop where
  | done {database : Pointer} {docId : RawText} {keepLatest : Bool} {name : String}
      {engine' : Engine} (hcall : step.call = .delete database docId keepLatest)
      (hengine : step.before.database database = .ok (name, engine))
      (houtcome : step.outcome = .ok (.bool true))
      (hafter : step.after.databases.find? name = some engine') :
      step.Deletes engine engine'

/-- What an engine holds came about by calls of a run: first the index was empty, then documents
were inserted and deleted.  What waited was lost where a call failed, and an engine that was opened
found what another had committed. -/
inductive Descends (trace : List Step) : Lineage → Engine → Prop where
  | fresh {engine : Engine} (hcontents : engine.contents = .empty) (hidle : engine.staged = []) :
      Descends trace [] engine
  | inserted {lineage added : Lineage} {engine engine' : Engine} {step : Step}
      (hbefore : Descends trace lineage engine) (hmem : step ∈ trace)
      (hinserts : step.Inserts engine added engine') : Descends trace (lineage ++ added) engine'
  | deleted {lineage : Lineage} {engine engine' : Engine} {step : Step}
      (hbefore : Descends trace lineage engine) (hmem : step ∈ trace)
      (hdeletes : step.Deletes engine engine') : Descends trace lineage engine'
  | found {lineage : Lineage} {engine engine' : Engine} (hbefore : Descends trace lineage engine)
      (hcontents : engine'.contents = engine.contents) (hidle : engine'.staged = []) :
      Descends trace lineage engine'

variable {trace : List Step} {lineage : Lineage} {engine engine' : Engine}

theorem Descends.mono {trace' : List Step} (h : Descends trace lineage engine)
    (hsubset : trace ⊆ trace') : Descends trace' lineage engine := by
  induction h with
  | fresh hcontents hidle => exact .fresh hcontents hidle
  | inserted _ hmem hinserts ih => exact .inserted ih (hsubset hmem) hinserts
  | deleted _ hmem hdeletes ih => exact .deleted ih (hsubset hmem) hdeletes
  | found _ hcontents hidle ih => exact .found ih hcontents hidle

/-! ### The calls of a step -/

/-- An insertion at the boundary is one in the engine that the pointer leads to. -/
theorem perform_insert {state : State} {database document : Pointer} {name draftName : String}
    {draft : Document} (hengine : state.database database = .ok (name, engine))
    (hdocument : state.document document = .ok (draftName, draft))
    {result : Except EngineFault Unit} {disk' : Disk}
    (hinsert : engine.insert draft.texts draft.metadata draft.name draft.docId draft.version
      state.disk = (result, engine', disk')) :
    perform state (.insert database document) =
      (((result.mapError EngineFault.message).mapError Failure.insert).map fun _ => .bool true,
        { state with documents := state.documents.insert draftName none }.putEngine name
          (engine', disk')) := by
  simp only [perform, insertDocument, hengine, hdocument, Database.insert, Retrieval.insert,
    hinsert]

/-- A deletion at the boundary is one in the engine that the pointer leads to. -/
theorem perform_delete {state : State} {database : Pointer} {docId : RawText} {keepLatest : Bool}
    {name text : String} (hengine : state.database database = .ok (name, engine))
    (hread : readText "doc_id" docId = .ok text) {result : Except EngineFault Unit} {disk' : Disk}
    (hdelete : engine.delete text keepLatest state.disk = (result, engine', disk')) :
    perform state (.delete database docId keepLatest) =
      (((result.mapError EngineFault.message).mapError Failure.delete).map fun _ => .bool true,
        state.putEngine name (engine', disk')) := by
  simp only [perform, hengine, hread, Database.delete, Retrieval.delete, hdelete]

theorem find?_putEngine (state : State) (name : String) (after : Engine × Disk) :
    (state.putEngine name after).databases.find? name = some after.1 := by
  show (state.databases.insert name after.1).find? name = some after.1
  rw [Dict.find?_insert, if_pos rfl]

/-- What a step does that calls for an insertion. -/
theorem Step.exists_insert {step : Step} {database document : Pointer} {name draftName : String}
    {draft : Document} (hcall : step.call = .insert database document)
    (hengine : step.before.database database = .ok (name, engine))
    (hdocument : step.before.document document = .ok (draftName, draft))
    (hafter : step.after.databases.find? name = some engine') :
    ∃ result disk', engine.insert draft.texts draft.metadata draft.name draft.docId draft.version
        step.before.disk = (result, engine', disk') ∧
      step.outcome = ((result.mapError EngineFault.message).mapError Failure.insert).map
        fun _ => .bool true := by
  cases hinsert : engine.insert draft.texts draft.metadata draft.name draft.docId draft.version
      step.before.disk with
  | mk result after =>
    obtain ⟨inserted, disk'⟩ := after
    have hperform := perform_insert hengine hdocument hinsert
    unfold Step.after at hafter
    rw [hcall, hperform, find?_putEngine] at hafter
    obtain rfl := Option.some.inj hafter
    refine ⟨result, disk', rfl, ?_⟩
    unfold Step.outcome
    rw [hcall, hperform]

/-- What a step does that calls for a deletion. -/
theorem Step.exists_delete {step : Step} {database : Pointer} {docId : RawText} {keepLatest : Bool}
    {name : String} (hcall : step.call = .delete database docId keepLatest)
    (hengine : step.before.database database = .ok (name, engine))
    (houtcome : step.outcome = .ok (.bool true))
    (hafter : step.after.databases.find? name = some engine') :
    ∃ text result disk',
      engine.delete text keepLatest step.before.disk = (result, engine', disk') := by
  cases hread : readText "doc_id" docId with
  | error failure =>
    unfold Step.outcome at houtcome
    simp only [hcall, perform, hengine, hread] at houtcome
    exact absurd houtcome (by simp)
  | ok text =>
    cases hdelete : engine.delete text keepLatest step.before.disk with
    | mk result after =>
      obtain ⟨deleted, disk'⟩ := after
      unfold Step.after at hafter
      rw [hcall, perform_delete hengine hread hdelete, find?_putEngine] at hafter
      obtain rfl := Option.some.inj hafter
      exact ⟨text, result, disk', hdelete⟩

/-! ### Lineages are right -/

/-- A stored chunk is the one that was staged. -/
structure IsItem (chunk : Chunk) (item : Item) : Prop where
  text : item.text.Spells chunk.text
  name : item.name.Spells chunk.document
  docId : item.docId.Spells chunk.docId
  version : chunk.version = item.version
  metadata : IsMetadata chunk.metadata item.metadata

/-- An entry is a chunk that stands in a lineage under its id. -/
def IsListed (lineage : Lineage) (entry : Entry) : Prop :=
  ∃ chunk item, entry.toChunk = .ok chunk ∧ (chunk.id.toNat, item) ∈ lineage ∧ IsItem chunk item

/-- What holds of an engine through its lineage. -/
structure Faithful (lineage : Lineage) (engine : Engine) : Prop where
  entries : ∀ entry, engine.Holds entry → IsListed lineage entry
  names : ∀ docId version name, engine.manifest.nameOf? docId version = some name →
    '\x00' ∉ name.toList ∧ '\x00' ∉ docId.toList

theorem IsListed.append {entry : Entry} (h : IsListed lineage entry) (added : Lineage) :
    IsListed (lineage ++ added) entry := by
  obtain ⟨chunk, item, hchunk, hmem, hitem⟩ := h
  exact ⟨chunk, item, hchunk, List.mem_append_left _ hmem, hitem⟩

theorem faithful_of_empty (hcontents : engine.contents = .empty) (hidle : engine.staged = []) :
    Faithful [] engine where
  entries := by
    intro entry hentry
    rcases hentry with hindexed | hwaits
    · rw [hcontents] at hindexed
      exact absurd hindexed List.not_mem_nil
    · rw [hidle] at hwaits
      exact absurd hwaits List.not_mem_nil
  names := by
    intro docId version name hname
    have hmanifest : engine.manifest = .empty := congrArg Index.Contents.manifest hcontents
    rw [hmanifest] at hname
    exact absurd hname (by simp [Index.Manifest.nameOf?, Index.Manifest.versionsOf,
      Index.Manifest.empty])

/-- The chunks that an insertion numbers are those that were staged, in their order. -/
theorem isListed_of_mem_numbered {draft : Document} {sent : SentDocument}
    (h : IsDocument draft sent) {version : UInt32} {chunk : Chunk}
    (hchunk : chunk ∈ engine.numbered draft.texts draft.metadata draft.name draft.docId version)
    (stopWords : List String) :
    IsListed (sent.numbered engine.manifest.nextChunkId.toNat version)
      (.ofChunk stopWords chunk) := by
  obtain ⟨index, htextIndex, hmapIndex, hid, htext, hname, hdocId, hversion, hmetadata⟩ :=
    Engine.exists_of_mem_numbered hchunk
  obtain ⟨hlength, htexts⟩ := List.forall₂_iff_get.1 h.texts
  obtain ⟨-, hmaps⟩ := List.forall₂_iff_get.1 h.metadata
  have hsentIndex : index < sent.chunks.length := by omega
  refine ⟨chunk, ⟨sent.chunks[index].text, sent.name, sent.docId, version,
    sent.chunks[index].metadata⟩, Entry.toChunk_ofChunk stopWords chunk, ?_, ?_⟩
  · rw [hid]
    exact List.mem_mapIdx.2 ⟨index, hsentIndex, rfl⟩
  · refine ⟨?_, ?_, ?_, hversion, ?_⟩
    · rw [htext]
      exact htexts index htextIndex hsentIndex
    · rw [hname]
      exact h.name
    · rw [hdocId]
      exact h.docId
    · rw [hmetadata]
      exact hmaps index hmapIndex hsentIndex

theorem Faithful.found (h : Faithful lineage engine)
    (hcontents : engine'.contents = engine.contents) (hidle : engine'.staged = []) :
    Faithful lineage engine' where
  entries := fun entry hentry => h.entries entry (hentry.of_contents hcontents hidle)
  names := by
    rw [Engine.manifest_of_contents hcontents]
    exact h.names

theorem Faithful.append (h : Faithful lineage engine) (added : Lineage) :
    Faithful (lineage ++ added) engine where
  entries := fun entry hentry => (h.entries entry hentry).append added
  names := h.names

theorem Faithful.inserted (h : Faithful lineage engine) {added : Lineage} {step : Step}
    (hinserts : step.Inserts engine added engine') : Faithful (lineage ++ added) engine' := by
  cases hinserts with
  | @done database document name draftName draft version _ hcall hengine hdocument hdraft hversion
      houtcome hafter =>
    obtain ⟨result, disk', hinsert, -⟩ := Step.exists_insert hcall hengine hdocument hafter
    rcases Engine.insert_cases hinsert with
      ⟨-, rfl | rfl, -⟩ | ⟨version', hversion', hnumbers⟩
    · exact h.append _
    · exact (h.append _).found rfl rfl
    · -- Committed or waiting, what the engine has now it had before, or it was numbered.
      obtain rfl := Except.ok.inj (hversion.symm.trans hversion')
      refine ⟨?_, ?_⟩
      · intro entry hentry
        rcases hnumbers.entries entry hentry with hold | ⟨chunk, hchunk, rfl⟩
        · exact (h.entries entry hold).append _
        · obtain ⟨chunk, item, hdecodes, hmem, hitem⟩ :=
            isListed_of_mem_numbered hdraft hchunk engine.stopWords
          exact ⟨chunk, item, hdecodes, List.mem_append_right _ hmem, hitem⟩
      · intro docId other recorded hname
        rcases hnumbers.outcome with ⟨-, -, hmanifest, -⟩ | ⟨-, hcontents, -⟩
        · have hadded : (engine.manifest.addVersion draft.docId version draft.name).nameOf? docId
              other = some recorded := by
            rw [hmanifest] at hname
            exact hname
          rw [Index.Manifest.nameOf?_addVersion] at hadded
          split at hadded
          · next heq =>
            rw [← Option.some.inj hadded, heq.1]
            exact ⟨hdraft.name.not_mem, hdraft.docId.not_mem⟩
          · exact h.names docId other recorded hadded
        · rw [Engine.manifest_of_contents hcontents] at hname
          exact h.names docId other recorded hname

theorem Faithful.deleted (h : Faithful lineage engine) {step : Step}
    (hdeletes : step.Deletes engine engine') : Faithful lineage engine' := by
  cases hdeletes with
  | done hcall hengine houtcome hafter =>
    obtain ⟨text, result, disk', hdelete⟩ := Step.exists_delete hcall hengine houtcome hafter
    rcases Engine.delete_cases hdelete with
      ⟨rfl | rfl, -⟩ | ⟨-, -, ⟨doomed, hmanifest⟩, -, hentries⟩
    · exact h
    · exact h.found rfl rfl
    · refine ⟨fun entry hentry => h.entries entry (hentries entry hentry), ?_⟩
      intro docId version name hname
      rw [hmanifest, Index.Manifest.nameOf?_removeVersions] at hname
      split at hname
      · exact absurd hname (by simp)
      · exact h.names docId version name hname

/-- Through its lineage every chunk of an engine is one that was staged. -/
theorem Descends.faithful (h : Descends trace lineage engine) : Faithful lineage engine := by
  induction h with
  | fresh hcontents hidle => exact faithful_of_empty hcontents hidle
  | inserted _ _ hinserts ih => exact ih.inserted hinserts
  | deleted _ _ hdeletes ih => exact ih.deleted hdeletes
  | found _ hcontents hidle ih => exact ih.found hcontents hidle

/-! ### Ids are given once -/

/-- The ids of a lineage are the numbers below the next chunk id. -/
structure Counted (lineage : Lineage) (engine : Engine) : Prop where
  ids : lineage.map Prod.fst = List.range lineage.length
  next : engine.manifest.nextChunkId.toNat = lineage.length

theorem SentDocument.map_fst_numbered (sent : SentDocument) (first : Nat) (version : UInt32) :
    (sent.numbered first version).map Prod.fst =
      (List.range sent.chunks.length).map (first + ·) := by
  apply List.ext_getElem
  · simp [numbered]
  · intro i _ _
    simp [numbered]

theorem Counted.inserted (h : Counted lineage engine) {added : Lineage} {step : Step}
    (hinserts : step.Inserts engine added engine') (hroom : ¬step.RanOut) :
    Counted (lineage ++ added) engine' := by
  cases hinserts with
  | @done database document name draftName draft version _ hcall hengine hdocument hdraft hversion
      houtcome hafter =>
    have hdone := houtcome.resolve_right hroom
    obtain ⟨result, disk', hinsert, hresult⟩ := Step.exists_insert hcall hengine hdocument hafter
    rw [hdone] at hresult
    rcases Engine.insert_cases hinsert with ⟨⟨fault, rfl⟩, -⟩ | ⟨version', hversion', hnumbers⟩
    · exact absurd hresult (by simp [Except.map, Except.mapError])
    · rcases hnumbers.outcome with ⟨-, hids, hmanifest, -⟩ | ⟨rfl, -⟩
      · have hcount : draft.texts.length = (step.ledger draftName).chunks.length :=
          hdraft.texts.length_eq
        rw [hcount] at hids
        refine ⟨?_, ?_⟩
        · rw [List.map_append, h.ids, SentDocument.map_fst_numbered, h.next, List.length_append,
            List.range_add]
          simp [SentDocument.numbered]
        · rw [hmanifest, hcount]
          rw [UInt64.toNat_ofNat_of_lt' hids, h.next]
          simp [SentDocument.numbered]
      · exact absurd hresult (by simp [Except.map, Except.mapError])

theorem Counted.deleted (h : Counted lineage engine) {step : Step}
    (hdeletes : step.Deletes engine engine') : Counted lineage engine' := by
  cases hdeletes with
  | done hcall hengine houtcome hafter =>
    obtain ⟨text, result, disk', hdelete⟩ := Step.exists_delete hcall hengine houtcome hafter
    rcases Engine.delete_cases hdelete with
      ⟨rfl | rfl, -⟩ | ⟨-, -, ⟨doomed, hmanifest⟩, -⟩
    · exact h
    · exact ⟨h.ids, h.next⟩
    · refine ⟨h.ids, ?_⟩
      rw [hmanifest]
      exact h.next

/-- Unless the ids run out in a call, the chunks of a lineage have the ids from zero on. -/
theorem Descends.counted (h : Descends trace lineage engine)
    (hroom : ∀ step ∈ trace, ¬step.RanOut) : Counted lineage engine := by
  induction h with
  | @fresh engine hcontents hidle =>
    have hmanifest : engine.manifest = .empty := congrArg Index.Contents.manifest hcontents
    refine ⟨rfl, ?_⟩
    rw [hmanifest]
    rfl
  | @inserted _ _ _ _ step _ hmem hinserts ih => exact ih.inserted hinserts (hroom step hmem)
  | deleted _ _ hdeletes ih => exact ih.deleted hdeletes
  | found _ hcontents _ ih =>
    refine ⟨ih.ids, ?_⟩
    rw [Engine.manifest_of_contents hcontents]
    exact ih.next

end ChunkStore.Boundary
