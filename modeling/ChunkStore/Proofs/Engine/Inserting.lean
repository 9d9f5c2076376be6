import ChunkStore.Proofs.Engine.Alike
import ChunkStore.Proofs.Engine.Reachable
import ChunkStore.Proofs.Index.Insertions
import ChunkStore.Proofs.Workspace.Runs

/-!
# Inserting documents

With a metadata map for each text, chunk ids left and a disk that works, whether an insertion is
done depends on nothing but the versions of the document that are recorded.  If it is done, it has
added its chunks and its version and touched nothing else; if not, it has changed nothing.
-/

set_option autoImplicit false

namespace ChunkStore

open ChunkStore.Index (Contents)

namespace Answer

/-- An answer that says why an insertion failed, as an engine or a database says it. -/
def Reports (answer : Answer) (fault : EngineFault) : Prop :=
  answer = .fault fault ∨ answer = .failure (.insert fault.message)

variable {answer : Answer} {fault : EngineFault}

theorem Reports.isError (h : answer.Reports fault) : answer.IsError := by
  rcases h with rfl | rfl
  · trivial
  · trivial

/-- A fault with another message does not say that there were no chunk ids left. -/
theorem Reports.not_isOutOfIds (h : answer.Reports fault)
    (hmessage : fault.message ≠ EngineFault.idsExhausted.message) : ¬answer.IsOutOfIds := by
  rintro (hout | hout)
  · rcases h with rfl | rfl
    · obtain rfl := Answer.fault.inj hout
      exact hmessage rfl
    · exact absurd hout (by simp)
  · rcases h with rfl | rfl
    · exact absurd hout (by simp)
    · exact hmessage (Failure.insert.inj (Answer.failure.inj hout))

end Answer

namespace Handle

variable {engine engine' : Engine} {disk disk' : Disk} {texts : List String} {maps : List Metadata}

theorem texts_documentOf (hcount : texts.length = maps.length) (document docId : String)
    (requested : Option UInt32) :
    (documentOf texts maps document docId requested).texts = texts := by
  show ((texts.zip maps).map _).map _ = texts
  rw [List.map_map]
  exact List.map_fst_zip hcount.le

theorem metadata_documentOf (hcount : texts.length = maps.length) (document docId : String)
    (requested : Option UInt32) :
    (documentOf texts maps document docId requested).metadata = maps := by
  show ((texts.zip maps).map _).map _ = maps
  rw [List.map_map]
  exact List.map_snd_zip hcount.ge

/-- With a metadata map for each text, an insertion through a handle comes to what the engine's own
comes to. -/
theorem run_insert (hcount : texts.length = maps.length) {document docId : String}
    {requested : Option UInt32} {result : Except EngineFault Unit}
    (h : engine.insert texts maps document docId requested disk = (result, engine', disk'))
    (surface : Surface) :
    ∃ answer, run ⟨surface, engine⟩ disk (.insert texts maps document docId requested) =
        (answer, engine', disk') ∧
      (result = .ok () → answer = .done) ∧
      ∀ fault, result = .error fault → answer.Reports fault := by
  cases surface with
  | engine =>
    refine ⟨.ofFallible result, ?_, ?_, ?_⟩
    · simp only [run, runEngine, h]
    · rintro rfl
      rfl
    · rintro fault rfl
      exact .inl rfl
  | database =>
    generalize hdraft : documentOf texts maps document docId requested = draft
    have hinsert : engine.insert draft.texts draft.metadata draft.name draft.docId draft.version
        disk = (result, engine', disk') := by
      rw [← hdraft, texts_documentOf hcount, metadata_documentOf hcount]
      exact h
    refine ⟨.ofFailable ((result.mapError EngineFault.message).mapError .insert), ?_, ?_, ?_⟩
    · simp only [run, runDatabase, hdraft, Database.insert, Retrieval.insert, hinsert]
    · rintro rfl
      rfl
    · rintro fault rfl
      exact .inr rfl

end Handle

namespace Engine

variable {engine : Engine} {disk : Disk}

/-- On a disk that works, an insertion with chunk ids left is done exactly if the document gets a
version. -/
theorem IsStored.insert_outcome (h : engine.IsStored disk) (hidle : engine.staged = [])
    (htrouble : disk.trouble = none) {texts : List String} {maps : List Metadata}
    (document docId : String) (requested : Option UInt32) (hcount : texts.length = maps.length)
    (hroom : engine.manifest.nextChunkId.toNat + texts.length < UInt64.size) :
    (engine.manifest.Takes docId requested ∧ ∃ after disk',
        engine.contents.insert engine.stopWords texts maps document docId requested = .ok after ∧
        engine.insert texts maps document docId requested disk =
          (.ok (), engine.withContents after, disk')) ∨
      ¬engine.manifest.Takes docId requested ∧ ∃ fault,
        engine.insert texts maps document docId requested disk = (.error fault, engine, disk) := by
  rcases engine.contents.insert_cases engine.stopWords document docId requested hcount hroom with
    ⟨htakes, after, hafter⟩ | ⟨hrefused, fault, hfault⟩
  · have hinsert := insert_eq hidle (by rw [hafter]; simp) disk
    rcases settle_outcome h after with ⟨hsome, -⟩ | ⟨-, disk', hsettle⟩
    · rw [htrouble] at hsome
      exact absurd hsome (by simp)
    · rw [hafter] at hinsert
      exact .inl ⟨htakes, after, disk', hafter, hinsert.trans hsettle⟩
  · have hinsert := insert_eq hidle (by rw [hfault]; simp) disk
    rw [hfault] at hinsert
    exact .inr ⟨hrefused, _, hinsert⟩

/-- In every state that can be reached, on a disk that works, an insertion with a metadata map for
each text and with chunk ids left is done if the version that is asked for is not recorded, or,
where none is asked for, if the highest possible one is not.  Then it has added its chunks and its
version, and nothing else has changed.  Otherwise it fails and changes nothing. -/
theorem insertion_adds_its_chunks {admits : Engine → HandleCommand → Prop}
    (h : Reachable admits engine disk) (htrouble : disk.trouble = none) (surface : Surface)
    (texts : List String) (maps : List Metadata) (document docId : String)
    (requested : Option UInt32) (hcount : texts.length = maps.length)
    (hroom : engine.manifest.nextChunkId.toNat + texts.length < UInt64.size) :
    (engine.manifest.Takes docId requested → ∃ engine' disk' version,
      Handle.run ⟨surface, engine⟩ disk (.insert texts maps document docId requested) =
        (.done, engine', disk') ∧
      engine.manifest.Gives docId requested version ∧
      Contents.Inserted texts maps document docId version engine.contents engine'.contents ∧
      engine'.IsStored disk') ∧
    (¬engine.manifest.Takes docId requested → ∃ answer, answer.IsError ∧
      Handle.run ⟨surface, engine⟩ disk (.insert texts maps document docId requested) =
        (answer, engine, disk)) := by
  obtain ⟨hstored, hidle⟩ := h.isStored
  rcases hstored.insert_outcome hidle htrouble document docId requested hcount hroom with
    ⟨htakes, after, disk', hafter, hinsert⟩ | ⟨hrefused, fault, hinsert⟩
  · refine ⟨fun _ => ?_, fun hrefused => absurd htakes hrefused⟩
    obtain ⟨answer, hrun, hdone, -⟩ := Handle.run_insert hcount hinsert surface
    obtain rfl := hdone rfl
    obtain ⟨version, hgives, hinserted⟩ := Contents.inserted_of_insert hafter
    have hstored' := (hstored.insert texts maps document docId requested).isStored
    rw [hinsert] at hstored'
    exact ⟨_, _, version, hrun, hgives, hinserted, hstored'⟩
  · refine ⟨fun htakes => absurd htakes hrefused, fun _ => ?_⟩
    obtain ⟨answer, hrun, -, hfails⟩ := Handle.run_insert hcount hinsert surface
    exact ⟨answer, (hfails fault rfl).isError, hrun⟩

/-- Metadata with a NaN that has a payload. -/
def payloadMetadata : Metadata :=
  .ofList [("weight", .float ⟨0x7FF4000000000001⟩)]

theorem version_below_first_is_inserted :
    Reachable (fun _ _ => True) firstInsertion.1 firstInsertion.2 ∧
      firstInsertion.2.trouble = none ∧
      firstInsertion.1.manifest.nextChunkId.toNat + 1 < UInt64.size ∧
      ∃ engine' disk' version,
        Handle.run ⟨.database, firstInsertion.1⟩ firstInsertion.2
            (.insert ["zero"] [payloadMetadata] "a0.txt" "a" (some 0)) = (.done, engine', disk') ∧
          firstInsertion.1.manifest.Gives "a" (some 0) version ∧
          Contents.Inserted ["zero"] [payloadMetadata] "a0.txt" "a" version
            firstInsertion.1.contents engine'.contents ∧
          engine'.IsStored disk' := by
  have hreachable : Reachable (fun _ _ => True) firstInsertion.1 firstInsertion.2 :=
    reachable_firstInsertion trivial
  have hroom : firstInsertion.1.manifest.nextChunkId.toNat + 1 < UInt64.size := by decide +kernel
  have htakes : firstInsertion.1.manifest.Takes "a" (some 0) := by
    unfold Index.Manifest.Takes
    decide +kernel
  obtain ⟨hdone, -⟩ := insertion_adds_its_chunks hreachable rfl .database ["zero"]
    [payloadMetadata] "a0.txt" "a" (some 0) rfl hroom
  exact ⟨hreachable, rfl, hroom, hdone htakes⟩

end Engine

end ChunkStore
