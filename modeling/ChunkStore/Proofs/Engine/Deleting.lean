import ChunkStore.Proofs.Engine.DocumentIndependence
import ChunkStore.Proofs.Engine.Findable
import ChunkStore.Proofs.Index.Deletions

/-!
# Deleting documents

A deletion takes the doomed versions out of the manifest and their chunks out of the index, and
touches nothing else; from then on no query finds the chunks that went, also when the index is
closed and opened again.  One case is left out: the chunks of a version whose key is too long to be
indexed stay in the index and are found, although nothing lists their document any more.
-/

set_option autoImplicit false

namespace ChunkStore

open ChunkStore.Index (Contents isIndexed versionKey)

namespace Handle

variable {engine engine' : Engine} {disk disk' : Disk}

/-- A deletion is done through a handle exactly if the engine does it. -/
theorem run_delete_iff (surface : Surface) (docId : String) (keepLatest : Bool) :
    run ⟨surface, engine⟩ disk (.delete docId keepLatest) = (.done, engine', disk') ↔
      engine.delete docId keepLatest disk = (.ok (), engine', disk') := by
  cases hdelete : engine.delete docId keepLatest disk with
  | mk result state =>
    cases surface with
    | engine =>
      simp only [run, runEngine, hdelete]
      cases result <;> simp [Answer.ofFallible]
    | database =>
      simp only [run, runDatabase, Database.delete, Retrieval.delete, hdelete]
      cases result <;> simp [Answer.ofFailable, Except.mapError]

end Handle

namespace Engine

variable {engine engine' : Engine} {disk disk' : Disk}

/-- What a deletion that is done does: nothing, or it commits what is left. -/
theorem delete_ok_inv (hidle : engine.staged = []) {docId : String} {keepLatest : Bool}
    (h : engine.delete docId keepLatest disk = (.ok (), engine', disk')) :
    engine.contents.delete docId keepLatest = none ∧ engine' = engine ∧ disk' = disk ∨
      ∃ after, engine.contents.delete docId keepLatest = some after ∧
        engine' = engine.withContents after := by
  rw [delete_eq hidle] at h
  cases hafter : engine.contents.delete docId keepLatest with
  | none =>
    rw [hafter] at h
    simp only [Prod.mk.injEq] at h
    exact .inl ⟨rfl, h.2.1.symm, h.2.2.symm⟩
  | some after =>
    rw [hafter] at h
    rcases settle_inv h with ⟨hfailed, -⟩ | ⟨-, hengine, -⟩
    · exact absurd hfailed (by simp)
    · exact .inr ⟨after, rfl, hengine⟩

/-- A deletion of a document that is not recorded does nothing. -/
theorem delete_unknown {docId : String} (h : engine.versionsOf docId = []) (keepLatest : Bool)
    (disk : Disk) : engine.delete docId keepLatest disk = (.ok (), engine, disk) := by
  have hknown : (engine.manifest.versionsOf docId).keys = [] := h
  unfold delete
  simp [hknown]

theorem Reachable.isOrderly_and_recordsIndexed {admits : Engine → HandleCommand → Prop}
    (h : Reachable admits engine disk) :
    engine.contents.IsOrderly ∧ engine.contents.RecordsIndexed := by
  refine h.contents_induction (fun contents => contents.IsOrderly ∧ contents.RecordsIndexed)
    ⟨Contents.isOrderly_empty, Contents.recordsIndexed_empty⟩ ?_
  rintro engine command after ⟨horderly, hrecords⟩ - hbecomes
  refine ⟨hbecomes.isOrderly horderly, ?_⟩
  cases hbecomes with
  | same => exact hrecords
  | inserted hinsert => exact hrecords.insert hinsert
  | deleted hdelete => exact hrecords.delete horderly hdelete

/-- A query finds some of these chunks and no others: a search does not fail, and a query to a
database gives no other chunks either. -/
structure FindsOnly (engine : Engine) (chunks : List Chunk) : Prop where
  search : ∀ text limit constraints, ∃ hits, engine.search text limit constraints = .ok hits ∧
    ∀ hit ∈ hits, hit.chunk ∈ chunks
  query : ∀ (text : String) (topK : Nat) (constraints : Constraints) (disk : Disk)
    (results : Results), (Database.query text topK constraints (engine, disk)).1 = .ok results →
      ∀ hit ∈ results.hits, hit.chunk ∈ chunks

theorem findsOnly_chunks (h : engine.contents.IsOrderly) :
    engine.FindsOnly engine.contents.chunks := by
  have hdecodes : ∀ entry ∈ engine.entries, ∃ chunk, entry.toChunk = .ok chunk := by
    intro entry hentry
    obtain ⟨stopWords, chunk, rfl⟩ := h.stored entry hentry
    exact ⟨chunk, Index.Entry.toChunk_ofChunk stopWords chunk⟩
  have hlive : ∀ {chunk : Chunk}, (∃ entry ∈ engine.entries, entry.toChunk = .ok chunk) →
      chunk ∈ engine.contents.chunks := by
    rintro chunk ⟨entry, hentry, hchunk⟩
    exact List.mem_filterMap.2 ⟨entry, hentry, by rw [hchunk]; rfl⟩
  constructor
  · intro text limit constraints
    obtain ⟨hits, hsearch, hhits⟩ := exists_search_eq_ok hdecodes text limit constraints
    exact ⟨hits, hsearch, fun hit hhit => hlive (hhits hit hhit)⟩
  · intro text topK constraints disk results hquery hit hhit
    rcases Database.query_outcome hdecodes text topK constraints disk with
      ⟨found, hfound, hhits⟩ | ⟨odd, hfailed⟩
    · rw [hquery] at hfound
      obtain rfl := Except.ok.inj hfound
      exact hlive (hhits hit hhit)
    · rw [hquery] at hfailed
      exact absurd hfailed (by simp)

/-- A deletion is done unless the disk is in trouble. -/
theorem IsStored.delete_eq_ok (h : engine.IsStored disk) (htrouble : disk.trouble = none)
    (docId : String) (keepLatest : Bool) : (engine.delete docId keepLatest disk).1 = .ok () := by
  rw [delete_eq_carryOut, (carryOut_outcome h _).1, htrouble]
  unfold deletion
  dsimp only
  generalize hdoomed : (if keepLatest = true then _ else _) = doomed
  split
  · rfl
  · rfl

/-- A deletion that is done leaves what a deletion has to leave, and the index stands for that. -/
theorem Reachable.deleted {admits : Engine → HandleCommand → Prop}
    (h : Reachable admits engine disk) {docId : String} {keepLatest : Bool}
    (hdelete : engine.delete docId keepLatest disk = (.ok (), engine', disk')) :
    Contents.Deleted docId keepLatest engine.contents engine'.contents ∧
      engine'.contents.IsOrderly ∧ engine'.IsStored disk' := by
  obtain ⟨hstored, hidle⟩ := h.isStored
  obtain ⟨horderly, hrecords⟩ := h.isOrderly_and_recordsIndexed
  have hafter := (hstored.delete docId keepLatest).isStored
  rw [hdelete] at hafter
  rcases delete_ok_inv hidle hdelete with ⟨hnone, rfl, rfl⟩ | ⟨after, hsome, rfl⟩
  · exact ⟨.of_delete_eq_none hrecords hnone, horderly, hstored⟩
  · exact ⟨.of_delete horderly hrecords hsome, horderly.delete hsome, hafter⟩

/-- A deletion of a document that is not recorded does nothing.  Any other is done unless the disk
is in trouble, and then takes out the doomed versions and the chunks of those whose version keys are
indexed, and touches nothing else; no query finds a chunk that went, also when the index is closed
and opened again. -/
theorem deletion_takes_out_doomed_versions {admits : Engine → HandleCommand → Prop}
    (h : Reachable admits engine disk) (surface : Surface) (docId : String) (keepLatest : Bool) :
    (engine.versionsOf docId = [] →
      Handle.run ⟨surface, engine⟩ disk (.delete docId keepLatest) = (.done, engine, disk)) ∧
    (disk.trouble = none → ∃ engine' disk',
      Handle.run ⟨surface, engine⟩ disk (.delete docId keepLatest) = (.done, engine', disk')) ∧
    ∀ engine' disk',
      Handle.run ⟨surface, engine⟩ disk (.delete docId keepLatest) = (.done, engine', disk') →
        Contents.Deleted docId keepLatest engine.contents engine'.contents ∧
        engine'.FindsOnly engine'.contents.chunks ∧
        (∀ settings : Settings, settings.Opens → ∃ found opened,
          Engine.open engine'.path settings (engine'.close disk') = (.ok found, opened)) ∧
        ∀ path settings between found opened,
          engine'.Untouched (engine'.close disk') between →
          Engine.open path settings between = (.ok found, opened) → found.home = engine'.home →
            found.contents = engine'.contents ∧ found.FindsOnly engine'.contents.chunks := by
  refine ⟨?_, ?_, ?_⟩
  · intro hunknown
    exact (Handle.run_delete_iff surface docId keepLatest).2
      (delete_unknown hunknown keepLatest disk)
  · intro htrouble
    have hdone := h.isStored.1.delete_eq_ok htrouble docId keepLatest
    exact ⟨_, _, (Handle.run_delete_iff surface docId keepLatest).2 (Prod.ext hdone rfl)⟩
  · intro engine' disk' hrun
    obtain ⟨hdeleted, horderly, hstored⟩ :=
      h.deleted ((Handle.run_delete_iff surface docId keepLatest).1 hrun)
    refine ⟨hdeleted, findsOnly_chunks horderly, ?_, ?_⟩
    · intro settings hsettings
      exact ⟨_, _, open_close hstored hsettings⟩
    · intro path settings between found opened huntouched hopen hhome
      obtain ⟨-, hcontents⟩ := isStored_of_reopen hstored huntouched hopen hhome
      refine ⟨hcontents, ?_⟩
      rw [← hcontents] at horderly ⊢
      exact findsOnly_chunks horderly

/-- Calls that are done lead from one state that can be reached to another. -/
theorem Reachable.called_of_done (h : Reachable (fun _ _ => True) engine disk)
    {command : HandleCommand} (hcommand : command ≠ .close)
    (hdone : (Handle.runEngine (engine, disk) command).1 = .done) :
    Reachable (fun _ _ => True) (Handle.runEngine (engine, disk) command).2.1
      (Handle.runEngine (engine, disk) command).2.2 := by
  have hids : (Handle.runEngine (engine, disk) command).1 ≠ .fault .idsExhausted := by
    rw [hdone]
    simp
  exact h.called trivial hcommand rfl hids

/-- A second version of the document of the first insertion. -/
def secondVersion : Engine × Disk :=
  (Handle.runEngine firstInsertion (.insert ["three"] [.empty] "a.txt" "a" none)).2

/-- A document with the separator of version keys in its id, beside the two versions. -/
def separatorInId : Engine × Disk :=
  (Handle.runEngine secondVersion (.insert ["four"] [.empty] "b.txt" "a\x1f1" none)).2

theorem older_version_is_taken_out :
    ∃ engine' disk',
      Handle.run ⟨.database, separatorInId.1⟩ separatorInId.2 (.delete "a" true) =
        (.done, engine', disk') ∧
      engine'.contents.chunks.map (·.text) = ["three", "four"] ∧
      engine'.sources = [⟨"a.txt", "a", 2⟩, ⟨"b.txt", "a\x1f1", 1⟩] ∧
      Contents.Deleted "a" true separatorInId.1.contents engine'.contents ∧
      engine'.FindsOnly engine'.contents.chunks := by
  have hfirst : Reachable (fun _ _ => True) firstInsertion.1 firstInsertion.2 :=
    reachable_firstInsertion trivial
  have hsecond : Reachable (fun _ _ => True) secondVersion.1 secondVersion.2 :=
    hfirst.called_of_done (by simp) rfl
  have hthird : Reachable (fun _ _ => True) separatorInId.1 separatorInId.2 :=
    hsecond.called_of_done (by simp) rfl
  have hdelete : (separatorInId.1.delete "a" true separatorInId.2).1 = .ok () := by decide +kernel
  have hrun : Handle.run ⟨.database, separatorInId.1⟩ separatorInId.2 (.delete "a" true) =
      (.done, (separatorInId.1.delete "a" true separatorInId.2).2) :=
    (Handle.run_delete_iff .database "a" true).2 (Prod.ext hdelete rfl)
  obtain ⟨-, -, hdone⟩ := deletion_takes_out_doomed_versions hthird .database "a" true
  obtain ⟨hdeleted, hfinds, -⟩ := hdone _ _ hrun
  exact ⟨_, _, hrun, by decide +kernel, by decide +kernel, hdeleted, hfinds⟩

/-! ### Ids that are too long -/

/-- An engine and its disk after a chunk was inserted under an id. -/
def alphaInserted (docId : String) : Engine × Disk :=
  (Handle.runEngine (newEngine .default, newDisk) (.insert ["alpha"] [.empty] "a.txt" docId none)).2

theorem insert_alpha (docId : String) :
    (newEngine .default).insert ["alpha"] [.empty] "a.txt" docId none newDisk =
      (.ok (), alphaInserted docId) := by
  have hstored := (isStored_of_open_fresh (open_empty Settings.opens_default) rfl).1
  refine Prod.ext ?_ rfl
  rw [insert_eq_carryOut, (carryOut_outcome hstored _).1]
  rfl

theorem reachable_alphaInserted (docId : String) :
    Reachable (fun _ _ => True) (alphaInserted docId).1 (alphaInserted docId).2 ∧
      ReachableBy Settings.defaultStopWords (alphaInserted docId).1 (alphaInserted docId).2 := by
  have hopened : Reachable (fun _ _ => True) (newEngine .default) newDisk :=
    .opened (open_empty Settings.opens_default) rfl
  have hwords : ReachableBy Settings.defaultStopWords (newEngine .default) newDisk :=
    .opened rfl (open_empty Settings.opens_default) rfl
  have hcommand : HandleCommand.insert ["alpha"] [.empty] "a.txt" docId none ≠ .close := by simp
  refine ⟨hopened.called_of_done hcommand ?_, hwords.called hcommand⟩
  simp only [Handle.runEngine, insert_alpha]
  rfl

theorem trouble_alphaInserted (docId : String) : (alphaInserted docId).2.trouble = none := by
  have hstored := (isStored_of_open_fresh (open_empty Settings.opens_default) rfl).1
  exact (hstored.insert ["alpha"] [.empty] "a.txt" docId none).writes.trouble

theorem chunks_alphaInserted (docId : String) :
    (alphaInserted docId).1.contents.chunks = [⟨0, "alpha", "a.txt", docId, 1, .empty⟩] := by
  rcases insert_inv rfl (insert_alpha docId) (by simp) with
    ⟨⟨_, hfailed⟩, -⟩ | ⟨-, after, hafter, hcopy, -⟩
  · exact absurd hfailed (by simp)
  · obtain ⟨version, hversion, -, hchunks⟩ := Contents.chunks_insert hafter
    obtain rfl := Except.ok.inj hversion
    have hcontents : (alphaInserted docId).1.contents = after := congrArg contents hcopy
    rw [hcontents]
    exact hchunks

/-- A document id so long that no version key of it is indexed. -/
def longId : String :=
  String.ofList (List.replicate Index.longestTerm 'd')

theorem not_isIndexed_longId (version : UInt32) :
    isIndexed (versionKey longId version) = false := by
  have hsize : ∀ n : Nat, (String.ofList (List.replicate n 'd')).utf8ByteSize = n := by
    intro n
    rw [String.utf8ByteSize_ofList]
    induction n with
    | zero => rfl
    | succ n ih => rw [List.replicate_succ, String.utf8Len_cons, ih]; rfl
  have hseparator : ("\x1f" : String).utf8ByteSize = 1 := rfl
  have hlong : longId.utf8ByteSize = Index.longestTerm := hsize _
  unfold isIndexed versionKey
  rw [String.utf8ByteSize_append, String.utf8ByteSize_append, hlong, hseparator,
    decide_eq_false_iff_not]
  omega

/-- A deletion of all versions of a document is done, and none is listed any more, but the chunk of
a version whose key is not indexed is still found. -/
theorem exists_search_of_not_isIndexed {docId : String}
    (h : isIndexed (versionKey docId 1) = false) :
    ∃ engine' disk',
      Handle.run ⟨.database, (alphaInserted docId).1⟩ (alphaInserted docId).2
        (.delete docId false) = (.done, engine', disk') ∧
      engine'.versionsOf docId = [] ∧
      ∃ hits, engine'.search "alpha" 5 .empty = .ok hits ∧
        ∃ hit ∈ hits, hit.chunk = ⟨0, "alpha", "a.txt", docId, 1, .empty⟩ := by
  obtain ⟨hreachable, hwords⟩ := reachable_alphaInserted docId
  have hchunks := chunks_alphaInserted docId
  have htrouble := trouble_alphaInserted docId
  generalize (alphaInserted docId).1 = engine at *
  generalize (alphaInserted docId).2 = disk at *
  have hok := hreachable.isStored.1.delete_eq_ok htrouble docId false
  obtain ⟨engine', disk', hdelete⟩ : ∃ engine' disk',
      engine.delete docId false disk = (.ok (), engine', disk') := ⟨_, _, Prod.ext hok rfl⟩
  have hcommand : HandleCommand.delete docId false ≠ .close := by simp
  have hindexes := (hwords.called hcommand).isStored_and_indexesBy.2
  simp only [Handle.runEngine, hdelete] at hindexes
  obtain ⟨hdeleted, -, -⟩ := hreachable.deleted hdelete
  have hstays : engine'.contents.chunks = [⟨0, "alpha", "a.txt", docId, 1, .empty⟩] := by
    rw [hdeleted.chunks, hchunks]
    simp [h]
  have hnone : engine'.versionsOf docId = [] := by
    apply List.eq_nil_iff_forall_not_mem.2
    intro version
    have hname : engine'.manifest.nameOf? docId version = none := by
      rw [hdeleted.names]
      simp [Index.Manifest.isDoomed]
    exact Index.Manifest.nameOf?_eq_none_iff.1 hname
  have hletters : ("alpha".toList.all Text.isAlphanumeric) = true := by decide +kernel
  have hrun : Text.IsMaximalRun "alpha".toList "alpha".toList :=
    ⟨⟨by simp, by simpa using hletters⟩, [], [], by simp, by simp, by simp⟩
  have hlive : (⟨0, "alpha", "a.txt", docId, 1, .empty⟩ : Chunk) ∈ engine'.contents.chunks := by
    rw [hstays]
    exact List.mem_singleton_self _
  have hlimit : engine'.contents.chunks.length ≤ 5 := by
    rw [hstays, List.length_singleton]
    omega
  exact ⟨engine', disk', (Handle.run_delete_iff .database docId false).2 hdelete, hnone,
    hindexes.exists_mem_search hlive hrun (by decide +kernel) (by decide +kernel) hlimit⟩

theorem deleted_chunk_of_longId_is_found :
    Reachable (fun _ _ => True) (alphaInserted longId).1 (alphaInserted longId).2 ∧
      (alphaInserted longId).1.contents.chunks = [⟨0, "alpha", "a.txt", longId, 1, .empty⟩] ∧
      ∃ engine' disk',
        Handle.run ⟨.database, (alphaInserted longId).1⟩ (alphaInserted longId).2
          (.delete longId false) = (.done, engine', disk') ∧
        engine'.versionsOf longId = [] ∧
        ∃ hits, engine'.search "alpha" 5 .empty = .ok hits ∧
          ∃ hit ∈ hits, hit.chunk = ⟨0, "alpha", "a.txt", longId, 1, .empty⟩ :=
  ⟨(reachable_alphaInserted longId).1, chunks_alphaInserted longId,
    exists_search_of_not_isIndexed (not_isIndexed_longId 1)⟩

end Engine

end ChunkStore
