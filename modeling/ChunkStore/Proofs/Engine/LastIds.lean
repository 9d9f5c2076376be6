import ChunkStore.Proofs.Engine.Inserting
import ChunkStore.Proofs.Engine.Waiting

/-!
# Where the chunk ids run out

Chunk ids are counted up in a word, and an index can be opened with any count.  As long as the ids
reach for all chunks of an insertion, it gives consecutive ones and counts them, or is refused and
changes nothing.  Where they do not reach, no count ever wraps around, but an insertion that finds a
version breaks off: the chunks that still got an id stay staged, and go out with the next commit.
-/

set_option autoImplicit false

namespace ChunkStore

open ChunkStore.Index (Change Contents Entry Manifest)
open ChunkStore.Engine (numberedChunks)

theorem Index.VersionFault.message_ne_idsExhausted (fault : VersionFault) :
    fault.message ≠ EngineFault.idsExhausted.message := by
  have hdocument : ∀ rest : String,
      "document '" ++ rest ≠ "panicked: attempt to add with overflow" := by
    intro rest heq
    have hhead : ("document '" ++ rest).toList.head? = some 'd' := by
      rw [String.toList_append]
      rfl
    rw [heq] at hhead
    exact absurd hhead (by decide)
  cases fault with
  | taken docId version =>
    simp only [message, String.append_assoc]
    exact hdocument _
  | exhausted docId =>
    simp only [message, String.append_assoc]
    exact hdocument _

namespace Engine

variable {engine engine' : Engine} {disk disk' : Disk} {texts : List String}
  {maps : List Metadata} {result : Except EngineFault Unit}

/-- Where the chunk ids reach, an insertion is refused or rolled back and changes nothing, or it is
done. -/
theorem insert_of_room (hidle : engine.staged = []) {document docId : String}
    {requested : Option UInt32} (hcount : texts.length = maps.length)
    (hroom : engine.manifest.nextChunkId.toNat + texts.length < UInt64.size)
    (h : engine.insert texts maps document docId requested disk = (result, engine', disk')) :
    (∃ fault, result = .error fault ∧ fault.message ≠ EngineFault.idsExhausted.message ∧
        engine' = engine ∧ disk' = disk) ∨
      result = .ok () ∧ engine'.staged = [] ∧ ∃ version,
        engine.manifest.Gives docId requested version ∧
        Contents.Inserted texts maps document docId version engine.contents engine'.contents := by
  rcases engine.contents.insert_cases engine.stopWords document docId requested hcount hroom with
    ⟨-, after, hafter⟩ | ⟨-, fault, hfault⟩
  · rw [insert_eq hidle (by rw [hafter]; simp) disk, hafter] at h
    rcases settle_inv h with ⟨rfl, rfl, rfl⟩ | ⟨rfl, rfl, -⟩
    · exact .inl ⟨_, rfl, by decide, rfl, rfl⟩
    · exact .inr ⟨rfl, rfl, Contents.inserted_of_insert hafter⟩
  · rw [insert_eq hidle (by rw [hfault]; simp) disk, hfault] at h
    simp only [Prod.mk.injEq] at h
    obtain ⟨rfl, rfl, rfl⟩ := h
    exact .inl ⟨_, rfl, fault.message_ne_idsExhausted, rfl, rfl⟩

/-- The last chunk ids are given once each, up to the very last one. -/
theorem map_toNat_numbered (hcount : texts.length = maps.length)
    (hfull : UInt64.size ≤ engine.manifest.nextChunkId.toNat + texts.length)
    (document docId : String) (version : UInt32) :
    (engine.numbered texts maps document docId version).map (·.id.toNat) =
      (List.range (UInt64.size - engine.manifest.nextChunkId.toNat)).map
        (engine.manifest.nextChunkId.toNat + ·) := by
  have hids : (numberedChunks engine.manifest.nextChunkId.toNat document docId version texts
      maps).map (·.id) =
        (List.range texts.length).map fun i =>
          UInt64.ofNat (engine.manifest.nextChunkId.toNat + i) := by
    rw [Contents.map_id_numberedChunks, ← hcount, Nat.min_self]
  have hleft : UInt64.size - engine.manifest.nextChunkId.toNat ≤ texts.length := by omega
  have hcompose : (fun chunk : Chunk => chunk.id.toNat) = UInt64.toNat ∘ (·.id) := rfl
  rw [numbered, List.map_take, hcompose, ← List.map_map, hids, List.map_map, ← List.map_take,
    List.take_range, Nat.min_eq_left hleft]
  apply List.map_congr_left
  intro i hi
  have hlt := List.mem_range.1 hi
  exact UInt64.toNat_ofNat_of_lt' (by omega)

/-- A disk takes the first of the changes that are staged, and all of them unless it is in
trouble. -/
theorem exists_stage_map {α : Type} (engine : Engine) (change : α → Change) (items : List α)
    (disk : Disk) :
    ∃ taken, taken <+: items ∧ (disk.trouble = none → taken = items) ∧
      (engine.stage (items.map change) disk).2 =
        { engine with staged := engine.staged ++ taken.map change } := by
  unfold stage
  cases htrouble : disk.trouble with
  | none => exact ⟨items, List.prefix_refl items, fun _ => rfl, rfl⟩
  | some room =>
    refine ⟨items.take room, List.take_prefix room items, by simp, ?_⟩
    rw [List.map_take]

/-- Where the chunk ids do not reach, an insertion that finds a version stages the chunks that still
get an id, as far as the disk takes them, and breaks off; any other one is refused. -/
theorem insert_of_full (engine : Engine) (disk : Disk) (document docId : String)
    (requested : Option UInt32) (hcount : texts.length = maps.length)
    (hfull : UInt64.size ≤ engine.manifest.nextChunkId.toNat + texts.length) :
    (engine.manifest.Takes docId requested ∧ ∃ version,
        engine.manifest.Gives docId requested version ∧
        engine.insert texts maps document docId requested disk =
          (.error .idsExhausted,
            (engine.stage ((engine.numbered texts maps document docId version).map fun chunk =>
              .add (.ofChunk engine.stopWords chunk)) disk).2, disk)) ∨
      ¬engine.manifest.Takes docId requested ∧ ∃ fault : Index.VersionFault,
        engine.insert texts maps document docId requested disk =
          (.error (.version fault), engine, disk) := by
  unfold insert
  rw [if_neg (not_not_intro hcount)]
  cases hversion : engine.manifest.resolveVersion docId requested with
  | ok version =>
    have hgives := Manifest.gives_of_resolveVersion hversion
    refine .inl ⟨hgives.takes, version, hgives, ?_⟩
    dsimp only
    rw [if_pos hfull]
    rfl
  | error fault =>
    refine .inr ⟨?_, fault, rfl⟩
    intro htakes
    obtain ⟨version, hok⟩ := htakes.exists_resolveVersion
    rw [hversion] at hok
    exact absurd hok (by simp)

end Engine

namespace Handle

/-- A call that fails, but not for want of chunk ids, and changes nothing. -/
structure Refuses (handle : Handle) (disk : Disk) (outcome : Answer × Engine × Disk) : Prop where
  isError : outcome.1.IsError
  isNotOutOfIds : ¬outcome.1.IsOutOfIds
  unchanged : outcome.2 = (handle.engine, disk)

/-- An insertion that is done: it gave consecutive chunk ids and counted them. -/
structure Inserts (handle : Handle) (texts : List String) (maps : List Metadata)
    (document docId : String) (requested : Option UInt32) (outcome : Answer × Engine × Disk) :
    Prop where
  done : outcome.1 = .done
  isIdle : outcome.2.1.staged = []
  inserted : ∃ version, handle.engine.manifest.Gives docId requested version ∧
    Contents.Inserted texts maps document docId version handle.engine.contents
      outcome.2.1.contents

/-- An insertion that breaks off when the chunk ids run out: the chunks that got an id, each its own
one, are staged as far as the disk takes them, and nothing else is changed. -/
structure BreaksOff (handle : Handle) (texts : List String) (maps : List Metadata)
    (document docId : String) (requested : Option UInt32) (disk : Disk)
    (outcome : Answer × Engine × Disk) : Prop where
  isOutOfIds : outcome.1.IsOutOfIds
  sameDisk : outcome.2.2 = disk
  stranded : ∃ version, handle.engine.manifest.Gives docId requested version ∧
    ∃ stranded, stranded <+: numberedChunks handle.engine.manifest.nextChunkId.toNat document docId
        version texts maps ∧
      (disk.trouble = none → stranded.map (·.id.toNat) =
        (List.range (UInt64.size - handle.engine.manifest.nextChunkId.toNat)).map
          (handle.engine.manifest.nextChunkId.toNat + ·)) ∧
      outcome.2.1 = { handle.engine with
        staged := stranded.map fun chunk => .add (.ofChunk handle.engine.stopWords chunk) }

/-- An engine refuses texts that come without as many metadata maps. -/
theorem run_insert_of_count_ne {texts : List String} {maps : List Metadata}
    (hcount : texts.length ≠ maps.length) (engine : Engine) (disk : Disk)
    (document docId : String) (requested : Option UInt32) :
    run ⟨.engine, engine⟩ disk (.insert texts maps document docId requested) =
      (.fault (.countMismatch texts.length maps.length), engine, disk) := by
  simp only [run, runEngine, Engine.insert, if_pos hcount]
  rfl

/-- All that an insertion on an engine with nothing staged can come to. -/
theorem run_insert_cases {handle : Handle} (hidle : handle.engine.staged = []) (disk : Disk)
    {texts : List String} {maps : List Metadata} (document docId : String)
    (requested : Option UInt32) (hcount : texts.length = maps.length) {outcome}
    (houtcome : handle.run disk (.insert texts maps document docId requested) = outcome) :
    (handle.engine.manifest.nextChunkId.toNat + texts.length < UInt64.size →
      handle.Refuses disk outcome ∨ handle.Inserts texts maps document docId requested outcome) ∧
    (UInt64.size ≤ handle.engine.manifest.nextChunkId.toNat + texts.length →
      (¬handle.engine.manifest.Takes docId requested → handle.Refuses disk outcome) ∧
      (handle.engine.manifest.Takes docId requested →
        handle.BreaksOff texts maps document docId requested disk outcome)) := by
  obtain ⟨surface, engine⟩ := handle
  cases hinsert : engine.insert texts maps document docId requested disk with
  | mk result state =>
    obtain ⟨engine', disk'⟩ := state
    obtain ⟨answer, hrun, hdone, hfails⟩ := run_insert hcount hinsert surface
    obtain rfl := hrun.symm.trans houtcome
    constructor
    · intro hroom
      rcases Engine.insert_of_room hidle hcount hroom hinsert with
        ⟨fault, rfl, hmessage, rfl, rfl⟩ | ⟨rfl, hstaged, hinserted⟩
      · have hreports := hfails fault rfl
        exact .inl ⟨hreports.isError, hreports.not_isOutOfIds hmessage, rfl⟩
      · exact .inr ⟨hdone rfl, hstaged, hinserted⟩
    · intro hfull
      rcases Engine.insert_of_full engine disk document docId requested hcount hfull with
        ⟨htakes, version, hgives, hbreaks⟩ | ⟨hrefused, fault, hrefuses⟩
      · refine ⟨fun hrefused => absurd htakes hrefused, fun _ => ?_⟩
        rw [hinsert] at hbreaks
        obtain ⟨rfl, hstate⟩ := Prod.mk.inj hbreaks
        obtain ⟨rfl, rfl⟩ := Prod.mk.inj hstate
        obtain ⟨stranded, hprefix, hall, hstage⟩ := engine.exists_stage_map
          (fun chunk : Chunk => .add (.ofChunk engine.stopWords chunk))
          (engine.numbered texts maps document docId version) disk'
        refine ⟨hfails _ rfl, rfl, version, hgives, stranded, hprefix.trans (List.take_prefix _ _),
          ?_, ?_⟩
        · intro htrouble
          rw [hall htrouble]
          exact Engine.map_toNat_numbered hcount hfull document docId version
        · rw [hstage, show engine.staged = [] from hidle, List.nil_append]
      · refine ⟨fun _ => ?_, fun htakes => absurd htakes hrefused⟩
        rw [hinsert] at hrefuses
        obtain ⟨rfl, hstate⟩ := Prod.mk.inj hrefuses
        obtain ⟨rfl, rfl⟩ := Prod.mk.inj hstate
        have hreports := hfails _ rfl
        exact ⟨hreports.isError, hreports.not_isOutOfIds fault.message_ne_idsExhausted, rfl⟩

end Handle

namespace Workspace

/-- From whatever manifest an index was opened, and whatever was done since, an insertion whose
chunks all find an id gives the next ids in their order and counts them, or fails and changes
nothing.  One whose chunks do not all find an id never wraps the count around: it is refused and
changes nothing if the document gets no version, and else it breaks off and leaves chunks staged. -/
theorem insertion_counts_or_breaks_off {start : Workspace} (hstart : start.handles = .empty)
    {before : List Event} (hids : ∀ answer ∈ (start.run before).1, ¬answer.IsOutOfIds)
    {name : String} {handle : Handle}
    (hfind : (start.run before).2.handles.find? name = some handle) (texts : List String)
    (maps : List Metadata) (document docId : String) (requested : Option UInt32) {outcome}
    (houtcome : handle.run (start.run before).2.disk
      (.insert texts maps document docId requested) = outcome) :
    (texts.length ≠ maps.length → handle.surface = .engine →
      handle.Refuses (start.run before).2.disk outcome) ∧
    (texts.length = maps.length →
      (handle.engine.manifest.nextChunkId.toNat + texts.length < UInt64.size →
        handle.Refuses (start.run before).2.disk outcome ∨
          handle.Inserts texts maps document docId requested outcome) ∧
      (UInt64.size ≤ handle.engine.manifest.nextChunkId.toNat + texts.length →
        (¬handle.engine.manifest.Takes docId requested →
          handle.Refuses (start.run before).2.disk outcome) ∧
        (handle.engine.manifest.Takes docId requested →
          handle.BreaksOff texts maps document docId requested (start.run before).2.disk
            outcome))) := by
  have hidle : start.IsIdle := by
    intro other found hfound
    rw [hstart] at hfound
    exact absurd hfound (by simp)
  have hstaged := hidle.run hids name handle hfind
  refine ⟨?_, fun hcount => ?_⟩
  · intro hcount hsurface
    obtain ⟨surface, engine⟩ := handle
    obtain rfl : surface = .engine := hsurface
    obtain rfl :=
      (Handle.run_insert_of_count_ne hcount engine _ document docId requested).symm.trans houtcome
    exact ⟨trivial, by simp [Answer.IsOutOfIds], rfl⟩
  · exact Handle.run_insert_cases hstaged _ document docId requested hcount houtcome

/-- A text that has but two chunk ids left. -/
def lastIdsText : String :=
  "\x7b\"next_chunk_id\":18446744073709551614,\"versions\":\x7b\x7d\x7d"

/-- A disk with an index in the working directory that has the text. -/
def lastIdsDisk : Disk :=
  Disk.empty.put (descriptionOf []) (.description ⟨[], some lastIdsText⟩)

/-- The engine that is opened on it. -/
def lastIdsEngine : Engine :=
  ⟨".", [], 0, Settings.default.stopWords, ⟨18446744073709551614, .empty⟩, [], []⟩

theorem open_lastIdsDisk :
    Engine.open "." .default lastIdsDisk = (.ok lastIdsEngine, lastIdsDisk.hold 0) := by
  have htext : Manifest.ofText? lastIdsText = some ⟨18446744073709551614, .empty⟩ := by
    decide +kernel
  have hindex : lastIdsDisk.HoldsIndex [] ⟨⟨18446744073709551614, .empty⟩, []⟩ :=
    ⟨⟨⟨[], some lastIdsText⟩, rfl, rfl, htext⟩, by simp, rfl⟩
  exact Engine.open_of_holdsIndex Settings.opens_default rfl rfl hindex (by decide)

/-- A workspace in which the engine is opened. -/
def lastIdsWorkspace : Workspace :=
  (run ⟨lastIdsDisk, [], .empty⟩ [.command (.openEngine "e" "." (some .default))]).2

theorem run_lastIdsWorkspace :
    run ⟨lastIdsDisk, [], .empty⟩ [.command (.openEngine "e" "." (some .default))] =
      ([.done], ⟨lastIdsDisk.hold 0, [], Dict.empty.insert "e" ⟨.engine, lastIdsEngine⟩⟩) := by
  simp only [run, step, open_lastIdsDisk]
  rfl

theorem three_chunks_for_two_ids_break_off :
    ∃ handle outcome, lastIdsWorkspace.handles.find? "e" = some handle ∧
      handle.run lastIdsWorkspace.disk
        (.insert ["alpha", "beta", "gamma"] [.empty, .empty, .empty] "a.txt" "a" none) = outcome ∧
      handle.BreaksOff ["alpha", "beta", "gamma"] [.empty, .empty, .empty] "a.txt" "a" none
        lastIdsWorkspace.disk outcome := by
  have hids : ∀ answer ∈ (run ⟨lastIdsDisk, [], .empty⟩
      [.command (.openEngine "e" "." (some .default))]).1, ¬answer.IsOutOfIds := by
    rw [run_lastIdsWorkspace]
    simp [Answer.IsOutOfIds]
  have hfind : lastIdsWorkspace.handles.find? "e" = some ⟨.engine, lastIdsEngine⟩ := by
    rw [lastIdsWorkspace, run_lastIdsWorkspace]
    rfl
  have htakes : lastIdsEngine.manifest.Takes "a" none := by
    unfold Manifest.Takes
    decide +kernel
  obtain ⟨-, houtcome⟩ := insertion_counts_or_breaks_off rfl hids hfind
    ["alpha", "beta", "gamma"] [.empty, .empty, .empty] "a.txt" "a" none rfl
  exact ⟨_, _, hfind, rfl, ((houtcome rfl).2 (by decide +kernel)).2 htakes⟩

/-- The engine after that, and after a document without chunks is inserted. -/
def goneOut : Answer × Engine × Disk :=
  Handle.runEngine
    (Handle.runEngine (lastIdsEngine, lastIdsDisk.hold 0)
      (.insert ["alpha", "beta", "gamma"] [.empty, .empty, .empty] "a.txt" "a" none)).2
    (.insert [] [] "b.txt" "b" none)

/-- Of three chunks for which there are two ids left two stay staged when the insertion breaks off.
The next insertion, which is done, commits them: they are found as chunks of a version that is not
recorded. -/
theorem chunks_of_broken_off_insertion_go_out :
    Engine.open "." .default lastIdsDisk = (.ok lastIdsEngine, lastIdsDisk.hold 0) ∧
      (Handle.runEngine (lastIdsEngine, lastIdsDisk.hold 0)
        (.insert ["alpha", "beta", "gamma"] [.empty, .empty, .empty] "a.txt" "a" none)).1 =
          .fault .idsExhausted ∧
      (Handle.runEngine (lastIdsEngine, lastIdsDisk.hold 0)
        (.insert ["alpha", "beta", "gamma"] [.empty, .empty, .empty] "a.txt" "a" none)).2.1.staged ≠
          lastIdsEngine.staged ∧
      goneOut.1 = .done ∧ goneOut.2.1.sources = [⟨"b.txt", "b", 1⟩] ∧
      goneOut.2.1.contents.chunks.map (fun chunk => (chunk.docId, chunk.version, chunk.id)) =
        [("a", 1, 18446744073709551614), ("a", 1, 18446744073709551615)] := by
  refine ⟨open_lastIdsDisk, rfl, ?_, rfl, ?_, ?_⟩
  · decide +kernel
  · decide +kernel
  · decide +kernel

end Workspace

end ChunkStore
