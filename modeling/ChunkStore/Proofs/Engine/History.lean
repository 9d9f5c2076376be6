import ChunkStore.Proofs.Engine.Reachable
import ChunkStore.Proofs.Index.Insertions

/-!
# Chunk ids are never given again

A history is what happened to one index since it was made: every call with its answer and with the
chunks that were not there before it, through closing and opening again and whatever else happens to
the disk in between.  The ids given over the whole history are the numbers from zero on, in the
order in which chunks were inserted, so none is given twice, and the next one is the number of
chunks that were ever inserted, deleted ones included.
-/

set_option autoImplicit false

namespace ChunkStore

open ChunkStore.Index (Contents)

namespace Index.Contents

variable {before after : Contents}

/-- The chunks of an index that were not there before. -/
def newcomers (before after : Contents) : List Chunk :=
  after.chunks.filter fun chunk => chunk ∉ before.chunks

theorem newcomers_of_subset (h : ∀ chunk ∈ after.chunks, chunk ∈ before.chunks) :
    before.newcomers after = [] := by
  apply List.filter_eq_nil_iff.2
  intro chunk hchunk
  simpa using h chunk hchunk

theorem newcomers_of_append {added : List Chunk} (h : after.chunks = before.chunks ++ added)
    (hnew : ∀ chunk ∈ added, chunk ∉ before.chunks) : before.newcomers after = added := by
  have hold : (before.chunks.filter fun chunk => chunk ∉ before.chunks) = [] :=
    newcomers_of_subset fun _ hchunk => hchunk
  have hadded : (added.filter fun chunk => chunk ∉ before.chunks) = added := by
    apply List.filter_eq_self.2
    intro chunk hchunk
    simpa using hnew chunk hchunk
  unfold newcomers
  rw [h, List.filter_append, hold, hadded, List.nil_append]

theorem chunks_subset_of_delete {docId : String} {keepLatest : Bool}
    (h : before.delete docId keepLatest = some after) :
    ∀ chunk ∈ after.chunks, chunk ∈ before.chunks := by
  intro chunk hchunk
  unfold chunks at hchunk ⊢
  rw [(delete_inv h).2] at hchunk
  exact (List.filter_sublist.filterMap _).subset hchunk

end Index.Contents

namespace Engine

/-- A call, its answer, and the chunks that came in with it. -/
structure Occurrence where
  command : HandleCommand
  answer : Answer
  added : List Chunk

namespace Occurrence

/-- The number of chunks that a call hands in. -/
def handedIn (occurrence : Occurrence) : Nat :=
  match occurrence.command with
  | .insert texts .. => texts.length
  | _ => 0

/-- The number of chunks that a call inserts. -/
def inserted (occurrence : Occurrence) : Nat :=
  match occurrence.answer with
  | .done => occurrence.handedIn
  | _ => 0

/-- An insertion that is done adds the chunks that were handed in, in their order, and any other
call adds none. -/
def IsAccounted (occurrence : Occurrence) : Prop :=
  match occurrence.command, occurrence.answer with
  | .insert texts maps document docId _, .done =>
    occurrence.added.map (·.text) = texts ∧ occurrence.added.map (·.metadata) = maps ∧
      ∀ chunk ∈ occurrence.added, chunk.document = document ∧ chunk.docId = docId
  | _, _ => occurrence.added = []

end Occurrence

/-- What can have happened to an index since it was made in a directory without one. -/
inductive History : List Occurrence → Engine → Disk → Prop where
  | opened {path : String} {settings : Settings} {disk after : Disk} {engine : Engine}
      (hopen : Engine.open path settings disk = (.ok engine, after))
      (hfresh : disk.nodes (descriptionOf engine.home) = none) : History [] engine after
  | called {past : List Occurrence} {engine engine' : Engine} {disk disk' : Disk}
      {command : HandleCommand} {answer : Answer} (before : History past engine disk)
      (hcommand : command ≠ .close)
      (hcall : Handle.runEngine (engine, disk) command = (answer, engine', disk')) :
      History (past ++ [⟨command, answer, engine.contents.newcomers engine'.contents⟩])
        engine' disk'
  | reopened {past : List Occurrence} {engine engine' : Engine} {disk between after : Disk}
      {path : String} {settings : Settings} (before : History past engine disk)
      (huntouched : engine.Untouched (engine.close disk) between)
      (hopen : Engine.open path settings between = (.ok engine', after))
      (hhome : engine'.home = engine.home) : History past engine' after
  | meanwhile {past : List Occurrence} {engine : Engine} {disk after : Disk}
      (before : History past engine disk) (huntouched : engine.Untouched disk after) :
      History past engine after

/-- The ids of all chunks that came in, in their order. -/
def assigned (past : List Occurrence) : List UInt64 :=
  past.flatMap fun occurrence => occurrence.added.map (·.id)

/-- The number of chunks that were handed in. -/
def handedIn (past : List Occurrence) : Nat :=
  (past.map Occurrence.handedIn).sum

/-- The number of chunks that were inserted. -/
def inserted (past : List Occurrence) : Nat :=
  (past.map Occurrence.inserted).sum

/-- What is kept up through a history. -/
structure Accounts (past : List Occurrence) (contents : Contents) : Prop where
  ids : (assigned past).map UInt64.toNat = List.range (inserted past)
  next : contents.manifest.nextChunkId.toNat = inserted past
  present : ∀ chunk ∈ contents.chunks, chunk.id ∈ assigned past
  accounted : ∀ occurrence ∈ past, occurrence.IsAccounted

section

variable {past : List Occurrence} {contents after : Contents}

theorem accounts_nil : Accounts [] .empty where
  ids := rfl
  next := rfl
  present := by
    intro chunk hchunk
    exact absurd hchunk List.not_mem_nil
  accounted := by
    intro occurrence hmem
    exact absurd hmem List.not_mem_nil

theorem Accounts.lt_next (h : Accounts past contents) {chunk : Chunk}
    (hchunk : chunk ∈ contents.chunks) :
    chunk.id.toNat < contents.manifest.nextChunkId.toNat := by
  have hassigned : chunk.id.toNat ∈ (assigned past).map UInt64.toNat :=
    List.mem_map_of_mem (h.present chunk hchunk)
  rw [h.ids, List.mem_range] at hassigned
  rw [h.next]
  exact hassigned

/-- A call that adds nothing keeps the accounts. -/
theorem Accounts.append_nothing (h : Accounts past contents) {occurrence : Occurrence}
    (hadded : occurrence.added = []) (hinserted : occurrence.inserted = 0)
    (haccounted : occurrence.IsAccounted)
    (hnext : after.manifest.nextChunkId = contents.manifest.nextChunkId)
    (hchunks : ∀ chunk ∈ after.chunks, chunk ∈ contents.chunks) :
    Accounts (past ++ [occurrence]) after := by
  have hassigned : assigned (past ++ [occurrence]) = assigned past := by
    simp [assigned, hadded]
  have hcount : inserted (past ++ [occurrence]) = inserted past := by
    simp [inserted, hinserted]
  refine ⟨?_, ?_, ?_, ?_⟩
  · rw [hassigned, hcount, h.ids]
  · rw [hnext, hcount, h.next]
  · intro chunk hchunk
    rw [hassigned]
    exact h.present chunk (hchunks chunk hchunk)
  · intro other hmem
    rcases List.mem_append.1 hmem with hold | hlast
    · exact h.accounted other hold
    · rw [List.mem_singleton.1 hlast]
      exact haccounted

end

section Insertions

open ChunkStore.Index.Contents (map_draft_numberedChunks map_toNat_numberedChunks
  mem_numberedChunks toNat_of_mem_numberedChunks)

variable {texts : List String} {maps : List Metadata} {document docId : String}

/-- An insertion that is done goes on counting where the accounts stand. -/
theorem Accounts.append_insertion {past : List Occurrence} {contents after : Contents}
    (h : Accounts past contents) {stopWords : List String} {requested : Option UInt32}
    (hinsert : contents.insert stopWords texts maps document docId requested = .ok after) :
    Accounts (past ++ [⟨.insert texts maps document docId requested, .done,
      contents.newcomers after⟩]) after := by
  obtain ⟨_, hcount, -, hroom, -, -⟩ := Contents.insert_inv hinsert
  obtain ⟨version, -, hmanifest, hchunks⟩ := Contents.chunks_insert hinsert
  have hnew : ∀ chunk ∈ numberedChunks contents.manifest.nextChunkId.toNat document docId version
      texts maps, chunk ∉ contents.chunks := by
    intro chunk hchunk hold
    have habove := (toNat_of_mem_numberedChunks hroom hchunk).1
    have hbelow := h.lt_next hold
    omega
  have hadded := Contents.newcomers_of_append hchunks hnew
  rw [hadded]
  have hassigned : assigned (past ++ [⟨.insert texts maps document docId requested, .done,
      numberedChunks contents.manifest.nextChunkId.toNat document docId version texts maps⟩]) =
        assigned past ++ (numberedChunks contents.manifest.nextChunkId.toNat document docId version
          texts maps).map (·.id) := by
    simp [assigned]
  have hinserted : inserted (past ++ [⟨.insert texts maps document docId requested, .done,
      numberedChunks contents.manifest.nextChunkId.toNat document docId version texts maps⟩]) =
        inserted past + texts.length := by
    simp [inserted, Occurrence.inserted, Occurrence.handedIn]
  refine ⟨?_, ?_, ?_, ?_⟩
  · rw [hassigned, hinserted, List.map_append, h.ids, map_toNat_numberedChunks hcount hroom,
      h.next, List.range_add]
  · rw [hinserted, hmanifest, ← h.next]
    exact UInt64.toNat_ofNat_of_lt' hroom
  · intro chunk hchunk
    rw [hassigned, List.mem_append]
    rw [hchunks] at hchunk
    rcases List.mem_append.1 hchunk with hold | hlast
    · exact .inl (h.present chunk hold)
    · exact .inr (List.mem_map_of_mem hlast)
  · intro occurrence hmem
    rcases List.mem_append.1 hmem with hold | hlast
    · exact h.accounted occurrence hold
    · rw [List.mem_singleton.1 hlast]
      obtain ⟨htexts, hmaps⟩ := map_draft_numberedChunks contents.manifest.nextChunkId.toNat
        document docId version hcount
      refine ⟨htexts, hmaps, ?_⟩
      intro chunk hchunk
      obtain ⟨hdocument, hdocId, -⟩ := mem_numberedChunks hchunk
      exact ⟨hdocument, hdocId⟩

end Insertions

/-! ### Calls that do not run out of ids -/

theorem commit_ne_idsExhausted (engine : Engine) (isComplete : Bool) (manifest : Index.Manifest)
    (disk : Disk) : (engine.commit isComplete manifest disk).1 ≠ .error .idsExhausted := by
  unfold commit
  dsimp only
  split
  · simp
  · split <;> simp

/-- An insertion runs out of ids only if there are too few for its chunks. -/
theorem insert_ne_idsExhausted {engine : Engine} {disk : Disk} {texts : List String}
    {maps : List Metadata} {document docId : String} {requested : Option UInt32}
    (hroom : engine.manifest.nextChunkId.toNat + texts.length < UInt64.size) :
    (engine.insert texts maps document docId requested disk).1 ≠ .error .idsExhausted := by
  rw [insert_eq_carryOut]
  unfold insertion
  split
  · simp [carryOut]
  · cases engine.manifest.resolveVersion docId requested with
    | error fault => simp [carryOut]
    | ok version =>
      dsimp only
      rw [if_neg (Nat.not_le.2 hroom)]
      exact commit_ne_idsExhausted _ _ _ _

theorem delete_ne_idsExhausted (engine : Engine) (docId : String) (keepLatest : Bool)
    (disk : Disk) : (engine.delete docId keepLatest disk).1 ≠ .error .idsExhausted := by
  rw [delete_eq_carryOut]
  unfold deletion
  dsimp only
  split
  · split
    · simp [carryOut]
    · exact commit_ne_idsExhausted _ _ _ _
  · split
    · simp [carryOut]
    · exact commit_ne_idsExhausted _ _ _ _

theorem save_ne_idsExhausted (engine : Engine) (path : String) (disk : Disk) :
    (engine.save path disk).1 ≠ .error .idsExhausted := by
  have hcommit : ∀ source target commit disk,
      (copyCommit engine.path source target commit disk).1 ≠ .error .idsExhausted := by
    intro source target commit disk
    unfold copyCommit
    dsimp only
    split
    · simp
    · split <;> simp
  unfold save
  split
  · simp
  · split
    · simp
    · simp
    · split
      · simp
      · unfold copyIndex
        split
        · exact hcommit _ _ _ _
        · exact hcommit _ _ _ _
        · simp

/-- A call runs out of ids only if it hands in more chunks than there are ids. -/
theorem runEngine_ne_idsExhausted (engine : Engine) (disk : Disk) (occurrence : Occurrence)
    (hroom : engine.manifest.nextChunkId.toNat + occurrence.handedIn < UInt64.size) :
    (Handle.runEngine (engine, disk) occurrence.command).1 ≠ .fault .idsExhausted := by
  obtain ⟨command, answer, added⟩ := occurrence
  have hfallible : ∀ result : Except EngineFault Unit, result ≠ .error .idsExhausted →
      Answer.ofFallible result ≠ .fault .idsExhausted := by
    intro result hresult
    cases result with
    | ok => simp [Answer.ofFallible]
    | error fault => simpa [Answer.ofFallible] using hresult
  cases command with
  | insert texts maps document docId requested =>
    exact hfallible _ (insert_ne_idsExhausted hroom)
  | delete docId keepLatest =>
    exact hfallible _ (delete_ne_idsExhausted engine docId keepLatest disk)
  | save path => exact hfallible _ (save_ne_idsExhausted engine path disk)
  | query text topK constraints =>
    unfold Handle.runEngine
    dsimp only
    split <;> simp
  | sources | versionsOf | path | close => simp [Handle.runEngine]

/-! ### Whole histories -/

theorem Occurrence.of_nothing (occurrence : Occurrence) (hadded : occurrence.added = [])
    (hother : occurrence.answer = .done → ∀ texts maps document docId requested,
      occurrence.command ≠ .insert texts maps document docId requested) :
    occurrence.inserted = 0 ∧ occurrence.IsAccounted := by
  constructor
  · unfold inserted
    split
    · next hdone =>
      unfold handedIn
      split
      · next hinsert => exact absurd hinsert (hother hdone _ _ _ _ _)
      · rfl
    · rfl
  · unfold IsAccounted
    split
    · next hinsert hdone => exact absurd hinsert (hother hdone _ _ _ _ _)
    · exact hadded

theorem Occurrence.inserted_le_handedIn (occurrence : Occurrence) :
    occurrence.inserted ≤ occurrence.handedIn := by
  unfold inserted
  split
  · exact le_rfl
  · exact Nat.zero_le _

theorem inserted_le_handedIn (past : List Occurrence) : inserted past ≤ handedIn past := by
  apply List.sum_le_sum
  intro occurrence _
  exact occurrence.inserted_le_handedIn

/-- A call keeps the accounts if its chunks still get ids. -/
theorem Accounts.append_call {past : List Occurrence} {engine engine' : Engine}
    {disk disk' : Disk} {command : HandleCommand} {answer : Answer}
    (h : Accounts past engine.contents) (hstored : engine.IsStored disk)
    (hidle : engine.staged = []) (hcommand : command ≠ .close)
    (hcall : Handle.runEngine (engine, disk) command = (answer, engine', disk'))
    (hids : answer ≠ .fault .idsExhausted) :
    Accounts (past ++ [⟨command, answer, engine.contents.newcomers engine'.contents⟩])
      engine'.contents := by
  obtain ⟨-, -, -, -, hbecomes⟩ := runEngine_inv hstored hidle hcall hcommand hids
  -- A call that leaves fewer chunks or the same, unless it is an insertion that is done.
  have hkeeps : (∀ chunk ∈ engine'.contents.chunks, chunk ∈ engine.contents.chunks) →
      engine'.contents.manifest.nextChunkId = engine.contents.manifest.nextChunkId →
      (answer = .done → ∀ texts maps document docId requested,
        command ≠ .insert texts maps document docId requested) →
      Accounts (past ++ [⟨command, answer, engine.contents.newcomers engine'.contents⟩])
        engine'.contents := by
    intro hsubset hnext hother
    have hadded := Contents.newcomers_of_subset hsubset
    obtain ⟨hinserted, haccounted⟩ := Occurrence.of_nothing
      ⟨command, answer, engine.contents.newcomers engine'.contents⟩ hadded hother
    exact h.append_nothing hadded hinserted haccounted hnext hsubset
  cases command with
  | insert texts maps document docId requested =>
    cases hinsert : engine.insert texts maps document docId requested disk with
    | mk result state =>
      obtain ⟨engine'', disk''⟩ := state
      simp only [Handle.runEngine, hinsert, Prod.mk.injEq] at hcall
      obtain ⟨rfl, rfl, rfl⟩ := hcall
      have hreturns : result ≠ .error .idsExhausted := by
        rintro rfl
        exact hids rfl
      rcases insert_inv hidle hinsert hreturns with
        ⟨⟨fault, rfl⟩, rfl, -⟩ | ⟨rfl, after, hafter, rfl, -⟩
      · apply hkeeps
        · exact fun _ hchunk => hchunk
        · rfl
        · intro hdone
          exact absurd hdone (by simp [Answer.ofFallible])
      · exact h.append_insertion hafter
  | delete docId keepLatest =>
    have hother : answer = .done → ∀ texts maps document docId' requested,
        HandleCommand.delete docId keepLatest ≠ .insert texts maps document docId' requested := by
      simp
    generalize hcontents : engine'.contents = after at hbecomes hkeeps
    cases hbecomes with
    | same => exact hkeeps (fun _ hchunk => hchunk) rfl hother
    | deleted hdelete =>
      refine hkeeps (Contents.chunks_subset_of_delete hdelete) ?_ hother
      rw [(Contents.delete_inv hdelete).1]
      rfl
  | query | sources | versionsOf | save | path | close =>
    generalize hcontents : engine'.contents = after at hbecomes hkeeps
    cases hbecomes
    refine hkeeps (fun _ hchunk => hchunk) rfl ?_
    simp

theorem History.reachable_and_accounts {past : List Occurrence} {engine : Engine} {disk : Disk}
    (h : History past engine disk) (hroom : handedIn past < UInt64.size) :
    Reachable (fun _ _ => True) engine disk ∧ Accounts past engine.contents := by
  induction h with
  | opened hopen hfresh =>
    refine ⟨.opened hopen hfresh, ?_⟩
    rw [(isStored_of_open_fresh hopen hfresh).2]
    exact accounts_nil
  | @called past engine engine' disk disk' command answer _ hcommand hcall ih =>
    have hsum : handedIn (past ++ [⟨command, answer, engine.contents.newcomers engine'.contents⟩]) =
        handedIn past +
          Occurrence.handedIn ⟨command, answer, engine.contents.newcomers engine'.contents⟩ := by
      simp [handedIn]
    obtain ⟨hreachable, haccounts⟩ := ih (by omega)
    obtain ⟨hstored, hidle⟩ := hreachable.isStored
    have hnext : engine.manifest.nextChunkId.toNat = inserted past := haccounts.next
    have hle := inserted_le_handedIn past
    have hids : answer ≠ .fault .idsExhausted := by
      have hreturns := runEngine_ne_idsExhausted engine disk
        ⟨command, answer, engine.contents.newcomers engine'.contents⟩ (by omega)
      rw [hcall] at hreturns
      exact hreturns
    exact ⟨hreachable.called trivial hcommand hcall hids,
      haccounts.append_call hstored hidle hcommand hcall hids⟩
  | reopened _ huntouched hopen hhome ih =>
    obtain ⟨hreachable, haccounts⟩ := ih hroom
    refine ⟨hreachable.reopened huntouched hopen hhome, ?_⟩
    rw [(isStored_of_reopen hreachable.isStored.1 huntouched hopen hhome).2]
    exact haccounts
  | meanwhile _ huntouched ih =>
    obtain ⟨hreachable, haccounts⟩ := ih hroom
    exact ⟨hreachable.meanwhile huntouched, haccounts⟩

/-- As long as fewer chunks are handed in than there are ids, the ids given over a whole history
grow; they are the numbers from zero on, so those of one insertion are consecutive in the order of
its chunks; the next id is the number of chunks that were inserted; and nothing but an insertion
that is done gives any. -/
theorem chunk_ids_are_never_given_again {past : List Occurrence} {engine : Engine} {disk : Disk}
    (h : History past engine disk) (hroom : handedIn past < UInt64.size) :
    (assigned past).Pairwise (· < ·) ∧
      (assigned past).map UInt64.toNat = List.range (inserted past) ∧
      engine.manifest.nextChunkId.toNat = inserted past ∧
      ∀ occurrence ∈ past, occurrence.IsAccounted := by
  obtain ⟨-, haccounts⟩ := h.reachable_and_accounts hroom
  have hascending : ((assigned past).map UInt64.toNat).Pairwise (· < ·) := by
    rw [haccounts.ids]
    exact List.pairwise_lt_range
  refine ⟨?_, haccounts.ids, haccounts.next, haccounts.accounted⟩
  rw [List.pairwise_map] at hascending
  exact hascending.imp UInt64.lt_iff_toNat_lt.2

/-- An engine and its disk after the document of a first insertion was deleted. -/
def firstDeletion : Engine × Disk :=
  (Handle.runEngine firstInsertion (.delete "a" false)).2

/-- The same, closed and opened again, after the document came back with one chunk. -/
def secondInsertion : Engine × Disk :=
  (Handle.runEngine ({ firstDeletion.1 with stopWords := Settings.default.stopWords, staged := [] },
    firstDeletion.1.reheld firstDeletion.2) (.insert ["three"] [.empty] "a.txt" "a" none)).2

theorem restarted_document_gets_new_ids :
    ∃ past, History past secondInsertion.1 secondInsertion.2 ∧
      past.map Occurrence.command = [.insert ["one", "two"] [.empty, .empty] "a.txt" "a" none,
        .delete "a" false, .insert ["three"] [.empty] "a.txt" "a" none] ∧
      secondInsertion.1.versionsOf "a" = [1] ∧
      (assigned past).map UInt64.toNat = [0, 1, 2] ∧
      secondInsertion.1.manifest.nextChunkId.toNat = 3 := by
  have hopened : History [] (newEngine .default) newDisk :=
    .opened (open_empty Settings.opens_default) rfl
  have hinserted : Handle.runEngine (newEngine .default, newDisk)
      (.insert ["one", "two"] [.empty, .empty] "a.txt" "a" none) = (.done, firstInsertion) := rfl
  have hdelete : (firstInsertion.1.delete "a" false firstInsertion.2).1 = .ok () := by
    decide +kernel
  have hdeleted : Handle.runEngine firstInsertion (.delete "a" false) = (.done, firstDeletion) :=
    Prod.ext (congrArg Answer.ofFallible hdelete) rfl
  have hbefore : History _ firstDeletion.1 firstDeletion.2 :=
    (hopened.called (by simp) hinserted).called (by simp) hdeleted
  have hstored := (hbefore.reachable_and_accounts (by decide)).1.isStored.1
  have hreopened : History _ { firstDeletion.1 with
      stopWords := Settings.default.stopWords, staged := [] }
        (firstDeletion.1.reheld firstDeletion.2) :=
    hbefore.reopened (Untouched.refl _ _) (open_close hstored Settings.opens_default) rfl
  have hinsert : (Engine.insert { firstDeletion.1 with
      stopWords := Settings.default.stopWords, staged := [] } ["three"] [.empty] "a.txt" "a" none
        (firstDeletion.1.reheld firstDeletion.2)).1 = .ok () := by
    decide +kernel
  have hopen : HandleCommand.insert ["three"] [.empty] "a.txt" "a" none ≠ .close := by simp
  have hlast : History _ secondInsertion.1 secondInsertion.2 :=
    hreopened.called hopen (Prod.ext (congrArg Answer.ofFallible hinsert) rfl)
  obtain ⟨-, hids, hnext, -⟩ := chunk_ids_are_never_given_again hlast (by decide)
  exact ⟨_, hlast, rfl, by decide +kernel, hids, hnext⟩

end Engine

end ChunkStore
