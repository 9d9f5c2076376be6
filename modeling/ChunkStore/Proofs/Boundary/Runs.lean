import ChunkStore.Proofs.Boundary.HandingOut
import ChunkStore.Proofs.Engine.Descriptions
import ChunkStore.Proofs.Engine.Searching

/-!
# Runs of a caller

A run is a list of calls at the boundary, each made in the state that the one before left, whatever
came of it.  Between the calls files may be written, moved, copied or lost and the disk may fail, as
long as no index gets there in another way.  Throughout a run everything that databases hold and
that descriptions on the disk say has a lineage among the calls of the run, and results refer to
chunks that were staged.
-/

set_option autoImplicit false

namespace ChunkStore.Boundary

open CString

/-- Calls one after another, with what the caller has staged and the state after them. -/
inductive Run (start : State) : List Step → Ledger → State → Prop where
  | start : Run start [] .empty start
  | call {trace : List Step} {ledger : Ledger} {state : State}
      (before : Run start trace ledger state) (call : Call) :
      Run start (trace ++ [⟨ledger, state, call⟩]) (ledger.after call (perform state call).1)
        (perform state call).2
  -- Whatever became of the disk, a description that is on it now was on it before.
  | meanwhile {trace : List Step} {ledger : Ledger} {state : State}
      (before : Run start trace ledger state) (disk : Disk)
      (hdisk : ∀ location commit, disk.nodes location = some (.description commit) →
        ∃ other, state.disk.nodes other = some (.description commit)) :
      Run start trace ledger { state with disk }

/-- Makes calls one after another, from a state on. -/
def replay (start : State) (calls : List Call) : List Step × Ledger × State :=
  calls.foldl (fun (trace, ledger, state) call =>
    (trace ++ [⟨ledger, state, call⟩], ledger.after call (perform state call).1,
      (perform state call).2)) ([], .empty, start)

/-- A caller without objects, on a disk without an index. -/
structure State.IsFresh (state : State) : Prop where
  databases : state.databases = .empty
  documents : state.documents = .empty
  results : state.results = .empty
  disk : ∀ location commit, state.disk.nodes location ≠ some (.description commit)

theorem isFresh_empty : State.empty.IsFresh where
  databases := rfl
  documents := rfl
  results := rfl
  disk := by
    intro location commit
    unfold State.empty Disk.empty
    dsimp only
    split <;> simp

/-- An engine that finds what a description says has a lineage. -/
def Explained (trace : List Step) (commit : Commit) : Prop :=
  ∃ lineage, ∀ engine : Engine, commit.segments = engine.segments →
    Index.Manifest.ofCommit? commit = some engine.manifest → engine.staged = [] →
      Descends trace lineage engine

/-- What databases hold and what descriptions on the disk say has a lineage. -/
structure Rooted (trace : List Step) (state : State) : Prop where
  disk : state.disk.Describes (Explained trace)
  engines : ∀ name engine, state.databases.find? name = some engine →
    ∃ lineage, Descends trace lineage engine

/-- Results refer to chunks that were staged. -/
def Backed (state : State) : Prop :=
  ∀ name found, state.results.find? name = some found → ∀ hit ∈ found.hits,
    ∃ item, IsItem hit.chunk item

variable {trace trace' : List Step} {ledger : Ledger} {state : State}

theorem explained_empty (trace : List Step) : Explained trace ⟨[], none⟩ := by
  refine ⟨[], ?_⟩
  intro engine hsegments hmanifest hidle
  have hcontents : engine.contents = .empty := by
    unfold Engine.contents Index.Contents.empty
    rw [← Option.some.inj hmanifest, ← hsegments]
  exact .fresh hcontents hidle

theorem Explained.mono {commit : Commit} (h : Explained trace commit) (hsubset : trace ⊆ trace') :
    Explained trace' commit := by
  obtain ⟨lineage, hlineage⟩ := h
  refine ⟨lineage, ?_⟩
  intro engine hsegments hmanifest hidle
  exact (hlineage engine hsegments hmanifest hidle).mono hsubset

/-- What an engine commits has the lineage of what it holds. -/
theorem Descends.explained {lineage : Lineage} {engine : Engine}
    (h : Descends trace lineage engine) : Explained trace engine.contents.toCommit := by
  refine ⟨lineage, ?_⟩
  intro other hsegments hmanifest hidle
  have hread : Index.Manifest.ofCommit? engine.contents.toCommit = some engine.manifest :=
    Index.Manifest.ofText?_render engine.manifest
  have hcontents : other.contents = engine.contents := by
    unfold Engine.contents
    rw [Option.some.inj (hmanifest.symm.trans hread), ← hsegments]
    rfl
  exact h.found hcontents hidle

theorem Rooted.mono (h : Rooted trace state) (hsubset : trace ⊆ trace') : Rooted trace' state where
  disk := h.disk.mono fun _ hcommit => hcommit.mono hsubset
  engines := by
    intro name engine hfind
    obtain ⟨lineage, hdescends⟩ := h.engines name engine hfind
    exact ⟨lineage, hdescends.mono hsubset⟩

/-- An engine with a lineage is put in place of another one, or beside the others. -/
theorem Rooted.put (h : Rooted trace state) {after : State} {name : String} {engine : Engine}
    (hdatabases : after.databases = state.databases.insert name engine)
    (hdisk : after.disk.Describes (Explained trace))
    (hlineage : ∃ lineage, Descends trace lineage engine) : Rooted trace after where
  disk := hdisk
  engines := by
    intro other held hfind
    rw [hdatabases, Dict.find?_insert] at hfind
    split at hfind
    · obtain rfl := Option.some.inj hfind
      exact hlineage
    · exact h.engines other held hfind

/-! ### The calls to a database -/

theorem Rooted.openDatabase (h : Rooted trace state) (target : String) (path : RawText) :
    Rooted trace (perform state (.openDatabase target path)).2 := by
  unfold perform
  dsimp only
  split
  · exact h
  · next text _ =>
    have hdisk := Database.describes_open h.disk (explained_empty trace) text state.environment
    split
    · next hopen =>
      rw [hopen] at hdisk
      exact ⟨hdisk, h.engines⟩
    · next engine after hopen =>
      rw [hopen] at hdisk
      obtain ⟨settings, hopened⟩ := Database.open_of_open hopen
      obtain ⟨commit, ⟨lineage, hlineage⟩, hsegments, hmanifest⟩ :=
        Engine.known_of_open h.disk (explained_empty trace) hopened
      refine h.put rfl ?_
        ⟨lineage, hlineage engine hsegments hmanifest (Engine.staged_of_open hopened)⟩
      unfold State.installDatabase
      dsimp only
      split
      · exact hdisk
      · exact hdisk

theorem Rooted.closeDatabase (h : Rooted trace state) (database : Pointer) :
    Rooted trace (perform state (.closeDatabase database)).2 := by
  unfold perform
  dsimp only
  split
  · exact h
  · next name engine _ =>
    refine ⟨h.disk, ?_⟩
    intro other held hfind
    rw [Dict.find?_erase] at hfind
    split at hfind
    · exact absurd hfind (by simp)
    · exact h.engines other held hfind

theorem Rooted.save (h : Rooted trace state) (database : Pointer) (path : RawText) :
    Rooted trace (perform state (.save database path)).2 := by
  unfold perform
  dsimp only
  split
  · exact h
  · exact h
  · next name engine text hengine _ =>
    obtain ⟨-, hfind⟩ := object_eq_ok_iff.1 hengine
    exact h.put rfl (Engine.describes_save h.disk engine text) (h.engines name engine hfind)

section

variable {engine engine' : Engine}

/-- An engine at which nothing happened, or which dropped what waited. -/
theorem Descends.kept {lineage : Lineage} (h : Descends trace lineage engine)
    (hkept : engine' = engine ∨ engine' = engine.rollback) : Descends trace lineage engine' := by
  rcases hkept with rfl | rfl
  · exact h
  · exact h.found rfl rfl

theorem Rooted.insert (h : Rooted trace state) (hdocumented : Documented ledger state)
    (database document : Pointer) :
    Rooted (trace ++ [⟨ledger, state, .insert database document⟩])
      (perform state (.insert database document)).2 := by
  have hlater := h.mono
    (List.subset_append_left trace [⟨ledger, state, .insert database document⟩])
  cases hengine : state.database database with
  | error failure =>
    simp only [perform, insertDocument, hengine]
    exact hlater
  | ok found =>
    obtain ⟨name, engine⟩ := found
    cases hdocument : state.document document with
    | error failure =>
      simp only [perform, insertDocument, hengine, hdocument]
      exact hlater
    | ok found =>
      obtain ⟨draftName, draft⟩ := found
      obtain ⟨-, hfind⟩ := object_eq_ok_iff.1 hengine
      obtain ⟨-, hstaged⟩ := document_eq_ok_iff.1 hdocument
      obtain ⟨lineage, hdescends⟩ := hlater.engines name engine hfind
      cases hinsert : engine.insert draft.texts draft.metadata draft.name draft.docId draft.version
          state.disk with
      | mk result after =>
        obtain ⟨engine', disk'⟩ := after
        have hperform := perform_insert hengine hdocument hinsert
        have hafter : (perform state (.insert database document)).2.databases.find? name =
            some engine' := by
          rw [hperform]
          exact find?_putEngine ..
        rw [hperform]
        rcases Engine.insert_cases hinsert with
          ⟨-, hkept, rfl⟩ | ⟨version, hversion, hnumbers⟩
        · exact hlater.put rfl hlater.disk ⟨lineage, hdescends.kept hkept⟩
        · let step : Step := ⟨ledger, state, .insert database document⟩
          have houtcome : step.outcome = .ok (.bool true) ∨ step.RanOut := by
            rcases hnumbers.outcome with ⟨rfl, -⟩ | ⟨rfl, -⟩
            · exact .inl (congrArg Prod.fst hperform)
            · exact .inr (congrArg Prod.fst hperform)
          have hinserts : step.Inserts engine _ engine' :=
            .done rfl hengine hdocument (hdocumented draftName draft hstaged) hversion houtcome
              hafter
          have hdescends' := hdescends.inserted
            (List.mem_append_right trace (List.mem_singleton_self step)) hinserts
          -- If the ids ran out, the disk is as before and the chunks wait in the engine.
          rcases hnumbers.outcome with ⟨-, -, -, -, hpublish⟩ | ⟨-, -, rfl⟩
          · exact hlater.put rfl (hlater.disk.of_publish hdescends'.explained hpublish)
              ⟨_, hdescends'⟩
          · exact hlater.put rfl hlater.disk ⟨_, hdescends'⟩

theorem Rooted.delete (h : Rooted trace state) (ledger : Ledger) (database : Pointer)
    (docId : RawText) (keepLatest : Bool) :
    Rooted (trace ++ [⟨ledger, state, .delete database docId keepLatest⟩])
      (perform state (.delete database docId keepLatest)).2 := by
  have hlater := h.mono
    (List.subset_append_left trace [⟨ledger, state, .delete database docId keepLatest⟩])
  cases hengine : state.database database with
  | error failure =>
    simp only [perform, hengine]
    exact hlater
  | ok found =>
    obtain ⟨name, engine⟩ := found
    cases hread : readText "doc_id" docId with
    | error failure =>
      simp only [perform, hengine, hread]
      exact hlater
    | ok text =>
      obtain ⟨-, hfind⟩ := object_eq_ok_iff.1 hengine
      obtain ⟨lineage, hdescends⟩ := hlater.engines name engine hfind
      cases hdelete : engine.delete text keepLatest state.disk with
      | mk result after =>
        obtain ⟨engine', disk'⟩ := after
        have hperform := perform_delete hengine hread hdelete
        have hafter : (perform state (.delete database docId keepLatest)).2.databases.find? name =
            some engine' := by
          rw [hperform]
          exact find?_putEngine ..
        rw [hperform]
        rcases Engine.delete_cases hdelete with ⟨hkept, rfl⟩ | ⟨rfl, -, -, hpublish, -⟩
        · exact hlater.put rfl hlater.disk ⟨lineage, hdescends.kept hkept⟩
        · let step : Step := ⟨ledger, state, .delete database docId keepLatest⟩
          have houtcome : step.outcome = .ok (.bool true) := congrArg Prod.fst hperform
          have hdescends' := hdescends.deleted
            (List.mem_append_right trace (List.mem_singleton_self step))
            (.done rfl hengine houtcome hafter)
          exact hlater.put rfl (hlater.disk.of_publish hdescends'.explained hpublish)
            ⟨_, hdescends'⟩

end

/-- Whatever is called, what databases hold and descriptions say keeps having a lineage. -/
theorem Rooted.perform (h : Rooted trace state) (hdocumented : Documented ledger state)
    (call : Call) : Rooted (trace ++ [⟨ledger, state, call⟩]) (perform state call).2 := by
  have hlater := h.mono (List.subset_append_left trace [⟨ledger, state, call⟩])
  cases hworks : call.works with
  | false =>
    have hkeeps := keeps_perform state call
    refine ⟨?_, ?_⟩
    · rw [hkeeps.disk hworks]
      exact hlater.disk
    · rw [hkeeps.databases hworks]
      exact hlater.engines
  | true =>
    cases call with
    | openDatabase target path => exact hlater.openDatabase target path
    | closeDatabase database => exact hlater.closeDatabase database
    | insert database document => exact h.insert hdocumented database document
    | save database path => exact hlater.save database path
    | delete database docId keepLatest => exact h.delete ledger database docId keepLatest
    | _ => exact absurd hworks (by simp [Call.works])

/-! ### Queries -/

/-- A query fails at its arguments or at a score; else it finds chunks of the database that its
caller asked, each of them as it was staged for its id. -/
theorem Rooted.query_outcome (h : Rooted trace state) (database : Pointer) (text : RawText)
    (topK : Nat) (constraints : Pointer) :
    (∃ name engine lineage results, state.database database = .ok (name, engine) ∧
        Descends trace lineage engine ∧
        queryDatabase state database text topK constraints = .ok results ∧
        ∀ hit ∈ results.hits, ∃ item,
          (hit.chunk.id.toNat, item) ∈ lineage ∧ IsItem hit.chunk item) ∨
      (∃ description, queryDatabase state database text topK constraints =
        .error (.invalidArgument description)) ∨
      ∃ hit, queryDatabase state database text topK constraints =
        .error (Results.scoreFailure hit) := by
  unfold queryDatabase
  cases hdatabase : state.database database with
  | error failure =>
    obtain ⟨description, rfl⟩ := invalidArgument_of_object hdatabase
    exact .inr (.inl ⟨description, rfl⟩)
  | ok found =>
    obtain ⟨name, engine⟩ := found
    cases hread : readText "query" text with
    | error failure =>
      obtain ⟨description, rfl⟩ := invalidArgument_of_readText hread
      exact .inr (.inl ⟨description, rfl⟩)
    | ok query =>
      obtain ⟨-, hfind⟩ := object_eq_ok_iff.1 hdatabase
      obtain ⟨lineage, hdescends⟩ := h.engines name engine hfind
      have hfaithful := hdescends.faithful
      have hdecodes : ∀ entry ∈ engine.entries, ∃ chunk, entry.toChunk = .ok chunk := by
        intro entry hentry
        obtain ⟨chunk, item, hchunk, -⟩ := hfaithful.entries entry (.inl hentry)
        exact ⟨chunk, hchunk⟩
      rcases Database.query_outcome hdecodes query topK
          ((lookUp constraints state.constraintSets).getD .empty) state.disk with
        ⟨results, hquery, hhits⟩ | ⟨hit, hquery⟩
      · have hitems : ∀ hit ∈ results.hits, ∃ item,
            (hit.chunk.id.toNat, item) ∈ lineage ∧ IsItem hit.chunk item := by
          intro hit hhit
          obtain ⟨entry, hentry, hchunk⟩ := hhits hit hhit
          obtain ⟨chunk, item, hchunk', hmem, hitem⟩ := hfaithful.entries entry (.inl hentry)
          obtain rfl := Except.ok.inj (hchunk.symm.trans hchunk')
          exact ⟨item, hmem, hitem⟩
        refine .inl ⟨name, engine, lineage, results, rfl, hdescends, ?_, hitems⟩
        have hcheck : checkResults results = .ok results := by
          apply checkResults_eq_ok
          intro hit hhit
          obtain ⟨item, -, hitem⟩ := hitems hit hhit
          exact ⟨item, hitem⟩
        simp only [bind, Except.bind, hquery]
        exact hcheck
      · refine .inr (.inr ⟨hit, ?_⟩)
        simp only [bind, Except.bind, hquery]

theorem perform_query {results : Results} {target : String} {database : Pointer} {text : RawText}
    {topK : Nat} {constraints : Pointer}
    (h : queryDatabase state database text topK constraints = .ok results) :
    perform state (.query target database text topK constraints) =
      (.ok .handle, { state with results := state.results.insert target results }) := by
  simp only [perform, bind, Except.bind, h]
  rfl

theorem perform_query_of_error {failure : Failure} {target : String} {database : Pointer}
    {text : RawText} {topK : Nat} {constraints : Pointer}
    (h : queryDatabase state database text topK constraints = .error failure) :
    perform state (.query target database text topK constraints) = (.error failure, state) := by
  simp only [perform, bind, Except.bind, h]
  rfl

theorem Backed.insert (h : Backed state) {results : Results}
    (hresults : ∀ hit ∈ results.hits, ∃ item, IsItem hit.chunk item) (target : String) :
    Backed { state with results := state.results.insert target results } := by
  intro name found hfind
  rw [Dict.find?_insert] at hfind
  split at hfind
  · obtain rfl := Option.some.inj hfind
    exact hresults
  · exact h name found hfind

/-- Whatever is called, results refer to chunks that were staged. -/
theorem Backed.perform (h : Backed state) (hrooted : Rooted trace state) (call : Call) :
    Backed (perform state call).2 := by
  cases hranks : call.ranks with
  | false =>
    have hresults := (keeps_perform state call).results hranks
    intro name found hfind
    rw [hresults] at hfind
    exact h name found hfind
  | true =>
    cases call with
    | query target database text topK constraints =>
      rcases hrooted.query_outcome database text topK constraints with
        ⟨name, engine, lineage, results, -, -, hquery, hitems⟩ | ⟨description, hquery⟩ |
          ⟨hit, hquery⟩
      · rw [perform_query hquery]
        apply h.insert
        intro hit hhit
        obtain ⟨item, -, hitem⟩ := hitems hit hhit
        exact ⟨item, hitem⟩
      · rw [perform_query_of_error hquery]
        exact h
      · rw [perform_query_of_error hquery]
        exact h
    | freeResults results =>
      cases results with
      | none => exact h
      | some released =>
        intro name found hfind
        simp only [Boundary.perform, releaseFrom, Dict.find?_erase] at hfind
        split at hfind
        · exact absurd hfind (by simp)
        · exact h name found hfind
    | _ => exact absurd hranks (by simp [Call.ranks])

/-! ### Whole runs -/

theorem Rooted.meanwhile (h : Rooted trace state) {disk : Disk}
    (hdisk : ∀ location commit, disk.nodes location = some (.description commit) →
      ∃ other, state.disk.nodes other = some (.description commit)) :
    Rooted trace { state with disk } where
  disk := by
    intro location commit hnode
    obtain ⟨other, hother⟩ := hdisk location commit hnode
    exact h.disk other commit hother
  engines := h.engines

/-- What holds throughout a run that starts fresh. -/
structure Upheld (trace : List Step) (ledger : Ledger) (state : State) : Prop where
  documented : Documented ledger state
  rooted : Rooted trace state
  backed : Backed state

/-- Any calls make a run. -/
theorem run_replay (start : State) (calls : List Call) :
    Run start (replay start calls).1 (replay start calls).2.1 (replay start calls).2.2 := by
  unfold replay
  induction calls using List.reverseRecOn with
  | nil => exact .start
  | append_singleton calls call ih =>
    rw [List.foldl_append]
    exact ih.call call

theorem State.IsFresh.upheld (h : state.IsFresh) : Upheld [] .empty state where
  documented := by
    intro name document hfind
    rw [h.documents] at hfind
    exact absurd hfind (by simp)
  rooted := by
    refine ⟨fun location commit hnode => absurd hnode (h.disk location commit), ?_⟩
    intro name engine hfind
    rw [h.databases] at hfind
    exact absurd hfind (by simp)
  backed := by
    intro name found hfind
    rw [h.results] at hfind
    exact absurd hfind (by simp)

theorem Run.upheld {start : State} (hrun : Run start trace ledger state) (hstart : start.IsFresh) :
    Upheld trace ledger state := by
  induction hrun with
  | start => exact hstart.upheld
  | call _ call ih =>
    exact ⟨ih.documented.perform call, ih.rooted.perform ih.documented call,
      ih.backed.perform ih.rooted call⟩
  | meanwhile _ disk hdisk ih => exact ⟨ih.documented, ih.rooted.meanwhile hdisk, ih.backed⟩

end ChunkStore.Boundary
