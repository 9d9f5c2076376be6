import ChunkStore.Proofs.Engine.Waiting
import ChunkStore.Proofs.Index.Deletions
import ChunkStore.Proofs.Index.Listing
import ChunkStore.Proofs.Workspace.Surfaces

/-!
# Listings follow the journal of calls

A journal has the calls to an index since it was made, with their answers.  What is stored can be
read off it alone: each insertion that was done stored a source, and the source stands until a
deletion that was done takes it out.  A listing gives the sources that stand, each once, in the
order of their names, whatever else was called in between and however often the index was closed and
opened again.
-/

set_option autoImplicit false

namespace ChunkStore

open ChunkStore.Index (Manifest)

/-! ### Journals -/

/-- A call with the answer that was given. -/
structure Call where
  command : HandleCommand
  answer : Answer

/-- The highest version of a document. -/
def Source.highest? (standing : List Source) (docId : String) : Option Nat :=
  ((standing.filter fun source => source.docId = docId).map (·.version.toNat)).max?

/-- The version that a document gets when none is asked for: the one after its highest, or 1. -/
def Source.nextVersion (standing : List Source) (docId : String) : UInt32 :=
  match highest? standing docId with
  | none => 1
  | some highest => UInt32.ofNat (highest + 1)

namespace Call

/-- The source that a call stores, if it is an insertion that was done. -/
def stored? (standing : List Source) : Call → Option Source
  | ⟨.insert _ _ document docId requested, .done⟩ =>
    some ⟨document, docId, requested.getD (Source.nextVersion standing docId)⟩
  | _ => none

/-- Whether a call takes a source out: it is a deletion of the document that was done and, if the
latest version was to be kept, another one stands that is later. -/
def removes (standing : List Source) (source : Source) : Call → Bool
  | ⟨.delete docId keepLatest, .done⟩ =>
    source.docId = docId && (!keepLatest ||
      standing.any fun later => later.docId = docId && source.version < later.version)
  | _ => false

/-- The sources that stand after a call. -/
def standingAfter (standing : List Source) (call : Call) : List Source :=
  (standing.filter fun source => !call.removes standing source) ++ (call.stored? standing).toList

/-- The sources that stand after calls that began with an empty index. -/
def standing (past : List Call) : List Source :=
  past.foldl standingAfter []

theorem standing_concat (past : List Call) (call : Call) :
    standing (past ++ [call]) = standingAfter (standing past) call := by
  unfold standing
  rw [List.foldl_append, List.foldl_cons, List.foldl_nil]

theorem mem_standingAfter {standing : List Source} {call : Call} {source : Source} :
    source ∈ call.standingAfter standing ↔
      source ∈ standing ∧ call.removes standing source = false ∨
        call.stored? standing = some source := by
  unfold standingAfter
  simp [List.mem_append, List.mem_filter]

/-- A call that is not done leaves what stands. -/
theorem standingAfter_of_ne_done (standing : List Source) (command : HandleCommand)
    {answer : Answer} (h : answer ≠ .done) :
    standingAfter standing ⟨command, answer⟩ = standing := by
  have hnothing : stored? standing ⟨command, answer⟩ = none := by
    unfold stored?
    split
    · next heq => exact absurd (Call.mk.inj heq).2 h
    · rfl
  have hnone : ∀ source, removes standing source ⟨command, answer⟩ = false := by
    intro source
    unfold removes
    split
    · next heq => exact absurd (Call.mk.inj heq).2 h
    · rfl
  simp [standingAfter, hnothing, hnone]

theorem standingAfter_insert (standing : List Source) (texts : List String) (maps : List Metadata)
    (document docId : String) (requested : Option UInt32) :
    standingAfter standing ⟨.insert texts maps document docId requested, .done⟩ =
      standing ++ [⟨document, docId, requested.getD (Source.nextVersion standing docId)⟩] := by
  simp [standingAfter, stored?, removes]

theorem standingAfter_delete (standing : List Source) (docId : String) (keepLatest : Bool) :
    standingAfter standing ⟨.delete docId keepLatest, .done⟩ =
      standing.filter fun source =>
        !removes standing source ⟨.delete docId keepLatest, .done⟩ := by
  simp [standingAfter, stored?]

/-- A source stands if a call stored it and no later one took it out. -/
theorem mem_standing_iff {past : List Call} {source : Source} :
    source ∈ standing past ↔ ∃ before call later, past = before ++ call :: later ∧
      call.stored? (standing before) = some source ∧
        ∀ between next rest, later = between ++ next :: rest →
          next.removes (standing (before ++ call :: between)) source = false := by
  induction past using List.reverseRecOn with
  | nil => simp [standing]
  | append_singleton past last ih =>
    rw [standing_concat, mem_standingAfter, ih]
    constructor
    · rintro (⟨⟨before, call, later, rfl, hstored, hlater⟩, hstays⟩ | hstored)
      · refine ⟨before, call, later ++ [last], by simp, hstored, ?_⟩
        intro between next rest hsplit
        -- The next call is the last one, or one of those that were there before.
        rcases List.eq_nil_or_concat rest with rfl | ⟨front, final, rfl⟩
        · obtain ⟨rfl, hlast⟩ := List.append_inj' hsplit rfl
          rw [← (List.cons.inj hlast).1]
          exact hstays
        · rw [List.concat_eq_append, ← List.cons_append, ← List.append_assoc] at hsplit
          exact hlater between next front (List.append_inj' hsplit rfl).1
      · refine ⟨past, last, [], rfl, hstored, ?_⟩
        intro between next rest hsplit
        exact absurd hsplit (by simp)
    · rintro ⟨before, call, later, hsplit, hstored, hlater⟩
      rcases List.eq_nil_or_concat later with rfl | ⟨front, final, rfl⟩
      · obtain ⟨rfl, hlast⟩ := List.append_inj' hsplit rfl
        rw [(List.cons.inj hlast).1]
        exact .inr hstored
      · rw [List.concat_eq_append] at hsplit hlater
        rw [← List.cons_append, ← List.append_assoc] at hsplit
        obtain ⟨rfl, hlast⟩ := List.append_inj' hsplit rfl
        obtain rfl := (List.cons.inj hlast).1
        refine .inl ⟨⟨before, call, front, rfl, hstored, ?_⟩, hlater front last [] rfl⟩
        rintro between next rest rfl
        exact hlater between next (rest ++ [last]) (by simp)

end Call

/-! ### What a call makes of the manifest -/

namespace Index.Manifest

/-- The versions that a manifest records are the sources that stand. -/
def Records (manifest : Manifest) (standing : List Source) : Prop :=
  ∀ source : Source, source ∈ standing ↔
    manifest.nameOf? source.docId source.version = some source.document

variable {manifest manifest' : Manifest} {standing : List Source} {docId : String}

theorem Records.mem_keys_iff (h : manifest.Records standing) {version : UInt32} :
    version ∈ (manifest.versionsOf docId).keys ↔
      ∃ source ∈ standing, source.docId = docId ∧ source.version = version := by
  rw [Dict.mem_keys]
  constructor
  · rintro ⟨document, hname⟩
    exact ⟨⟨document, docId, version⟩, (h _).2 hname, rfl, rfl⟩
  · rintro ⟨source, hsource, rfl, rfl⟩
    exact ⟨source.document, (h source).1 hsource⟩

theorem Records.highest?_eq (h : manifest.Records standing) (docId : String) :
    Source.highest? standing docId = (manifest.latest? docId).map UInt32.toNat := by
  have hmem : ∀ n, n ∈ (standing.filter fun source => source.docId = docId).map
      (·.version.toNat) ↔ ∃ known ∈ (manifest.versionsOf docId).keys, known.toNat = n := by
    intro n
    simp only [h.mem_keys_iff, List.mem_map, List.mem_filter, decide_eq_true_eq]
    constructor
    · rintro ⟨source, ⟨hsource, hdoc⟩, rfl⟩
      exact ⟨source.version, ⟨source, hsource, hdoc, rfl⟩, rfl⟩
    · rintro ⟨_, ⟨source, hsource, hdoc, rfl⟩, rfl⟩
      exact ⟨source, ⟨hsource, hdoc⟩, rfl⟩
  unfold Source.highest?
  cases hlatest : manifest.latest? docId with
  | none =>
    rw [Option.map_none, List.max?_eq_none_iff]
    apply List.eq_nil_iff_forall_not_mem.2
    intro n hn
    obtain ⟨known, hknown, -⟩ := (hmem n).1 hn
    rw [List.getLast?_eq_none_iff.1 hlatest] at hknown
    exact absurd hknown List.not_mem_nil
  | some latest =>
    rw [Option.map_some, List.max?_eq_some_iff]
    refine ⟨(hmem _).2 ⟨latest, List.mem_of_getLast? hlatest, rfl⟩, ?_⟩
    intro n hn
    obtain ⟨known, hknown, rfl⟩ := (hmem n).1 hn
    exact UInt32.le_iff_toNat_le.1 (le_of_latest? hlatest hknown)

/-- The version that a document is given is the one asked for, or the next one. -/
theorem Records.eq_of_resolveVersion (h : manifest.Records standing) {requested : Option UInt32}
    {version : UInt32} (hversion : manifest.resolveVersion docId requested = .ok version) :
    version = requested.getD (Source.nextVersion standing docId) := by
  cases gives_of_resolveVersion hversion with
  | asked => rfl
  | first hnone =>
    have hlatest : manifest.latest? docId = none := List.getLast?_eq_none_iff.2 hnone
    rw [Option.getD_none, Source.nextVersion, h.highest?_eq docId, hlatest]
    rfl
  | next hrecorded hhighest hnext =>
    rw [Option.getD_none, Source.nextVersion, h.highest?_eq docId,
      latest?_eq_some_iff.2 ⟨hrecorded, hhighest⟩, Option.map_some]
    dsimp only
    rw [← hnext, UInt32.ofNat_toNat]

/-- A version that is added stands from then on, under the name that it is given. -/
theorem Records.addVersion (h : manifest.Records standing) {document : String} {version : UInt32}
    (hnew : manifest.nameOf? docId version = none) :
    (manifest.addVersion docId version document).Records
      (standing ++ [⟨document, docId, version⟩]) := by
  rintro ⟨name, other, recorded⟩
  rw [List.mem_append, List.mem_singleton, h, nameOf?_addVersion]
  dsimp only
  split
  · next hboth =>
    obtain ⟨rfl, rfl⟩ := hboth
    simp [hnew, eq_comm]
  · next hother =>
    refine or_iff_left ?_
    intro heq
    obtain ⟨-, rfl, rfl⟩ := Source.mk.inj heq
    exact hother ⟨rfl, rfl⟩

/-- The sources that a deletion takes out are those of the versions that it is to take out. -/
theorem Records.removes_eq (h : manifest.Records standing) (keepLatest : Bool) (source : Source) :
    Call.removes standing source ⟨.delete docId keepLatest, .done⟩ =
      manifest.isDoomed docId keepLatest source.docId source.version := by
  unfold Call.removes isDoomed
  dsimp only
  by_cases hdoc : source.docId = docId
  · subst hdoc
    congr 2
    rw [Bool.eq_iff_iff, List.any_eq_true, List.any_eq_true]
    simp only [h.mem_keys_iff, Bool.and_eq_true, decide_eq_true_eq]
    constructor
    · rintro ⟨later, hlater, hdoc, hlt⟩
      exact ⟨later.version, ⟨later, hlater, hdoc, rfl⟩, hlt⟩
    · rintro ⟨_, ⟨later, hlater, hdoc, rfl⟩, hlt⟩
      exact ⟨later, hlater, hdoc, hlt⟩
  · simp [hdoc]

/-- What stands after versions were taken out. -/
theorem Records.filter (h : manifest.Records standing) {goes : Source → Bool}
    (hnames : ∀ document other version, manifest'.nameOf? other version = some document ↔
      manifest.nameOf? other version = some document ∧ goes ⟨document, other, version⟩ = false) :
    manifest'.Records (standing.filter fun source => !goes source) := by
  rintro ⟨document, other, version⟩
  rw [List.mem_filter, h, hnames]
  simp

end Index.Manifest

namespace Engine

variable {engine engine' : Engine} {disk disk' : Disk} {result : Except EngineFault Unit}
  {standing : List Source} {docId : String}

/-- An insertion that fails leaves what is recorded; one that is done adds its source. -/
theorem records_insert (hrecords : engine.manifest.Records standing) {texts : List String}
    {maps : List Metadata} {document : String} {requested : Option UInt32}
    (h : engine.insert texts maps document docId requested disk = (result, engine', disk')) :
    engine'.manifest.Records (Call.standingAfter standing
      ⟨.insert texts maps document docId requested, .ofFallible result⟩) := by
  have hfailed : ∀ fault, engine'.manifest = engine.manifest →
      engine'.manifest.Records (Call.standingAfter standing
        ⟨.insert texts maps document docId requested, .fault fault⟩) := by
    intro fault hsame
    rw [Call.standingAfter_of_ne_done standing _ (by simp), hsame]
    exact hrecords
  rcases insert_cases h with ⟨⟨fault, rfl⟩, rfl | rfl, -⟩ | ⟨version, hversion, hnumbers⟩
  · exact hfailed fault rfl
  · exact hfailed fault rfl
  · rcases hnumbers.outcome with ⟨rfl, -, hmanifest, -⟩ | ⟨rfl, hsame, -⟩
    · have hadded : (engine.manifest.addVersion docId version document).Records
          (standing ++ [⟨document, docId, version⟩]) :=
        hrecords.addVersion (Manifest.nameOf?_of_resolveVersion hversion)
      rw [Answer.ofFallible, Call.standingAfter_insert, hmanifest,
        ← hrecords.eq_of_resolveVersion hversion]
      exact hadded
    · exact hfailed _ (manifest_of_contents hsame)

/-- A deletion that fails leaves what is recorded; one that is done takes the doomed versions
out. -/
theorem names_delete (hstored : engine.IsStored disk) {keepLatest : Bool}
    (h : engine.delete docId keepLatest disk = (result, engine', disk')) :
    (∃ fault, result = .error fault) ∧ engine'.manifest = engine.manifest ∨
      result = .ok () ∧ ∀ other version, engine'.manifest.nameOf? other version =
        if engine.manifest.isDoomed docId keepLatest other version then none
        else engine.manifest.nameOf? other version := by
  rw [delete_eq_carryOut] at h
  have houtcome := carryOut_outcome hstored (deletion engine.manifest docId keepLatest)
  rw [h] at houtcome
  have hnames := engine.contents.nameOf?_of_doomed docId keepLatest
  by_cases hnone : (engine.contents.doomed docId keepLatest).isEmpty = true
  · have hplan : deletion engine.manifest docId keepLatest = .answer (.ok ()) := if_pos hnone
    rw [hplan] at houtcome
    refine .inr ⟨houtcome.1, fun other version => ?_⟩
    rw [houtcome.2, ← hnames, List.isEmpty_iff.1 hnone]
    simp [Plan.manifestAfter]
  · obtain ⟨changes, hplan⟩ : ∃ changes, deletion engine.manifest docId keepLatest =
        .commit changes (engine.manifest.removeVersions docId
          (engine.contents.doomed docId keepLatest)) := ⟨_, if_neg hnone⟩
    rw [hplan] at houtcome
    cases htrouble : disk.trouble.isSome with
    | true =>
      rw [htrouble] at houtcome
      exact .inl ⟨⟨_, houtcome.1⟩, houtcome.2⟩
    | false =>
      rw [htrouble] at houtcome
      refine .inr ⟨houtcome.1, fun other version => ?_⟩
      rw [houtcome.2, ← hnames, ← Manifest.nameOf?_removeVersions]
      rfl

theorem records_delete (hstored : engine.IsStored disk)
    (hrecords : engine.manifest.Records standing) {keepLatest : Bool}
    (h : engine.delete docId keepLatest disk = (result, engine', disk')) :
    engine'.manifest.Records (Call.standingAfter standing
      ⟨.delete docId keepLatest, .ofFallible result⟩) := by
  rcases names_delete hstored h with ⟨⟨fault, rfl⟩, hsame⟩ | ⟨rfl, hnames⟩
  · rw [Call.standingAfter_of_ne_done standing _ (by simp [Answer.ofFallible]), hsame]
    exact hrecords
  · rw [Answer.ofFallible, Call.standingAfter_delete]
    apply hrecords.filter
    intro document other version
    rw [hnames, hrecords.removes_eq]
    cases engine.manifest.isDoomed docId keepLatest other version <;> simp

/-- A call to an engine makes of the recorded versions what its journal says. -/
theorem records_runEngine (hstored : engine.IsStored disk)
    (hrecords : engine.manifest.Records standing) {command : HandleCommand} {answer : Answer}
    (h : Handle.runEngine (engine, disk) command = (answer, engine', disk')) :
    engine'.manifest.Records (Call.standingAfter standing ⟨command, answer⟩) := by
  have hother : command.isChange = false → engine' = engine →
      engine'.manifest.Records (Call.standingAfter standing ⟨command, answer⟩) := by
    rintro hchange rfl
    cases command with
    | insert | delete => exact absurd hchange (by simp [HandleCommand.isChange])
    | _ => simpa [Call.standingAfter, Call.stored?, Call.removes] using hrecords
  cases command with
  | insert texts maps document docId requested =>
    cases hinsert : engine.insert texts maps document docId requested disk with
    | mk result state =>
      simp only [Handle.runEngine, hinsert, Prod.mk.injEq] at h
      obtain ⟨rfl, rfl⟩ := h
      exact records_insert hrecords hinsert
  | delete docId keepLatest =>
    cases hdelete : engine.delete docId keepLatest disk with
    | mk result state =>
      simp only [Handle.runEngine, hdelete, Prod.mk.injEq] at h
      obtain ⟨rfl, rfl⟩ := h
      exact records_delete hstored hrecords hdelete
  | query text topK constraints =>
    have hsame := runEngine_query engine disk text topK constraints
    rw [h] at hsame
    exact hother rfl (Prod.mk.inj hsame).1
  | sources | versionsOf | save | path | close =>
    exact hother rfl (Prod.mk.inj (Prod.mk.inj h).2).1.symm

end Engine

/-! ### Every run -/

/-- What stands after a call does not depend on how its texts and metadata were passed on. -/
theorem Call.standingAfter_passOn (standing : List Source) (surface : Surface)
    (command : HandleCommand) {answer answer' : Answer} (hdone : answer = .done ↔ answer' = .done) :
    standingAfter standing ⟨surface.passOn command, answer'⟩ =
      standingAfter standing ⟨command, answer⟩ := by
  by_cases h : answer = .done
  · obtain rfl := hdone.1 h
    subst h
    cases surface <;> cases command <;> rfl
  · have h' : answer' ≠ .done := fun heq => h (hdone.2 heq)
    rw [standingAfter_of_ne_done standing _ h, standingAfter_of_ne_done standing _ h']

namespace Engine

/-- An engine and its disk with the journal of the calls since the index was made, through whichever
surface, failing ones included; the index may be closed and opened again anywhere, and anything may
happen to the disk that spares its directory. -/
inductive Journal : List Call → Engine → Disk → Prop where
  | opened {path : String} {settings : Settings} {disk after : Disk} {engine : Engine}
      (hopen : Engine.open path settings disk = (.ok engine, after))
      (hfresh : disk.nodes (descriptionOf engine.home) = none) : Journal [] engine after
  | called {past : List Call} {surface : Surface} {engine engine' : Engine} {disk disk' : Disk}
      {command : HandleCommand} {answer : Answer} (before : Journal past engine disk)
      (hcommand : command ≠ .close)
      (hcall : Handle.run ⟨surface, engine⟩ disk command = (answer, engine', disk')) :
      Journal (past ++ [⟨command, answer⟩]) engine' disk'
  | reopened {past : List Call} {engine engine' : Engine} {disk between after : Disk}
      {path : String} {settings : Settings} (before : Journal past engine disk)
      (huntouched : engine.Untouched (engine.close disk) between)
      (hopen : Engine.open path settings between = (.ok engine', after))
      (hhome : engine'.home = engine.home) : Journal past engine' after
  | meanwhile {past : List Call} {engine : Engine} {disk after : Disk}
      (before : Journal past engine disk) (huntouched : engine.Untouched disk after) :
      Journal past engine after

variable {past : List Call} {engine : Engine} {disk : Disk}

theorem Journal.isStored_and_records (h : Journal past engine disk) :
    engine.IsStored disk ∧ engine.manifest.Records (Call.standing past) := by
  induction h with
  | @opened _ _ _ _ engine hopen hfresh =>
    obtain ⟨hstored, hempty⟩ := isStored_of_open_fresh hopen hfresh
    have hmanifest : engine.manifest = Manifest.empty :=
      congrArg Index.Contents.manifest hempty
    refine ⟨hstored, ?_⟩
    rw [hmanifest]
    intro source
    simp [Call.standing, Manifest.nameOf?, Manifest.versionsOf, Manifest.empty]
  | @called past surface engine engine' disk disk' command answer before hcommand hcall ih =>
    obtain ⟨hstate, hdone⟩ := Handle.run_passOn ⟨surface, engine⟩ disk command
    have hstored := (ih.1.runEngine (surface.passOn_ne_close hcommand)).1
    cases hrun : Handle.runEngine (engine, disk) (surface.passOn command) with
    | mk answer' state =>
      rw [hcall, hrun] at hstate hdone
      rw [hrun] at hstored
      obtain rfl : (engine', disk') = state := hstate
      have hrecords := records_runEngine ih.1 ih.2 hrun
      rw [Call.standingAfter_passOn _ surface command hdone] at hrecords
      rw [Call.standing_concat]
      exact ⟨hstored, hrecords⟩
  | reopened _ huntouched hopen hhome ih =>
    obtain ⟨hstored, hcontents⟩ := isStored_of_reopen ih.1 huntouched hopen hhome
    refine ⟨hstored, ?_⟩
    rw [manifest_of_contents hcontents]
    exact ih.2
  | meanwhile _ huntouched ih => exact ⟨ih.1.of_untouched huntouched, ih.2⟩

/-- Whatever was called, a listing gives the sources of the insertions that were done, with the
names and versions that they got, as far as no later deletion that was done took them out: each
once, in strictly increasing order.  The versions of a document are those that are listed for it, in
strictly increasing order as well. -/
theorem listing_follows_journal (h : Journal past engine disk) :
    ∃ listing, Database.sources (engine, disk) = (.ok listing, (engine, disk)) ∧
      listing.Pairwise Source.Precedes ∧
      (∀ source, source ∈ listing ↔
        ∃ before call later, past = before ++ call :: later ∧
          call.stored? (Call.standing before) = some source ∧
          ∀ between next rest, later = between ++ next :: rest →
            next.removes (Call.standing (before ++ call :: between)) source = false) ∧
      ∀ docId, (engine.versionsOf docId).Pairwise (fun a b => a < b) ∧
        ∀ version, version ∈ engine.versionsOf docId ↔
          ∃ document, ⟨document, docId, version⟩ ∈ listing := by
  have hrecords := h.isStored_and_records.2
  refine ⟨Source.sort engine.sources, rfl, ?_, ?_, ?_⟩
  · exact Source.pairwise_sort engine.manifest.nodup_sources
  · intro source
    rw [Source.mem_sort, ← Call.mem_standing_iff, hrecords source]
    exact Manifest.mem_sources_iff
  · intro docId
    refine ⟨engine.manifest.pairwise_keys_versionsOf docId, fun version => ?_⟩
    simp only [Source.mem_sort]
    exact Manifest.mem_keys_versionsOf_iff

/-- Calls one after another, each written down with its answer. -/
def writeDown : List (Surface × HandleCommand) → List Call × Engine × Disk →
    List Call × Engine × Disk
  | [], state => state
  | (surface, command) :: rest, (past, engine, disk) =>
    let (answer, state) := Handle.run ⟨surface, engine⟩ disk command
    writeDown rest (past ++ [⟨command, answer⟩], state)

theorem Journal.writeDown {calls : List (Surface × HandleCommand)}
    {state : List Call × Engine × Disk} (h : Journal state.1 state.2.1 state.2.2)
    (hopen : ∀ call ∈ calls, call.2 ≠ .close) :
    Journal (Engine.writeDown calls state).1 (Engine.writeDown calls state).2.1
      (Engine.writeDown calls state).2.2 := by
  induction calls generalizing state with
  | nil => exact h
  | cons call calls ih =>
    obtain ⟨hfirst, hrest⟩ := List.forall_mem_cons.1 hopen
    exact ih (.called h hfirst rfl) hrest

/-- A document without chunks, a call that is refused, and a version that is deleted. -/
def beforeReopening : List Call × Engine × Disk :=
  writeDown [
    (.database, .insert [] [] "b.txt" "a" none),
    (.engine, .insert ["one"] [] "e.txt" "e" none),
    (.database, .insert ["one"] [.empty] "c.txt" "a" none),
    (.database, .delete "a" true)] ([], newEngine .default, newDisk)

/-- After the index was opened again: the deleted version is stored anew under another name. -/
def afterReopening : List Call × Engine × Disk :=
  writeDown [
    (.engine, .insert ["two"] [.empty] "a.txt" "b" none),
    (.database, .insert [] [] "d.txt" "a" (some 1))]
    (beforeReopening.1,
      { beforeReopening.2.1 with stopWords := Settings.default.stopWords, staged := [] },
      beforeReopening.2.1.reheld beforeReopening.2.2)

theorem listing_after_reopening :
    Journal afterReopening.1 afterReopening.2.1 afterReopening.2.2 ∧
      Call.standing afterReopening.1 =
        [⟨"c.txt", "a", 2⟩, ⟨"a.txt", "b", 1⟩, ⟨"d.txt", "a", 1⟩] ∧
      ∃ listing, Database.sources afterReopening.2 = (.ok listing, afterReopening.2) ∧
        listing.Pairwise Source.Precedes ∧
        listing = [⟨"a.txt", "b", 1⟩, ⟨"c.txt", "a", 2⟩, ⟨"d.txt", "a", 1⟩] ∧
        afterReopening.2.1.versionsOf "a" = [1, 2] := by
  have hbefore : Journal beforeReopening.1 beforeReopening.2.1 beforeReopening.2.2 :=
    (Journal.opened (open_empty Settings.opens_default) rfl).writeDown (by simp)
  have hreopened := hbefore.reopened (.refl _ _)
    (open_close hbefore.isStored_and_records.1 Settings.opens_default) rfl
  have hafter : Journal afterReopening.1 afterReopening.2.1 afterReopening.2.2 :=
    hreopened.writeDown (by simp)
  refine ⟨hafter, by decide +kernel, ?_⟩
  obtain ⟨listing, hlisting, hordered, -, -⟩ := listing_follows_journal hafter
  refine ⟨listing, hlisting, hordered, ?_, by decide +kernel⟩
  have hsort : listing = Source.sort afterReopening.2.1.sources :=
    (Except.ok.inj (Prod.mk.inj hlisting).1).symm
  have hsources : afterReopening.2.1.sources =
      [⟨"d.txt", "a", 1⟩, ⟨"c.txt", "a", 2⟩, ⟨"a.txt", "b", 1⟩] := by decide +kernel
  have hdc : (Source.compare ⟨"d.txt", "a", 1⟩ ⟨"c.txt", "a", 2⟩).isLE = false := by decide +kernel
  have hca : (Source.compare ⟨"c.txt", "a", 2⟩ ⟨"a.txt", "b", 1⟩).isLE = false := by decide +kernel
  rw [hsort, hsources]
  simp [Source.sort, List.mergeSort, hdc, hca]

end Engine

end ChunkStore
