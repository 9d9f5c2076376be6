import ChunkStore.Proofs.Engine.DocumentIndependence
import ChunkStore.Proofs.Engine.Reachable
import ChunkStore.Workspace.Reading

/-!
# Queries see the last commit

A reader that is not to be shown anything sees the segments of its engine (`IsCurrent`): every call
keeps this, as the directory of an engine holds what the engine committed last.  So a query through
the reader is answered as the engine itself answers it, or it is refused because the index could be
read neither after an earlier commit nor now; and whether a commit counts does not depend on the
reader.
-/

set_option autoImplicit false

namespace ChunkStore

open ChunkStore.Index (Manifest)

/-! ### What changes the segments -/

theorem Engine.segments_commit (engine : Engine) (isComplete : Bool) (manifest : Manifest)
    (disk : Disk) :
    (engine.commit isComplete manifest disk).1 = .ok () ∨
      (engine.commit isComplete manifest disk).2.1.segments = engine.segments := by
  unfold commit
  dsimp only
  split
  · exact .inr rfl
  · split
    · exact .inl rfl
    · exact .inr rfl

namespace ReadingEngine

theorem hasCommitted_insert (engine : Engine) (texts : List String) (maps : List Metadata)
    (document docId : String) (requested : Option UInt32) (disk : Disk) :
    hasCommitted engine (.insert texts maps document docId requested)
        (.ofFallible (engine.insert texts maps document docId requested disk).1) = true ∨
      (engine.insert texts maps document docId requested disk).2.1.segments =
        engine.segments := by
  unfold Engine.insert
  split
  · exact .inr rfl
  · split
    · exact .inr rfl
    · dsimp only
      split
      · exact .inr rfl
      · refine (Engine.segments_commit _ _ _ disk).imp_left ?_
        intro hdone
        rw [hdone]
        rfl

theorem hasCommitted_delete (engine : Engine) (docId : String) (keepLatest : Bool) (disk : Disk) :
    hasCommitted engine (.delete docId keepLatest)
        (.ofFallible (engine.delete docId keepLatest disk).1) = true ∨
      (engine.delete docId keepLatest disk).2.1.segments = engine.segments := by
  generalize hknown : (engine.manifest.versionsOf docId).keys = known
  by_cases hnone : (if keepLatest then known.dropLast else known).isEmpty
  · have hsame : engine.delete docId keepLatest disk = (.ok (), engine, disk) := by
      subst hknown
      exact if_pos hnone
    rw [hsame]
    exact .inr rfl
  · have hcommits : ∃ (staged : Engine) (isComplete : Bool) (manifest : Manifest),
        engine.delete docId keepLatest disk = staged.commit isComplete manifest disk ∧
          staged.segments = engine.segments := by
      subst hknown
      exact ⟨_, _, _, if_neg hnone, rfl⟩
    obtain ⟨staged, isComplete, manifest, hcommit, hsegments⟩ := hcommits
    rw [hcommit, ← hsegments]
    refine (staged.segments_commit isComplete manifest disk).imp_left ?_
    intro hdone
    rw [hdone]
    simpa [Answer.ofFallible, hasCommitted, hknown] using hnone

/-- A call has committed, or it leaves the segments as they were. -/
theorem hasCommitted_or_segments_eq (engine : Engine) (disk : Disk) (command : HandleCommand) :
    hasCommitted engine command (Handle.runEngine (engine, disk) command).1 = true ∨
      (Handle.runEngine (engine, disk) command).2.1.segments = engine.segments := by
  cases command with
  | insert texts maps document docId requested =>
    exact hasCommitted_insert engine texts maps document docId requested disk
  | delete docId keepLatest => exact hasCommitted_delete engine docId keepLatest disk
  | query text topK constraints =>
    rw [Engine.runEngine_query]
    exact .inr rfl
  | sources | versionsOf | save | path | close => exact .inr rfl

/-! ### One call -/

/-- A reader that is not to be shown anything sees what its engine committed last. -/
def IsCurrent (reading : ReadingEngine) : Prop :=
  reading.reader.isPending = false → reading.reader.segments = reading.engine.segments

/-- A result is the engine's own answer, or a query is refused because of a mishap. -/
def IsServed (mishap : Option String) (command : HandleCommand) (answer : Answer)
    (result : Except String Answer) : Prop :=
  result = .ok answer ∨ command.isQuery = true ∧
    ∃ reason, mishap = some reason ∧
      result = .error ("failed to refresh index reader: " ++ reason)

variable {engine : Engine} {reader : Reader} {disk : Disk}

theorem load_of_isStored (h : engine.IsStored disk) (mishap : Option String) :
    (∃ reason, mishap = some reason ∧ Reader.load disk engine.home mishap = .error reason) ∨
      Reader.load disk engine.home mishap = .ok engine.segments := by
  cases mishap with
  | some reason => exact .inl ⟨reason, rfl, rfl⟩
  | none =>
    obtain ⟨commit, hcommit, hsegments, -⟩ := h.index.committed
    have hdata : disk.holdsSegments engine.home commit = true := by
      rw [Disk.holdsSegments_iff, hsegments]
      exact h.index.data
    have hread := Disk.readDescription_eq_ok_iff.2 hcommit
    refine .inr ?_
    simp only [Reader.load, hread, if_pos hdata, hsegments]

/-- A reader follows a commit, or it is still to be shown it. -/
theorem isCurrent_follow (reader : Reader) (h : engine.IsStored disk) (mishap : Option String) :
    IsCurrent ⟨engine, reader.follow (Reader.load disk engine.home mishap)⟩ := by
  rcases load_of_isStored h mishap with ⟨reason, -, hload⟩ | hload
  · rw [hload]
    intro hpending
    exact absurd hpending (by simp [Reader.follow])
  · rw [hload]
    exact fun _ => rfl

/-- Before a query a reader is shown what it has not seen yet, unless a mishap prevents this. -/
theorem refresh_cases (h : engine.IsStored disk) (hcurrent : IsCurrent ⟨engine, reader⟩)
    (mishap : Option String) :
    (∃ reason, mishap = some reason ∧ reader.isPending = true ∧
      reader.refresh (Reader.load disk engine.home mishap) =
        .error ("failed to refresh index reader: " ++ reason)) ∨
      reader.refresh (Reader.load disk engine.home mishap) = .ok ⟨engine.segments, false⟩ := by
  unfold Reader.refresh
  cases hpending : reader.isPending with
  | false =>
    right
    rw [if_neg (by simp), ← hcurrent hpending, ← hpending]
  | true =>
    rw [if_pos rfl]
    rcases load_of_isStored h mishap with ⟨reason, hmishap, hload⟩ | hload
    · rw [hload]
      exact .inl ⟨reason, hmishap, rfl, rfl⟩
    · rw [hload]
      exact .inr rfl

/-- A query is answered as the engine answers it, or refused for want of a refresh. -/
theorem run_query (h : engine.IsStored disk) (hcurrent : IsCurrent ⟨engine, reader⟩)
    (mishap : Option String) (text : String) (topK : Nat) (constraints : Constraints) :
    (∃ reason, mishap = some reason ∧ reader.isPending = true ∧
      run (⟨engine, reader⟩, disk) mishap (.query text topK constraints) =
        (.error ("failed to refresh index reader: " ++ reason), ⟨engine, reader⟩, disk)) ∨
      run (⟨engine, reader⟩, disk) mishap (.query text topK constraints) =
        (.ok (Handle.runEngine (engine, disk) (.query text topK constraints)).1,
          ⟨engine, engine.segments, false⟩, disk) := by
  unfold run
  dsimp only
  rcases refresh_cases h hcurrent mishap with ⟨reason, hmishap, hpending, hrefused⟩ | hrefreshed
  · rw [hrefused]
    exact .inl ⟨reason, hmishap, hpending, rfl⟩
  · rw [hrefreshed]
    exact .inr rfl

theorem run_of_not_isQuery {command : HandleCommand} (hquery : command.isQuery = false)
    (mishap : Option String) {answer : Answer} {engine' : Engine} {disk' : Disk}
    (hcall : Handle.runEngine (engine, disk) command = (answer, engine', disk')) :
    run (⟨engine, reader⟩, disk) mishap command =
      (.ok answer, ⟨engine', if hasCommitted engine command answer then
        reader.follow (Reader.load disk' engine'.home mishap) else reader⟩, disk') := by
  cases command with
  | query => exact absurd hquery (by simp [HandleCommand.isQuery])
  | _ => simp only [run, hcall]

/-- Whatever is called through a reader, the engine and the disk become what the engine's own call
makes of them.  The result is the engine's answer, unless the index could be read neither after an
earlier commit nor now for a query. -/
theorem run_inv (h : engine.IsStored disk) (hcurrent : IsCurrent ⟨engine, reader⟩)
    {mishap : Option String} {command : HandleCommand} (hopen : command ≠ .close)
    {result : Except String Answer} {reading : ReadingEngine} {disk' : Disk}
    (hrun : run (⟨engine, reader⟩, disk) mishap command = (result, reading, disk')) :
    ∃ answer, Handle.runEngine (engine, disk) command = (answer, reading.engine, disk') ∧
      (result = .ok answer ∨ reader.isPending = true ∧ IsServed mishap command answer result) ∧
      reading.IsCurrent ∧
      (command.isQuery = true ∨ mishap = none → reader.isPending = false →
        reading.reader.isPending = false) := by
  cases hquery : command.isQuery with
  | true =>
    cases command with
    | query text topK constraints =>
      rcases run_query h hcurrent mishap text topK constraints with
        ⟨reason, hmishap, hpending, hrefused⟩ | hanswered
      · obtain ⟨rfl, hrest⟩ := Prod.mk.inj (hrun.symm.trans hrefused)
        obtain ⟨rfl, rfl⟩ := Prod.mk.inj hrest
        refine ⟨_, Prod.ext rfl (Engine.runEngine_query ..), ?_, hcurrent, fun _ => id⟩
        exact .inr ⟨hpending, .inr ⟨rfl, reason, hmishap, rfl⟩⟩
      · obtain ⟨rfl, hrest⟩ := Prod.mk.inj (hrun.symm.trans hanswered)
        obtain ⟨rfl, rfl⟩ := Prod.mk.inj hrest
        exact ⟨_, Prod.ext rfl (Engine.runEngine_query ..), .inl rfl, fun _ => rfl, fun _ _ => rfl⟩
    | _ => exact absurd hquery (by simp [HandleCommand.isQuery])
  | false =>
    obtain ⟨answer, engine', disk'', hcall⟩ :
        ∃ answer engine' disk'', Handle.runEngine (engine, disk) command =
          (answer, engine', disk'') := ⟨_, _, _, rfl⟩
    have hstored := (h.runEngine hopen).1
    have hkept := hasCommitted_or_segments_eq engine disk command
    rw [hcall] at hstored hkept
    rw [run_of_not_isQuery hquery mishap hcall] at hrun
    obtain ⟨rfl, hrest⟩ := Prod.mk.inj hrun
    obtain ⟨rfl, rfl⟩ := Prod.mk.inj hrest
    refine ⟨answer, hcall, .inl rfl, ?_, ?_⟩
    · split
      · exact isCurrent_follow reader hstored mishap
      · next hnot =>
        intro hpending
        exact (hcurrent hpending).trans (hkept.resolve_left hnot).symm
    · intro hno hpending
      obtain rfl := hno.resolve_left (by simp)
      dsimp only
      split
      · rcases load_of_isStored hstored none with ⟨reason, hmishap, -⟩ | hload
        · exact absurd hmishap (by simp)
        · rw [hload]
          exact hpending
      · exact hpending

/-! ### All calls -/

/-- What calls through a reader come to: the engine and the disk are as after the same calls without
one, and so are the answers, but that queries may have been refused, which takes a mishap after a
commit and another one before the query. -/
structure SeesCommits (reading : ReadingEngine) (disk : Disk)
    (calls : List (Option String × HandleCommand)) : Prop where
  state : ((runAll (reading, disk) calls).2.1.engine, (runAll (reading, disk) calls).2.2) =
    Engine.afterAll (calls.map Prod.snd) (reading.engine, disk)
  served : List.Forall₂ (fun (call, answer) result => IsServed call.1 call.2 answer result)
    (calls.zip ((Engine.outcomes (calls.map Prod.snd) (reading.engine, disk)).map (·.answer)))
    (runAll (reading, disk) calls).1
  unhindered : reading.reader.isPending = false →
    (∀ call ∈ calls, call.2.isQuery = true ∨ call.1 = none) →
    (runAll (reading, disk) calls).1 =
      (Engine.outcomes (calls.map Prod.snd) (reading.engine, disk)).map fun outcome =>
        .ok outcome.answer

theorem seesCommits {reading : ReadingEngine} (h : reading.engine.IsStored disk)
    (hcurrent : reading.IsCurrent) {calls : List (Option String × HandleCommand)}
    (hopen : ∀ call ∈ calls, call.2 ≠ .close) : reading.SeesCommits disk calls := by
  induction calls generalizing reading disk with
  | nil => exact ⟨rfl, .nil, fun _ _ => rfl⟩
  | cons call rest ih =>
    obtain ⟨engine, reader⟩ := reading
    obtain ⟨mishap, command⟩ := call
    obtain ⟨result, reading', disk', hrun⟩ :
        ∃ result reading' disk', run (⟨engine, reader⟩, disk) mishap command =
          (result, reading', disk') := ⟨_, _, _, rfl⟩
    have hcommand : command ≠ .close := hopen _ List.mem_cons_self
    obtain ⟨answer, hcall, hresult, hcurrent', hidle⟩ := run_inv h hcurrent hcommand hrun
    have hstored := (h.runEngine hcommand).1
    rw [hcall] at hstored
    have hrest := ih hstored hcurrent' fun other hmem => hopen other (List.mem_cons_of_mem _ hmem)
    have hall : runAll (⟨engine, reader⟩, disk) ((mishap, command) :: rest) =
        (result :: (runAll (reading', disk') rest).1, (runAll (reading', disk') rest).2) := by
      rw [runAll, hrun]
    have hanswer : (Engine.outcome (engine, disk) command).answer = answer :=
      congrArg Prod.fst hcall
    refine ⟨?_, ?_, ?_⟩
    · rw [hall]
      simpa only [List.map_cons, Engine.afterAll, List.foldl_cons, hcall] using hrest.state
    · rw [hall]
      simp only [List.map_cons, Engine.outcomes, List.zip_cons_cons, hcall, hanswer]
      exact .cons (hresult.elim .inl And.right) hrest.served
    · intro hpending hunhindered
      have hfirst := hunhindered (mishap, command) List.mem_cons_self
      rw [hall]
      simp only [List.map_cons, Engine.outcomes, hcall, hanswer]
      have hnow : result = .ok answer := by
        refine hresult.resolve_right ?_
        rintro ⟨hstale, -⟩
        exact Bool.false_ne_true (hpending.symm.trans hstale)
      have hlater := hrest.unhindered (hidle hfirst hpending) fun other hmem =>
        hunhindered other (List.mem_cons_of_mem _ hmem)
      rw [hnow, hlater]

/-- Whatever state an engine has come to, with a reader that was shown its index its queries see
what it committed last, whatever is called from then on. -/
theorem queries_see_last_commit {admits : Engine → HandleCommand → Prop}
    (h : Engine.Reachable admits engine disk) {calls : List (Option String × HandleCommand)}
    (hopen : ∀ call ∈ calls, call.2 ≠ .close) : (opened engine).SeesCommits disk calls :=
  seesCommits h.isStored.1 (fun _ => rfl) hopen

end ReadingEngine

end ChunkStore
