import ChunkStore.Proofs.Engine.Alike
import ChunkStore.Proofs.Engine.Searching

/-!
# Calls through databases

A database passes every call on to its engine.  What the call makes of the engine and the disk is
what the engine's own call does, and it is done exactly if that one is; only the way in which texts
come together with their metadata, and the way in which failures are reported, differ.
-/

set_option autoImplicit false

namespace ChunkStore

/-- A database's call is done exactly if the engine's call is. -/
theorem Answer.ofFailable_mapError_eq_done_iff (describe : EngineFault → String)
    (failure : String → Failure) (result : Except EngineFault Unit) :
    ofFailable ((result.mapError describe).mapError failure) = .done ↔
      ofFallible result = .done := by
  cases result <;> simp [Except.mapError, ofFailable, ofFallible]

namespace Surface

/-- The command that reaches the engine: a database pairs texts and metadata up. -/
def passOn : Surface → HandleCommand → HandleCommand
  | .database, .insert texts maps document docId requested =>
    .insert (Handle.documentOf texts maps document docId requested).texts
      (Handle.documentOf texts maps document docId requested).metadata document docId requested
  | _, command => command

theorem passOn_ne_close {surface : Surface} {command : HandleCommand} (h : command ≠ .close) :
    surface.passOn command ≠ .close := by
  cases surface <;> cases command <;> simp_all [passOn]

end Surface

/-- A call through a database does what the call does that reaches the engine, and is done if that
one is. -/
theorem Handle.run_passOn (handle : Handle) (disk : Disk) (command : HandleCommand) :
    (handle.run disk command).2 =
        (runEngine (handle.engine, disk) (handle.surface.passOn command)).2 ∧
      ((handle.run disk command).1 = .done ↔
        (runEngine (handle.engine, disk) (handle.surface.passOn command)).1 = .done) := by
  obtain ⟨surface, engine⟩ := handle
  cases surface with
  | engine => cases command <;> exact ⟨rfl, Iff.rfl⟩
  | database =>
    cases command with
    | insert texts maps document docId requested =>
      generalize hdraft : documentOf texts maps document docId requested = draft
      have hparts : draft.name = document ∧ draft.docId = docId ∧ draft.version = requested := by
        rw [← hdraft]
        exact ⟨rfl, rfl, rfl⟩
      obtain ⟨rfl, rfl, rfl⟩ := hparts
      simp only [run, runDatabase, runEngine, Surface.passOn, hdraft, Database.insert,
        Retrieval.insert]
      exact ⟨trivial, Answer.ofFailable_mapError_eq_done_iff _ _ _⟩
    | delete docId keepLatest =>
      simp only [run, runDatabase, runEngine, Surface.passOn, Database.delete, Retrieval.delete]
      exact ⟨trivial, Answer.ofFailable_mapError_eq_done_iff _ _ _⟩
    | save path =>
      simp only [run, runDatabase, runEngine, Surface.passOn, Database.save, Retrieval.save]
      exact ⟨trivial, Answer.ofFailable_mapError_eq_done_iff _ _ _⟩
    | query text topK constraints =>
      have hsame := Database.query_state text topK constraints (engine, disk)
      have hengine := Engine.runEngine_query engine disk text topK constraints
      cases hquery : Database.query text topK constraints (engine, disk) with
      | mk result state =>
        rw [hquery] at hsame
        obtain rfl := hsame
        simp only [run, runDatabase, Surface.passOn, hquery, hengine]
        simp only [runEngine]
        cases result <;> cases engine.search text topK constraints <;> simp
    | sources => exact ⟨rfl, by simp [run, runDatabase, runEngine, Surface.passOn, Database.sources,
        Retrieval.sources, Except.map, Except.mapError]⟩
    | versionsOf | path | close => exact ⟨rfl, Iff.rfl⟩

end ChunkStore
