import ChunkStore.Proofs.Engine.Calls
import ChunkStore.Proofs.Index.Agreement

/-!
# Every run keeps the manifest and the chunks in agreement

`Reachable` is every state that an engine and its disk can come to when an index is made where none
was: through any calls, failing ones included, closing and opening again, saving and opening the
copy, and whatever happens to the disk in between that spares the directory of the engine.  In all
these states the directory holds what the engine holds, and the manifest agrees with the chunks.
-/

set_option autoImplicit false

namespace ChunkStore.Engine

open ChunkStore.Index (Contents Manifest)

/-- The states that an engine and its disk can come to by calls that are admitted, from an index
that is made where none was.  A run ends where the chunk ids run out. -/
inductive Reachable (admits : Engine → HandleCommand → Prop) : Engine → Disk → Prop where
  | opened {path : String} {settings : Settings} {disk after : Disk} {engine : Engine}
      (hopen : Engine.open path settings disk = (.ok engine, after))
      (hfresh : disk.nodes (descriptionOf engine.home) = none) : Reachable admits engine after
  | called {engine engine' : Engine} {disk disk' : Disk} {command : HandleCommand}
      {answer : Answer} (before : Reachable admits engine disk) (hadmits : admits engine command)
      (hcommand : command ≠ .close)
      (hcall : Handle.runEngine (engine, disk) command = (answer, engine', disk'))
      (hids : answer ≠ .fault .idsExhausted) : Reachable admits engine' disk'
  | reopened {engine engine' : Engine} {disk between after : Disk} {path : String}
      {settings : Settings} (before : Reachable admits engine disk)
      (huntouched : engine.Untouched (engine.close disk) between)
      (hopen : Engine.open path settings between = (.ok engine', after))
      (hhome : engine'.home = engine.home) : Reachable admits engine' after
  | copied {engine copy : Engine} {disk saved after : Disk} {path : String} {settings : Settings}
      (before : Reachable admits engine disk) (hsave : engine.save path disk = (.ok (), saved))
      (hopen : Engine.open path settings saved = (.ok copy, after)) : Reachable admits copy after
  | meanwhile {engine : Engine} {disk after : Disk} (before : Reachable admits engine disk)
      (huntouched : engine.Untouched disk after) : Reachable admits engine after

/-- An insertion whose version key is short enough to be indexed; other commands have none. -/
def FitsKey (engine : Engine) : HandleCommand → Prop
  | .insert _ _ _ docId requested => ∀ version,
    engine.manifest.resolveVersion docId requested = .ok version →
      Index.isIndexed (Index.versionKey docId version) = true
  | _ => True

section

variable {admits : Engine → HandleCommand → Prop} {engine : Engine} {disk : Disk}

/-- In every state that can be reached the directory holds what the engine holds, and nothing is
staged. -/
theorem Reachable.isStored (h : Reachable admits engine disk) :
    engine.IsStored disk ∧ engine.staged = [] := by
  induction h with
  | opened hopen hfresh =>
    exact ⟨(isStored_of_open_fresh hopen hfresh).1, staged_of_open hopen⟩
  | called _ _ hcommand hcall hids ih =>
    obtain ⟨hstored, hidle, -⟩ := runEngine_inv ih.1 ih.2 hcall hcommand hids
    exact ⟨hstored, hidle⟩
  | reopened _ huntouched hopen hhome ih =>
    exact ⟨(isStored_of_reopen ih.1 huntouched hopen hhome).1, staged_of_open hopen⟩
  | copied _ hsave hopen ih =>
    exact ⟨(isStored_of_open_saved ih.1 hsave hopen).1, staged_of_open hopen⟩
  | meanwhile _ huntouched ih => exact ⟨ih.1.of_untouched huntouched, ih.2⟩

/-- What holds of an empty index and is kept by all that admitted commands make of one holds in
every state that can be reached. -/
theorem Reachable.contents_induction (holds : Contents → Prop) (hempty : holds .empty)
    (hstep : ∀ (engine : Engine) command after, holds engine.contents → admits engine command →
      engine.contents.Becomes engine.stopWords command after → holds after)
    (h : Reachable admits engine disk) : holds engine.contents := by
  induction h with
  | opened hopen hfresh =>
    rw [(isStored_of_open_fresh hopen hfresh).2]
    exact hempty
  | @called engine _ _ _ command _ before hadmits hcommand hcall hids ih =>
    obtain ⟨hstored, hidle⟩ := before.isStored
    obtain ⟨-, -, -, -, hbecomes⟩ := runEngine_inv hstored hidle hcall hcommand hids
    exact hstep engine command _ ih hadmits hbecomes
  | reopened before huntouched hopen hhome ih =>
    rw [(isStored_of_reopen before.isStored.1 huntouched hopen hhome).2]
    exact ih
  | copied before hsave hopen ih =>
    rw [(isStored_of_open_saved before.isStored.1 hsave hopen).2]
    exact ih
  | meanwhile _ _ ih => exact ih

end

section

variable {engine : Engine} {disk : Disk}

theorem Reachable.agrees_and_isFindable (h : Reachable FitsKey engine disk) :
    engine.contents.Agrees ∧ engine.contents.IsFindable := by
  refine h.contents_induction (fun contents => contents.Agrees ∧ contents.IsFindable)
    ⟨Contents.agrees_empty, Contents.isFindable_empty⟩ ?_
  rintro engine command after ⟨hagrees, hfindable⟩ hfits hbecomes
  cases hbecomes with
  | same => exact ⟨hagrees, hfindable⟩
  | inserted hinsert =>
    exact ⟨Contents.agrees_insert hagrees hinsert,
      Contents.isFindable_insert hfindable hfits hinsert⟩
  | deleted hdelete =>
    exact ⟨Contents.agrees_delete hagrees hfindable hdelete,
      Contents.isFindable_delete hfindable hdelete⟩

/-- Whatever is called, the manifest and the chunks of an index agree as long as the version keys
are short enough to be indexed, and what was committed last, which an engine that is opened later
reads, is what the engine holds. -/
theorem manifest_agrees_with_chunks (h : Reachable FitsKey engine disk) :
    engine.contents.Agrees ∧
      ∃ commit, disk.readDescription engine.home = .ok commit ∧
        (engine.close disk).readDescription engine.home = .ok commit ∧
        commit.segments = engine.segments ∧
        Manifest.ofCommit? commit = some engine.manifest := by
  obtain ⟨commit, hcommit, hsegments, hmanifest⟩ := h.isStored.1.index.committed
  have hread := Disk.readDescription_eq_ok_iff.2 hcommit
  exact ⟨h.agrees_and_isFindable.1, commit, hread, hread, hsegments, hmanifest⟩

/-- An engine and its disk after two chunks were inserted into a new index. -/
def firstInsertion : Engine × Disk :=
  (Handle.runEngine (newEngine .default, newDisk)
    (.insert ["one", "two"] [.empty, .empty] "a.txt" "a" none)).2

theorem reachable_firstInsertion {admits : Engine → HandleCommand → Prop}
    (hadmits : admits (newEngine .default)
      (.insert ["one", "two"] [.empty, .empty] "a.txt" "a" none)) :
    Reachable admits firstInsertion.1 firstInsertion.2 := by
  have hopened : Reachable admits (newEngine .default) newDisk :=
    .opened (open_empty Settings.opens_default) rfl
  have hcall : Handle.runEngine (newEngine .default, newDisk)
      (.insert ["one", "two"] [.empty, .empty] "a.txt" "a" none) = (.done, firstInsertion) := rfl
  exact .called hopened hadmits (by simp) hcall (by simp)

theorem manifest_agrees_after_firstInsertion :
    Reachable FitsKey firstInsertion.1 firstInsertion.2 ∧
      firstInsertion.1.manifest.nextChunkId = 2 ∧ firstInsertion.1.contents.Agrees := by
  have hfits : FitsKey (newEngine .default)
      (.insert ["one", "two"] [.empty, .empty] "a.txt" "a" none) := by
    intro version hversion
    have hfirst : version = 1 := (Except.ok.inj hversion).symm
    subst hfirst
    decide +kernel
  have hreachable := reachable_firstInsertion hfits
  exact ⟨hreachable, rfl, (manifest_agrees_with_chunks hreachable).1⟩

end

end ChunkStore.Engine
