import ChunkStore.Proofs.Engine.Saving
import ChunkStore.Workspace

/-!
# What a call can do

`runEngine_inv` says once what any call can do to an engine: the engine keeps its place and its stop
words, nothing is left staged, and what it holds becomes what an insertion or a deletion makes of it
or stays.  A call that is refused leaves the engine and the disk as they were.  `runEngine_disk`
says what any call can make of the disk, in whatever state the engine is: it writes files of its
index, or saves, or gives its directory free.
-/

set_option autoImplicit false

namespace ChunkStore

open ChunkStore.Index (Contents)

namespace HandleCommand

/-- Whether a command is to change what the index holds. -/
def isChange : HandleCommand → Bool
  | .insert .. | .delete .. => true
  | _ => false

/-- Whether a command is a query. -/
def isQuery : HandleCommand → Bool
  | .query .. => true
  | _ => false

/-- Whether a command reads or changes the index of its engine and nothing else. -/
def isLocal : HandleCommand → Bool
  | .insert .. | .delete .. | .query .. | .sources | .versionsOf _ => true
  | _ => false

end HandleCommand

/-- What a command can make of the contents of an index. -/
inductive Index.Contents.Becomes (stopWords : List String) (before : Contents) :
    HandleCommand → Contents → Prop where
  | same (command : HandleCommand) : Becomes stopWords before command before
  | inserted {texts : List String} {maps : List Metadata} {document docId : String}
      {requested : Option UInt32} {after : Contents}
      (h : before.insert stopWords texts maps document docId requested = .ok after) :
      Becomes stopWords before (.insert texts maps document docId requested) after
  | deleted {docId : String} {keepLatest : Bool} {after : Contents}
      (h : before.delete docId keepLatest = some after) :
      Becomes stopWords before (.delete docId keepLatest) after

namespace Engine

variable {engine : Engine} {disk : Disk}

theorem settle_inv {after : Contents} {result : Except EngineFault Unit} {engine' : Engine}
    {disk' : Disk} (h : engine.settle after disk = (result, engine', disk')) :
    result = .error .rolledBack ∧ engine' = engine ∧ disk' = disk ∨
      result = .ok () ∧ engine' = engine.withContents after ∧
        disk.publish engine.home engine.segments after.toCommit = .ok disk' := by
  unfold settle at h
  split at h
  · simp only [Prod.mk.injEq] at h
    exact .inl ⟨h.1.symm, h.2.1.symm, h.2.2.symm⟩
  · split at h
    · next published hpublish =>
      simp only [Prod.mk.injEq] at h
      obtain ⟨rfl, rfl, rfl⟩ := h
      exact .inr ⟨rfl, rfl, hpublish⟩
    · simp only [Prod.mk.injEq] at h
      exact .inl ⟨h.1.symm, h.2.1.symm, h.2.2.symm⟩

theorem insert_of_idsExhausted {texts : List String} {maps : List Metadata}
    {document docId : String} {requested : Option UInt32}
    (h : engine.contents.insert engine.stopWords texts maps document docId requested =
      .error .idsExhausted) (disk : Disk) :
    (engine.insert texts maps document docId requested disk).1 = .error .idsExhausted := by
  unfold Contents.insert at h
  unfold insert
  dsimp only at h ⊢
  split
  · next hcount =>
    rw [if_pos hcount] at h
    exact absurd h (by simp)
  · next hcount =>
    rw [if_neg hcount] at h
    cases hversion : engine.manifest.resolveVersion docId requested with
    | error fault =>
      rw [hversion] at h
      exact absurd h (by simp)
    | ok version =>
      rw [hversion] at h
      dsimp only at h ⊢
      split
      · rfl
      · next hroom =>
        rw [if_neg hroom] at h
        exact absurd h (by simp)

/-- An insertion that returns comes out whole or changes nothing. -/
theorem insert_inv (hidle : engine.staged = []) {texts : List String} {maps : List Metadata}
    {document docId : String} {requested : Option UInt32} {result : Except EngineFault Unit}
    {engine' : Engine} {disk' : Disk}
    (h : engine.insert texts maps document docId requested disk = (result, engine', disk'))
    (hids : result ≠ .error .idsExhausted) :
    (∃ fault, result = .error fault) ∧ engine' = engine ∧ disk' = disk ∨
      result = .ok () ∧ ∃ after,
        engine.contents.insert engine.stopWords texts maps document docId requested = .ok after ∧
          engine' = engine.withContents after ∧
          disk.publish engine.home engine.segments after.toCommit = .ok disk' := by
  have hroom : engine.contents.insert engine.stopWords texts maps document docId requested ≠
      .error .idsExhausted := by
    intro hfull
    have hresult := insert_of_idsExhausted hfull disk
    rw [h] at hresult
    exact hids hresult
  rw [insert_eq hidle hroom] at h
  cases hafter : engine.contents.insert engine.stopWords texts maps document docId requested with
  | error fault =>
    simp only [hafter, Prod.mk.injEq] at h
    exact .inl ⟨⟨fault, h.1.symm⟩, h.2.1.symm, h.2.2.symm⟩
  | ok after =>
    simp only [hafter] at h
    rcases settle_inv h with ⟨hresult, hengine, hdisk⟩ | ⟨hresult, hengine, hpublish⟩
    · exact .inl ⟨⟨_, hresult⟩, hengine, hdisk⟩
    · exact .inr ⟨hresult, after, rfl, hengine, hpublish⟩

/-- A deletion comes out whole or changes nothing. -/
theorem delete_inv (hidle : engine.staged = []) {docId : String} {keepLatest : Bool}
    {result : Except EngineFault Unit} {engine' : Engine} {disk' : Disk}
    (h : engine.delete docId keepLatest disk = (result, engine', disk')) :
    engine' = engine ∧ disk' = disk ∨
      result = .ok () ∧ ∃ after, engine.contents.delete docId keepLatest = some after ∧
        engine' = engine.withContents after ∧
        disk.publish engine.home engine.segments after.toCommit = .ok disk' := by
  rw [delete_eq hidle] at h
  cases hafter : engine.contents.delete docId keepLatest with
  | none =>
    simp only [hafter, Prod.mk.injEq] at h
    exact .inl ⟨h.2.1.symm, h.2.2.symm⟩
  | some after =>
    simp only [hafter] at h
    rcases settle_inv h with ⟨-, hengine, hdisk⟩ | ⟨hresult, hengine, hpublish⟩
    · exact .inl ⟨hengine, hdisk⟩
    · exact .inr ⟨hresult, after, rfl, hengine, hpublish⟩

theorem runEngine_query (engine : Engine) (disk : Disk) (text : String) (topK : Nat)
    (constraints : Constraints) :
    (Handle.runEngine (engine, disk) (.query text topK constraints)).2 = (engine, disk) := by
  simp only [Handle.runEngine]
  split <;> rfl

/-- Carrying out a plan writes nothing but files of the index. -/
theorem carryOut_writes (engine : Engine) (disk : Disk) (plan : Plan) :
    disk.WritesFiles engine.home (engine.carryOut disk plan).2.2 := by
  cases plan with
  | answer result => exact .refl _ _
  | strand changes => exact .refl _ _
  | commit changes manifest =>
    unfold Engine.carryOut Engine.commit
    dsimp only
    split
    · exact .refl _ _
    · split
      · next hpublish => exact Disk.writesFiles_publish hpublish
      · exact .refl _ _

theorem carryOut_place (engine : Engine) (disk : Disk) (plan : Plan) :
    (engine.carryOut disk plan).2.1.path = engine.path ∧
      (engine.carryOut disk plan).2.1.home = engine.home ∧
      (engine.carryOut disk plan).2.1.directoryNumber = engine.directoryNumber := by
  cases plan with
  | answer result => exact ⟨rfl, rfl, rfl⟩
  | strand changes => exact ⟨rfl, rfl, rfl⟩
  | commit changes manifest =>
    unfold Engine.carryOut Engine.commit
    dsimp only
    split
    · exact ⟨rfl, rfl, rfl⟩
    · split
      · exact ⟨rfl, rfl, rfl⟩
      · exact ⟨rfl, rfl, rfl⟩

/-- Whatever is called, an engine stays in its place. -/
theorem runEngine_place (engine : Engine) (disk : Disk) (command : HandleCommand) :
    (Handle.runEngine (engine, disk) command).2.1.path = engine.path ∧
      (Handle.runEngine (engine, disk) command).2.1.home = engine.home ∧
      (Handle.runEngine (engine, disk) command).2.1.directoryNumber = engine.directoryNumber := by
  cases command with
  | insert texts maps document docId requested =>
    simp only [Handle.runEngine, insert_eq_carryOut]
    exact carryOut_place engine disk _
  | delete docId keepLatest =>
    simp only [Handle.runEngine, delete_eq_carryOut]
    exact carryOut_place engine disk _
  | query text topK constraints =>
    rw [runEngine_query]
    exact ⟨rfl, rfl, rfl⟩
  | sources | versionsOf | save | path | close => exact ⟨rfl, rfl, rfl⟩

/-- All that a call can make of the disk. -/
theorem runEngine_disk (engine : Engine) (disk : Disk) (command : HandleCommand) :
    disk.WritesFiles engine.home (Handle.runEngine (engine, disk) command).2.2 ∨
      (∃ path, (Handle.runEngine (engine, disk) command).2.2 = (engine.save path disk).2) ∨
      command = .close ∧
        (Handle.runEngine (engine, disk) command).2.2 = engine.close disk := by
  cases command with
  | insert texts maps document docId requested =>
    simp only [Handle.runEngine, insert_eq_carryOut]
    exact .inl (engine.carryOut_writes disk _)
  | delete docId keepLatest =>
    simp only [Handle.runEngine, delete_eq_carryOut]
    exact .inl (engine.carryOut_writes disk _)
  | query text topK constraints =>
    rw [runEngine_query]
    exact .inl (.refl _ _)
  | save path => exact .inr (.inl ⟨path, rfl⟩)
  | close => exact .inr (.inr ⟨rfl, rfl⟩)
  | sources | versionsOf | path => exact .inl (.refl _ _)

theorem trouble_runEngine (state : Engine × Disk) (command : HandleCommand) :
    (Handle.runEngine state command).2.2.trouble = state.2.trouble := by
  obtain ⟨engine, disk⟩ := state
  rcases engine.runEngine_disk disk command with hwrites | ⟨path, hsaved⟩ | ⟨-, hclosed⟩
  · exact hwrites.writes.trouble
  · rw [hsaved]
    exact (save_keeps engine path disk).2.2
  · rw [hclosed]
    rfl

/-- All that a call to an engine can do, as long as the chunk ids do not run out. -/
theorem runEngine_inv (hstored : engine.IsStored disk) (hidle : engine.staged = [])
    {command : HandleCommand} {answer : Answer} {engine' : Engine} {disk' : Disk}
    (h : Handle.runEngine (engine, disk) command = (answer, engine', disk'))
    (hopen : command ≠ .close) (hids : answer ≠ .fault .idsExhausted) :
    engine'.IsStored disk' ∧ engine'.staged = [] ∧ engine'.home = engine.home ∧
      engine'.stopWords = engine.stopWords ∧
      engine.contents.Becomes engine.stopWords command engine'.contents := by
  cases command with
  | insert texts maps document docId requested =>
    have hafter := (hstored.insert texts maps document docId requested).isStored
    cases hinsert : engine.insert texts maps document docId requested disk with
    | mk result state =>
      obtain ⟨engine'', disk''⟩ := state
      simp only [Handle.runEngine, hinsert, Prod.mk.injEq] at h
      obtain ⟨rfl, rfl, rfl⟩ := h
      rw [hinsert] at hafter
      have hreturns : result ≠ .error .idsExhausted := by
        rintro rfl
        exact hids rfl
      rcases insert_inv hidle hinsert hreturns with ⟨-, rfl, rfl⟩ | ⟨-, after, hins, rfl, -⟩
      · exact ⟨hafter, hidle, rfl, rfl, .same _⟩
      · exact ⟨hafter, rfl, rfl, rfl, .inserted hins⟩
  | delete docId keepLatest =>
    have hafter := (hstored.delete docId keepLatest).isStored
    cases hdelete : engine.delete docId keepLatest disk with
    | mk result state =>
      obtain ⟨engine'', disk''⟩ := state
      simp only [Handle.runEngine, hdelete, Prod.mk.injEq] at h
      obtain ⟨rfl, rfl, rfl⟩ := h
      rw [hdelete] at hafter
      rcases delete_inv hidle hdelete with ⟨rfl, rfl⟩ | ⟨-, after, hdel, rfl, -⟩
      · exact ⟨hafter, hidle, rfl, rfl, .same _⟩
      · exact ⟨hafter, rfl, rfl, rfl, .deleted hdel⟩
  | query text topK constraints =>
    have hsame := runEngine_query engine disk text topK constraints
    rw [h] at hsame
    obtain ⟨rfl, rfl⟩ := Prod.mk.inj hsame
    exact ⟨hstored, hidle, rfl, rfl, .same _⟩
  | save path =>
    have huntouched := untouched_save hstored path
    simp only [Handle.runEngine, Prod.mk.injEq] at h
    obtain ⟨-, rfl, rfl⟩ := h
    exact ⟨hstored.of_untouched huntouched, hidle, rfl, rfl, .same _⟩
  | close => exact absurd rfl hopen
  | sources | versionsOf docId | path =>
    simp only [Handle.runEngine, Prod.mk.injEq] at h
    obtain ⟨-, rfl, rfl⟩ := h
    exact ⟨hstored, hidle, rfl, rfl, .same _⟩

theorem IsStored.worksAtHome_runEngine (h : engine.IsStored disk) {command : HandleCommand}
    (hlocal : command.isLocal = true) :
    engine.WorksAtHome disk (Handle.runEngine (engine, disk) command).2.1
      (Handle.runEngine (engine, disk) command).2.2 := by
  cases command with
  | insert texts maps document docId requested =>
    exact h.insert texts maps document docId requested
  | delete docId keepLatest => exact h.delete docId keepLatest
  | query text topK constraints =>
    rw [runEngine_query]
    exact h.worksAtHome engine.staged
  | sources | versionsOf docId => exact h.worksAtHome engine.staged
  | save | path | close => exact absurd hlocal (by simp [HandleCommand.isLocal])

/-- Whatever is staged, a call that does not close an engine leaves it stored, with its stop
words. -/
theorem IsStored.runEngine (h : engine.IsStored disk) {command : HandleCommand}
    (hcommand : command ≠ .close) :
    (Handle.runEngine (engine, disk) command).2.1.IsStored
        (Handle.runEngine (engine, disk) command).2.2 ∧
      (Handle.runEngine (engine, disk) command).2.1.stopWords = engine.stopWords := by
  cases hlocal : command.isLocal with
  | true =>
    have hworks := h.worksAtHome_runEngine hlocal
    exact ⟨hworks.isStored, hworks.stopWords⟩
  | false =>
    cases command with
    | save path => exact ⟨h.of_untouched (Engine.untouched_save h path), rfl⟩
    | path => exact ⟨h, rfl⟩
    | close => exact absurd rfl hcommand
    | insert | delete | query | sources | versionsOf =>
      exact absurd hlocal (by simp [HandleCommand.isLocal])

end Engine

end ChunkStore
