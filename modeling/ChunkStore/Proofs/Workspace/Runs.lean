import ChunkStore.Proofs.Engine.Calls
import ChunkStore.Proofs.Engine.Searching

/-!
# Runs of a workspace

A run is a list of events: commands, and changes of the disk behind the back of the engines, its
failures included.  As long as no insertion runs out of chunk ids, no engine has anything staged
between two events.
-/

set_option autoImplicit false

namespace ChunkStore

namespace Answer

/-- Whether an answer says that a call failed. -/
def IsError : Answer → Prop
  | .failure _ | .fault _ => True
  | _ => False

/-- Whether an answer says that there were no chunk ids left. -/
def IsOutOfIds (answer : Answer) : Prop :=
  answer = .fault .idsExhausted ∨ answer = .failure (.insert EngineFault.idsExhausted.message)

end Answer

namespace Engine

variable {engine engine' : Engine} {disk disk' : Disk} {result : Except EngineFault Unit}

/-- A call with this result either failed and changed nothing, or is done with nothing staged. -/
def FailedOrDone (engine : Engine) (disk : Disk) (result : Except EngineFault Unit)
    (engine' : Engine) (disk' : Disk) : Prop :=
  (∃ fault, result = .error fault) ∧ engine' = engine ∧ disk' = disk ∨
    result = .ok () ∧ engine'.staged = []

theorem failedOrDone_insert (hidle : engine.staged = []) {texts : List String}
    {maps : List Metadata} {document docId : String} {requested : Option UInt32}
    (h : engine.insert texts maps document docId requested disk = (result, engine', disk'))
    (hids : result ≠ .error .idsExhausted) : engine.FailedOrDone disk result engine' disk' := by
  rcases insert_inv hidle h hids with hfailed | ⟨hok, after, -, rfl, -⟩
  · exact .inl hfailed
  · exact .inr ⟨hok, rfl⟩

theorem failedOrDone_delete (hidle : engine.staged = []) {docId : String} {keepLatest : Bool}
    (h : engine.delete docId keepLatest disk = (result, engine', disk')) :
    engine.FailedOrDone disk result engine' disk' := by
  rcases delete_inv hidle h with ⟨rfl, rfl⟩ | ⟨hok, after, -, rfl, -⟩
  · cases result with
    | ok => exact .inr ⟨rfl, hidle⟩
    | error fault => exact .inl ⟨⟨fault, rfl⟩, rfl, rfl⟩
  · exact .inr ⟨hok, rfl⟩

end Engine

namespace Handle

variable {handle : Handle} {disk disk' : Disk} {answer : Answer} {engine' : Engine}

/-- A call that is to change an index fails and changes nothing, or is done with nothing staged. -/
theorem run_change (hidle : handle.engine.staged = []) {command : HandleCommand}
    (hchange : command.isChange = true)
    (h : handle.run disk command = (answer, engine', disk')) (hids : ¬answer.IsOutOfIds) :
    answer.IsError ∧ engine' = handle.engine ∧ disk' = disk ∨
      answer = .done ∧ engine'.staged = [] := by
  obtain ⟨surface, engine⟩ := handle
  have hanswer : ∃ result, engine.FailedOrDone disk result engine' disk' ∧
      (answer = .ofFallible result ∨ answer = .ofFailable
        ((result.mapError EngineFault.message).mapError .insert) ∨ answer = .ofFailable
        ((result.mapError EngineFault.message).mapError .delete)) := by
    cases command with
    | insert texts maps document docId requested =>
      cases surface with
      | engine =>
        cases hinsert : engine.insert texts maps document docId requested disk with
        | mk result state =>
          simp only [run, runEngine, hinsert, Prod.mk.injEq] at h
          obtain ⟨rfl, rfl⟩ := h
          refine ⟨result, Engine.failedOrDone_insert hidle hinsert ?_, .inl rfl⟩
          rintro rfl
          exact hids (.inl rfl)
      | database =>
        generalize hdocument : documentOf texts maps document docId requested = draft at h
        cases hinsert : engine.insert draft.texts draft.metadata draft.name draft.docId
            draft.version disk with
        | mk result state =>
          simp only [run, runDatabase, hdocument, Database.insert, Retrieval.insert, hinsert,
            Prod.mk.injEq] at h
          obtain ⟨rfl, rfl, rfl⟩ := h
          refine ⟨result, Engine.failedOrDone_insert hidle hinsert ?_, .inr (.inl rfl)⟩
          rintro rfl
          exact hids (.inr rfl)
    | delete docId keepLatest =>
      cases hdelete : engine.delete docId keepLatest disk with
      | mk result state =>
        cases surface with
        | engine =>
          simp only [run, runEngine, hdelete, Prod.mk.injEq] at h
          obtain ⟨rfl, rfl⟩ := h
          exact ⟨result, Engine.failedOrDone_delete hidle hdelete, .inl rfl⟩
        | database =>
          simp only [run, runDatabase, Database.delete, Retrieval.delete, hdelete,
            Prod.mk.injEq] at h
          obtain ⟨rfl, rfl, rfl⟩ := h
          exact ⟨result, Engine.failedOrDone_delete hidle hdelete, .inr (.inr rfl)⟩
    | _ => exact absurd hchange (by simp [HandleCommand.isChange])
  obtain ⟨result, ⟨⟨fault, rfl, -⟩, hsame⟩ | ⟨rfl, hstaged⟩, hkind⟩ := hanswer
  · refine .inl ⟨?_, hsame⟩
    rcases hkind with rfl | rfl | rfl <;> trivial
  · refine .inr ⟨?_, hstaged⟩
    rcases hkind with rfl | rfl | rfl <;> rfl

/-- Any other call leaves the engine as it is. -/
theorem run_other {command : HandleCommand} (hchange : command.isChange = false)
    (h : handle.run disk command = (answer, engine', disk')) : engine' = handle.engine := by
  obtain ⟨surface, engine⟩ := handle
  cases command with
  | insert => exact absurd hchange (by simp [HandleCommand.isChange])
  | delete => exact absurd hchange (by simp [HandleCommand.isChange])
  | query text topK constraints =>
    cases surface with
    | engine =>
      simp only [run, runEngine] at h
      split at h <;> exact (Prod.mk.inj (Prod.mk.inj h).2).1.symm
    | database =>
      have hsame := Database.query_state text topK constraints (engine, disk)
      simp only [run, runDatabase] at h
      split at h
      all_goals
        next hquery =>
        rw [hquery] at hsame
        rw [← (Prod.mk.inj (Prod.mk.inj h).2).1]
        exact congrArg Prod.fst hsame
  | _ => cases surface <;> exact (Prod.mk.inj (Prod.mk.inj h).2).1.symm

end Handle

namespace Workspace

/-- What happens to a workspace: a command, or something that changes the disk from outside. -/
inductive Event where
  | command (command : Command)
  | outside (change : Disk → Disk)

/-- Events one after another, with the answers to the commands. -/
def run (workspace : Workspace) : List Event → List Answer × Workspace
  | [] => ([], workspace)
  | .command command :: rest =>
    let (answer, after) := workspace.step command
    let (answers, final) := run after rest
    (answer :: answers, final)
  | .outside change :: rest => run { workspace with disk := change workspace.disk } rest

/-- Nothing is staged in any engine. -/
def IsIdle (workspace : Workspace) : Prop :=
  ∀ name handle, workspace.handles.find? name = some handle → handle.engine.staged = []

variable {workspace : Workspace}

theorem run_append (workspace : Workspace) (before later : List Event) :
    workspace.run (before ++ later) =
      ((workspace.run before).1 ++ ((workspace.run before).2.run later).1,
        ((workspace.run before).2.run later).2) := by
  induction before generalizing workspace with
  | nil => rfl
  | cons event before ih =>
    cases event with
    | command command =>
      simp only [List.cons_append, run]
      rw [ih]
    | outside change =>
      simp only [List.cons_append, run]
      rw [ih]

theorem IsIdle.insert {disk : Disk} {name : String} {handle : Handle} (h : workspace.IsIdle)
    (hhandle : handle.engine.staged = []) :
    IsIdle { workspace with disk, handles := workspace.handles.insert name handle } := by
  intro other found hfound
  simp only [Dict.find?_insert] at hfound
  split at hfound
  · rw [← Option.some.inj hfound]
    exact hhandle
  · exact h other found hfound

theorem IsIdle.install {disk after : Disk} {path name : String} {settings : Settings}
    {engine : Engine} (h : workspace.IsIdle)
    (hopen : Engine.open path settings disk = (.ok engine, after)) (surface : Surface) :
    (workspace.install name ⟨surface, engine⟩ after).IsIdle :=
  h.insert (Engine.staged_of_open hopen)

theorem IsIdle.step (h : workspace.IsIdle) {command : Command}
    (hids : ¬(workspace.step command).1.IsOutOfIds) : (workspace.step command).2.IsIdle := by
  cases command with
  | openDatabase name path =>
    unfold Workspace.step
    dsimp only
    split
    · exact h
    · next hopen =>
      obtain ⟨settings, hopen⟩ := Database.open_of_open hopen
      exact h.install hopen .database
  | openEngine name path settings =>
    unfold Workspace.step
    dsimp only
    split
    · exact h
    · next hopen =>
      cases settings with
      | some settings => exact h.install hopen .engine
      | none =>
        obtain ⟨settings, hopen⟩ := Engine.open_of_openConfigured hopen
        exact h.install hopen .engine
  | on name command =>
    unfold Workspace.step at hids ⊢
    dsimp only at hids ⊢
    cases hfind : workspace.handles.find? name with
    | none => exact h
    | some handle =>
      simp only [hfind] at hids ⊢
      cases hrun : handle.run workspace.disk command with
      | mk answer state =>
        obtain ⟨engine, disk⟩ := state
        have hidle := h name handle hfind
        have hafter : engine.staged = [] := by
          cases hchange : command.isChange with
          | true =>
            rw [hrun] at hids
            rcases Handle.run_change hidle hchange hrun hids with ⟨-, rfl, -⟩ | ⟨-, hstaged⟩
            · exact hidle
            · exact hstaged
          | false => rw [Handle.run_other hchange hrun, hidle]
        simp only
        split
        · intro other found hfound
          simp only [Dict.find?_erase] at hfound
          split at hfound
          · exact absurd hfound (by simp)
          · exact h other found hfound
        · exact h.insert hafter
  | file command => exact h

theorem IsIdle.run {events : List Event} (h : workspace.IsIdle)
    (hids : ∀ answer ∈ (workspace.run events).1, ¬answer.IsOutOfIds) :
    (workspace.run events).2.IsIdle := by
  induction events generalizing workspace with
  | nil => exact h
  | cons event events ih =>
    cases event with
    | command command =>
      simp only [Workspace.run, List.forall_mem_cons] at hids ⊢
      exact ih (h.step hids.1) hids.2
    | outside change =>
      have hchanged : IsIdle { workspace with disk := change workspace.disk } := h
      exact ih hchanged hids

end Workspace

end ChunkStore
