import ChunkStore.Proofs.Engine.FailedOpening
import ChunkStore.Proofs.Engine.Reachable
import ChunkStore.Proofs.Workspace.Runs
import ChunkStore.Proofs.Workspace.Surfaces

/-!
# One engine to a directory

An engine holds its directory from its opening to its end, and a directory that is held cannot be
opened.  So however a workspace is used, no two of its engines hold the same directory; and as long
as no directory is removed, no two of them are at the same place.
-/

set_option autoImplicit false

namespace ChunkStore

namespace Disk

/-- Directories are held as before. -/
def SameHeld (before after : Disk) : Prop :=
  after.held = before.held

/-- Directories are held as before and stay where they are. -/
structure Calm (before after : Disk) : Prop where
  held : before.SameHeld after
  keepsDirectories : before.KeepsDirectories after

variable {disk after third : Disk}

theorem Calm.refl (disk : Disk) : disk.Calm disk :=
  ⟨rfl, fun _ _ _ h => h⟩

theorem Calm.trans (h : disk.Calm after) (h' : after.Calm third) : disk.Calm third where
  held := h'.held.trans h.held
  keepsDirectories := fun location number hnamed hnode =>
    h'.keepsDirectories location number hnamed (h.keepsDirectories location number hnamed hnode)

theorem GainsDirectories.calm (h : disk.GainsDirectories after) : disk.Calm after :=
  ⟨h.held, h.keepsDirectories⟩

theorem WritesIndex.calm {home : Location} (h : disk.WritesIndex home after) : disk.Calm after :=
  ⟨h.held, h.keepsDirectories⟩

theorem FailedOpening.calm (h : disk.FailedOpening after) : disk.Calm after :=
  ⟨h.leavesBehind.held, h.leavesBehind.keepsDirectories⟩

theorem calm_of_write {location : Location} {node : Node}
    (h : disk.write location node = .ok after) : disk.Calm after := by
  obtain ⟨rfl, -, hnode⟩ := write_inv h
  refine ⟨rfl, fun other number _ hdirectory => ?_⟩
  have hne : other ≠ location := by
    rintro rfl
    exact hnode number hdirectory
  rw [nodes_put_of_ne disk node hne, hdirectory]

theorem calm_attempt {result : Except DiskFault Disk} (h : ∀ after, result = .ok after →
    disk.Calm after) : disk.Calm (disk.attempt result) := by
  cases result with
  | ok after => exact h after rfl
  | error fault => exact .refl disk

theorem calm_attempt_publish (disk : Disk) (home : Location) (known : List Index.Segment)
    (commit : Commit) : disk.Calm (disk.attempt (disk.publish home known commit)) :=
  calm_attempt fun _ hpublish => (publish_inv hpublish).1.calm

theorem calm_makeDir (disk : Disk) (path : String) : disk.Calm (disk.makeDir path) :=
  (gainsDirectories_makeDirectories disk (.ofText path)).calm

end Disk

namespace FileCommand

/-- Whether work on files is to remove something. -/
def isRemoval : FileCommand → Bool
  | .remove _ => true
  | _ => false

theorem sameHeld_run (disk : Disk) (path : String) :
    disk.SameHeld ((FileCommand.remove path).run disk).2 := by
  unfold FileCommand.run Disk.remove Disk.SameHeld
  dsimp only
  split <;> rfl

/-- Work on files that removes nothing keeps the directories. -/
theorem calm_run (disk : Disk) {command : FileCommand} (h : command.isRemoval = false) :
    disk.Calm (command.run disk).2 := by
  cases command with
  | remove path => exact absurd h (by simp [isRemoval])
  | «exists» path | manifestText path => exact .refl disk
  | write path content =>
    unfold FileCommand.run Disk.writeText
    dsimp only
    split
    · exact Disk.calm_attempt fun _ hwrite => Disk.calm_of_write hwrite
    · exact .refl disk
  | makeDirectory path => exact disk.calm_makeDir path
  | setManifestText path text =>
    unfold FileCommand.run Disk.setManifestText
    dsimp only
    split
    · exact disk.calm_attempt_publish _ _ _
    · exact .refl disk
  | makeForeignIndex path =>
    have hmade := disk.calm_makeDir path
    unfold FileCommand.run Disk.makeForeignIndex
    dsimp only
    split
    · exact hmade.trans (Disk.calm_attempt fun _ hwrite => Disk.calm_of_write hwrite)
    · exact hmade
  | addRecord path record =>
    unfold FileCommand.run Disk.addEntry
    dsimp only
    split
    · exact disk.calm_attempt_publish _ _ _
    · exact .refl disk

end FileCommand

/-- A call that does not close an engine keeps the directories and who holds them. -/
theorem Engine.calm_runEngine (engine : Engine) (disk : Disk) {command : HandleCommand}
    (hcommand : command ≠ .close) : disk.Calm (Handle.runEngine (engine, disk) command).2.2 := by
  rcases engine.runEngine_disk disk command with hwrites | ⟨path, hsaved⟩ | ⟨hclose, -⟩
  · exact hwrites.writes.calm
  · rw [hsaved]
    obtain ⟨hkeeps, hheld, -⟩ := save_keeps engine path disk
    exact ⟨hheld, hkeeps⟩
  · exact absurd hclose hcommand

namespace Workspace

variable {workspace before after : Workspace}

/-- All that a command can make of a workspace: the disk is touched, an engine is opened, one is
called, or one is closed.  How the disk may be touched, `touched` says. -/
inductive Becomes (touched : Disk → Disk → Prop) (before : Workspace) : Workspace → Prop where
  | quiet {disk : Disk} (h : touched before.disk disk) :
      Becomes touched before { before with disk }
  | opened {name path : String} {surface : Surface} {settings : Settings} {engine : Engine}
      {disk : Disk} (h : Engine.open path settings before.disk = (.ok engine, disk)) :
      Becomes touched before (before.install name ⟨surface, engine⟩ disk)
  | called {name : String} {handle : Handle} {engine : Engine} {disk : Disk}
      (hfind : before.handles.find? name = some handle)
      (hpath : engine.path = handle.engine.path)
      (hnumber : engine.directoryNumber = handle.engine.directoryNumber)
      (hhome : engine.home = handle.engine.home) (h : touched before.disk disk) :
      Becomes touched before
        { before with disk, handles := before.handles.insert name { handle with engine } }
  | closed {name : String} {handle : Handle}
      (hfind : before.handles.find? name = some handle) :
      Becomes touched before
        { before with
          disk := handle.engine.close before.disk, handles := before.handles.erase name }

theorem Becomes.mono {touched touched' : Disk → Disk → Prop} (h : Becomes touched before after)
    (hmono : ∀ disk disk', touched disk disk' → touched' disk disk') :
    Becomes touched' before after := by
  cases h with
  | quiet h => exact .quiet (hmono _ _ h)
  | opened h => exact .opened h
  | called hfind hpath hnumber hhome h => exact .called hfind hpath hnumber hhome (hmono _ _ h)
  | closed hfind => exact .closed hfind

end Workspace

namespace Command

/-- Whether a command is to remove files or directories. -/
def isRemoval : Command → Bool
  | .file command => command.isRemoval
  | _ => false

end Command

namespace Workspace

variable {workspace before after : Workspace}

/-- What a call makes of a workspace, to whichever engine it is. -/
theorem becomes_step_on (workspace : Workspace) (name : String) (command : HandleCommand) :
    Becomes Disk.Calm workspace (workspace.step (.on name command)).2 := by
  unfold step
  dsimp only
  cases hfind : workspace.handles.find? name with
  | none => exact .quiet (.refl workspace.disk)
  | some handle =>
    by_cases hclose : command = .close
    · subst hclose
      obtain ⟨surface, engine⟩ := handle
      cases surface with
      | database => exact .closed hfind
      | engine => exact .closed hfind
    · obtain ⟨hstate, -⟩ := handle.run_passOn workspace.disk command
      have hcalm := handle.engine.calm_runEngine workspace.disk
        (handle.surface.passOn_ne_close hclose)
      obtain ⟨hpath, hhome, hnumber⟩ := handle.engine.runEngine_place workspace.disk
        (handle.surface.passOn command)
      cases hrun : handle.run workspace.disk command with
      | mk answer state =>
        obtain ⟨engine, disk⟩ := state
        rw [hrun] at hstate
        rw [← hstate] at hcalm hpath hhome hnumber
        simp only [hrun]
        cases command with
        | close => exact absurd rfl hclose
        | _ => exact .called hfind hpath hnumber hhome hcalm

/-- What a command that removes nothing makes of a workspace. -/
theorem becomes_step (workspace : Workspace) {command : Command} (h : command.isRemoval = false) :
    Becomes Disk.Calm workspace (workspace.step command).2 := by
  cases command with
  | openDatabase name path =>
    unfold step
    dsimp only
    split
    · next hopen => exact .quiet (Disk.FailedOpening.database hopen).calm
    · next hopen =>
      obtain ⟨settings, hopen⟩ := Database.open_of_open hopen
      exact .opened hopen
  | openEngine name path settings =>
    cases settings with
    | some settings =>
      unfold step
      dsimp only
      split
      · next hopen => exact .quiet (Disk.FailedOpening.engine hopen).calm
      · next hopen => exact .opened hopen
    | none =>
      unfold step
      dsimp only
      split
      · next hopen => exact .quiet (Disk.FailedOpening.configured hopen).calm
      · next hopen =>
        obtain ⟨settings, hopen⟩ := Engine.open_of_openConfigured hopen
        exact .opened hopen
  | on name command => exact workspace.becomes_step_on name command
  | file command => exact .quiet (FileCommand.calm_run workspace.disk h)

/-! ### Who holds what -/

/-- Every engine holds its directory, and no two engines hold the same one. -/
structure HoldApart (workspace : Workspace) : Prop where
  held : ∀ name handle, workspace.handles.find? name = some handle →
    handle.engine.directoryNumber ∈ workspace.disk.held
  apart : ∀ name name' handle handle', workspace.handles.find? name = some handle →
    workspace.handles.find? name' = some handle' → name ≠ name' →
      handle.engine.directoryNumber ≠ handle'.engine.directoryNumber

/-- Every engine is in the directory that it holds. -/
def AtHome (workspace : Workspace) : Prop :=
  ∀ name handle, workspace.handles.find? name = some handle → handle.engine.home.IsNamed ∧
    workspace.disk.nodes handle.engine.home = some (.directory handle.engine.directoryNumber)

theorem held_install (workspace : Workspace) (name : String) (handle : Handle) (disk : Disk) :
    (workspace.install name handle disk).disk.held = match workspace.handles.find? name with
      | some older => disk.held.erase older.engine.directoryNumber
      | none => disk.held := by
  unfold install
  cases workspace.handles.find? name <;> rfl

theorem nodes_install (workspace : Workspace) (name : String) (handle : Handle) (disk : Disk) :
    (workspace.install name handle disk).disk.nodes = disk.nodes := by
  unfold install
  cases workspace.handles.find? name <;> rfl

theorem find?_install (workspace : Workspace) (name : String) (handle : Handle) (disk : Disk)
    (other : String) : (workspace.install name handle disk).handles.find? other =
      if other = name then some handle else workspace.handles.find? other :=
  Dict.find?_insert _ _ _ _

/-- A name is opened under whose engine, if there was one, gives its own directory free and no
other. -/
theorem HoldApart.install (h : workspace.HoldApart) {name path : String} {surface : Surface}
    {settings : Settings} {engine : Engine} {disk : Disk}
    (hopen : Engine.open path settings workspace.disk = (.ok engine, disk)) :
    (workspace.install name ⟨surface, engine⟩ disk).HoldApart := by
  obtain ⟨hfree, hheld, -⟩ := Engine.held_of_open hopen
  have hnew : ∀ other handle, workspace.handles.find? other = some handle →
      handle.engine.directoryNumber ≠ engine.directoryNumber := by
    intro other handle hfind heq
    exact hfree (heq ▸ h.held other handle hfind)
  have hstays : ∀ number ∈ disk.held, (∀ older, workspace.handles.find? name = some older →
      number ≠ older.engine.directoryNumber) →
        number ∈ (workspace.install name ⟨surface, engine⟩ disk).disk.held := by
    intro number hnumber holder
    rw [held_install]
    split
    · next older hfind => exact (List.mem_erase_of_ne (holder older hfind)).2 hnumber
    · exact hnumber
  constructor
  · intro other handle hfind
    rw [find?_install] at hfind
    split at hfind
    · obtain rfl := Option.some.inj hfind
      apply hstays
      · rw [hheld]
        exact List.mem_cons_self
      · exact fun older hfound => (hnew name older hfound).symm
    · next hother =>
      apply hstays
      · rw [hheld]
        exact List.mem_cons_of_mem _ (h.held other handle hfind)
      · exact fun older hfound => h.apart other name handle older hfind hfound hother
  · intro first second handle handle' hfind hfind' hne
    rw [find?_install] at hfind hfind'
    split at hfind
    · next hfirst =>
      obtain rfl := Option.some.inj hfind
      rw [if_neg fun hsecond => hne (hfirst.trans hsecond.symm)] at hfind'
      exact (hnew second handle' hfind').symm
    · split at hfind'
      · obtain rfl := Option.some.inj hfind'
        exact hnew first handle hfind
      · exact h.apart first second handle handle' hfind hfind' hne

/-- The engine that was called goes on under its name with its number. -/
theorem HoldApart.called (h : workspace.HoldApart) {name : String} {handle : Handle}
    {engine : Engine} {disk : Disk} (hfind : workspace.handles.find? name = some handle)
    (hnumber : engine.directoryNumber = handle.engine.directoryNumber)
    (hheld : workspace.disk.SameHeld disk) :
    HoldApart { workspace with
      disk, handles := workspace.handles.insert name { handle with engine } } := by
  have hnumbers : ∀ other found,
      (workspace.handles.insert name { handle with engine }).find? other = some found →
        ∃ handle', workspace.handles.find? other = some handle' ∧
          found.engine.directoryNumber = handle'.engine.directoryNumber := by
    intro other found hfound
    rw [Dict.find?_insert] at hfound
    split at hfound
    · next hother =>
      obtain rfl := Option.some.inj hfound
      exact ⟨handle, hother ▸ hfind, hnumber⟩
    · exact ⟨found, hfound, rfl⟩
  constructor
  · intro other found hfound
    obtain ⟨handle', hfind', heq⟩ := hnumbers other found hfound
    show found.engine.directoryNumber ∈ disk.held
    rw [heq, hheld]
    exact h.held other handle' hfind'
  · intro first second found found' hfound hfound' hne
    obtain ⟨handle', hfind', heq⟩ := hnumbers first found hfound
    obtain ⟨handle'', hfind'', heq'⟩ := hnumbers second found' hfound'
    rw [heq, heq']
    exact h.apart first second handle' handle'' hfind' hfind'' hne

/-- An engine that is closed gives its own directory free and no other. -/
theorem HoldApart.closed (h : workspace.HoldApart) {name : String} {handle : Handle}
    (hfind : workspace.handles.find? name = some handle) :
    HoldApart { workspace with
      disk := handle.engine.close workspace.disk, handles := workspace.handles.erase name } := by
  have hothers : ∀ other found, (workspace.handles.erase name).find? other = some found →
      other ≠ name ∧ workspace.handles.find? other = some found := by
    intro other found hfound
    rw [Dict.find?_erase] at hfound
    split at hfound
    · exact absurd hfound (by simp)
    · next hother => exact ⟨hother, hfound⟩
  constructor
  · intro other found hfound
    obtain ⟨hother, hfound⟩ := hothers other found hfound
    exact (List.mem_erase_of_ne (h.apart other name found handle hfound hfind hother)).2
      (h.held other found hfound)
  · intro first second found found' hfound hfound' hne
    exact h.apart first second found found' (hothers first found hfound).2
      (hothers second found' hfound').2 hne

theorem HoldApart.becomes (h : before.HoldApart) (hbecomes : Becomes Disk.SameHeld before after) :
    after.HoldApart := by
  cases hbecomes with
  | quiet htouched =>
    refine ⟨fun name handle hfind => ?_, h.apart⟩
    show handle.engine.directoryNumber ∈ _
    rw [htouched]
    exact h.held name handle hfind
  | opened hopen => exact h.install hopen
  | called hfind hpath hnumber hhome htouched => exact h.called hfind hnumber htouched
  | closed hfind => exact h.closed hfind

theorem AtHome.becomes (h : before.AtHome) (hbecomes : Becomes Disk.Calm before after) :
    after.AtHome := by
  intro other found hfound
  cases hbecomes with
  | quiet hcalm =>
    obtain ⟨hnamed, hnode⟩ := h other found hfound
    exact ⟨hnamed, hcalm.keepsDirectories _ _ hnamed hnode⟩
  | opened hopen =>
    obtain ⟨-, -, hhome, hkeeps, hdestination⟩ := Engine.held_of_open hopen
    rw [nodes_install]
    rw [find?_install] at hfound
    split at hfound
    · obtain rfl := Option.some.inj hfound
      exact ⟨hdestination ▸ Path.isNamed_destination _, hhome⟩
    · obtain ⟨hnamed, hnode⟩ := h other found hfound
      exact ⟨hnamed, hkeeps _ _ hnamed hnode⟩
  | @called name handle engine disk hfind hpath hnumber hhome hcalm =>
    rw [Dict.find?_insert] at hfound
    split at hfound
    · obtain rfl := Option.some.inj hfound
      obtain ⟨hnamed, hnode⟩ := h name handle hfind
      dsimp only
      rw [hhome, hnumber]
      exact ⟨hnamed, hcalm.keepsDirectories _ _ hnamed hnode⟩
    · obtain ⟨hnamed, hnode⟩ := h other found hfound
      exact ⟨hnamed, hcalm.keepsDirectories _ _ hnamed hnode⟩
  | closed hfind =>
    rw [Dict.find?_erase] at hfound
    split at hfound
    · exact absurd hfound (by simp)
    · exact h other found hfound

/-- Engines that hold different directories and are in the directories that they hold are in
different places. -/
theorem HoldApart.home_ne (h : workspace.HoldApart) (hhome : workspace.AtHome)
    {name name' : String} {handle handle' : Handle}
    (hfind : workspace.handles.find? name = some handle)
    (hfind' : workspace.handles.find? name' = some handle') (hne : name ≠ name') :
    handle.engine.home ≠ handle'.engine.home := by
  intro heq
  obtain ⟨-, hnode⟩ := hhome name handle hfind
  obtain ⟨-, hnode'⟩ := hhome name' handle' hfind'
  rw [heq, hnode'] at hnode
  exact h.apart name name' handle handle' hfind hfind' hne
    (Node.directory.inj (Option.some.inj hnode)).symm

/-! ### Runs -/

/-- What an event makes of a workspace. -/
def take (workspace : Workspace) : Event → Workspace
  | .command command => (workspace.step command).2
  | .outside change => { workspace with disk := change workspace.disk }

/-- What every event keeps, a run keeps. -/
theorem run_induction {holds : Workspace → Prop} {events : List Event}
    (hevents : ∀ event ∈ events, ∀ workspace, holds workspace → holds (workspace.take event))
    {start : Workspace} (hstart : holds start) : holds (start.run events).2 := by
  induction events generalizing start with
  | nil => exact hstart
  | cons event events ih =>
    obtain ⟨hevent, hrest⟩ := List.forall_mem_cons.1 hevents
    have hnext := ih hrest (hevent start hstart)
    cases event with
    | command command => exact hnext
    | outside change => exact hnext

namespace Event

/-- Whether an event leaves it to the engines who holds directories. -/
def KeepsHeld : Event → Prop
  | .command _ => True
  | .outside change => ∀ disk : Disk, disk.SameHeld (change disk)

/-- Whether an event also removes no directories. -/
def IsCalm : Event → Prop
  | .command done => done.isRemoval = false
  | .outside change => ∀ disk : Disk, disk.Calm (change disk)

end Event

theorem becomes_take {event : Event} (h : event.IsCalm) (workspace : Workspace) :
    Becomes Disk.Calm workspace (workspace.take event) := by
  cases event with
  | command command => exact workspace.becomes_step h
  | outside change => exact .quiet (h workspace.disk)

theorem becomes_take_of_keepsHeld {event : Event} (h : event.KeepsHeld) (workspace : Workspace) :
    Becomes Disk.SameHeld workspace (workspace.take event) := by
  cases event with
  | command command =>
    cases hremoval : command.isRemoval with
    | false => exact (workspace.becomes_step hremoval).mono fun _ _ hcalm => hcalm.held
    | true =>
      cases command with
      | file command =>
        cases command with
        | remove path => exact .quiet (FileCommand.sameHeld_run workspace.disk path)
        | _ => exact absurd hremoval (by simp [Command.isRemoval, FileCommand.isRemoval])
      | _ => exact absurd hremoval (by simp [Command.isRemoval])
  | outside change => exact .quiet (h workspace.disk)

theorem HoldApart.run (h : workspace.HoldApart) {events : List Event}
    (hevents : ∀ event ∈ events, event.KeepsHeld) : (workspace.run events).2.HoldApart :=
  run_induction (fun event hmem current hcurrent =>
    hcurrent.becomes (becomes_take_of_keepsHeld (hevents event hmem) current)) h

theorem AtHome.run (h : workspace.AtHome) {events : List Event}
    (hevents : ∀ event ∈ events, event.IsCalm) : (workspace.run events).2.AtHome :=
  run_induction (fun event hmem current hcurrent =>
    hcurrent.becomes (becomes_take (hevents event hmem) current)) h

/-- A disk with an index in the working directory, whose engine is open, and a file beside it. -/
def blocked : Disk :=
  ((FileCommand.write "f" "x").run Engine.firstInsertion.2).2

/-- Inserts a chunk. -/
def insertion (name : String) : Command :=
  .on name (.insert ["one"] [.empty] "a.txt" "a" none)

end Workspace

end ChunkStore
