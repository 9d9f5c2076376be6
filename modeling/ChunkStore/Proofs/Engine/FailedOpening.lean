import ChunkStore.Proofs.Engine.LocalCalls

/-!
# Openings that fail

An opening goes through many steps, and what the first ones made stays also if a later one fails:
directories, and an empty index where none was.  An index that was there is not touched by any of
them, so it is found by every later opening as before, and the engines that are open on such indexes
answer as before, whatever they are called for.  Only a save can come upon what was left behind.
-/

set_option autoImplicit false

namespace ChunkStore

open ChunkStore.Index (Manifest)

namespace Disk

/-- There is an index in a directory, whatever its description says. -/
structure HasIndex (disk : Disk) (home : Location) : Prop where
  isNamed : home.IsNamed
  directory : ∃ number, disk.nodes home = some (.directory number)
  description : disk.nodes (descriptionOf home) ≠ none

variable {disk after first second : Disk} {home there : Location}

theorem HasIndex.of_sameIndex (h : disk.HasIndex home) (hsame : disk.SameIndex home after) :
    after.HasIndex home where
  isNamed := h.isNamed
  directory := by rw [hsame.directory]; exact h.directory
  description := by rw [hsame.description]; exact h.description

theorem HasIndex.gainsDirectories (h : disk.HasIndex home) (hgains : disk.GainsDirectories after) :
    disk.SameIndex home after := by
  obtain ⟨number, hnode⟩ := h.directory
  exact hgains.sameIndex (by rw [hnode]; simp) h.description

theorem HasIndex.writesIndex (h : disk.HasIndex home) (hwrites : disk.WritesIndex there after)
    (hother : there ≠ home) : disk.SameIndex home after := by
  obtain ⟨number, hnode⟩ := h.directory
  exact hwrites.sameIndex hother h.isNamed hnode

/-! ### What is left behind -/

/-- A disk after an opening that failed. -/
inductive FailedOpening (disk : Disk) : Disk → Prop where
  | engine {path : String} {settings : Settings} {fault : EngineFault} {after : Disk}
      (h : Engine.open path settings disk = (.error fault, after)) : FailedOpening disk after
  | configured {path : String} {environment : List (String × String)} {fault : EngineFault}
      {after : Disk} (h : Engine.openConfigured path environment disk = (.error fault, after)) :
      FailedOpening disk after
  | database {path : String} {environment : List (String × String)} {failure : Failure}
      {after : Disk} (h : Database.open path environment disk = (.error failure, after)) :
      FailedOpening disk after

/-- An empty index is made where none is, or nothing is done. -/
theorem loadOrCreate_leaves (disk : Disk) (home : Location) :
    (disk.loadOrCreate home).2 = disk ∨ disk.nodes (descriptionOf home) = none ∧
      disk.publish home [] ⟨[], none⟩ = .ok (disk.loadOrCreate home).2 := by
  unfold loadOrCreate
  split
  · next hmissing =>
    split
    · next created hpublish =>
      exact .inr ⟨readDescription_eq_missing_iff.1 hmissing, hpublish⟩
    · exact .inl rfl
  · exact .inl rfl

/-- What an opening that fails can leave behind: directories, and an empty index where none was. -/
def LeavesBehind (disk after : Disk) : Prop :=
  ∃ made, disk.GainsDirectories made ∧ (after = made ∨ ∃ there,
    made.nodes (descriptionOf there) = none ∧ made.publish there [] ⟨[], none⟩ = .ok after)

theorem LeavesBehind.refl (disk : Disk) : disk.LeavesBehind disk :=
  ⟨disk, .refl disk, .inl rfl⟩

end Disk

namespace Engine

variable {disk after first second : Disk} {home : Location} {path : String} {settings : Settings}

theorem openAt_error {number : Nat} {fault : EngineFault}
    (h : openAt path settings home number disk = (.error fault, after)) :
    after = (disk.loadOrCreate home).2 := by
  unfold openAt at h
  split at h
  · next hload =>
    rw [hload]
    exact (Prod.mk.inj h).2.symm
  · next hload =>
    rw [hload]
    split at h
    · exact (Prod.mk.inj h).2.symm
    · split at h
      · exact (Prod.mk.inj h).2.symm
      · split at h
        · exact (Prod.mk.inj h).2.symm
        · split at h
          · exact (Prod.mk.inj h).2.symm
          · exact absurd (Prod.mk.inj h).1 (by simp)

theorem leavesBehind_of_open {fault : EngineFault}
    (h : Engine.open path settings disk = (.error fault, after)) : disk.LeavesBehind after := by
  have hgains := Disk.gainsDirectories_makeDirectories disk (.ofText path)
  unfold Engine.open at h
  split at h
  · rw [← (Prod.mk.inj h).2]
    exact .refl disk
  · split at h
    · next hmake =>
      rw [hmake] at hgains
      exact ⟨_, hgains, .inl (Prod.mk.inj h).2.symm⟩
    · next made hmake =>
      rw [hmake] at hgains
      refine ⟨made, hgains, ?_⟩
      split at h
      · exact .inl (Prod.mk.inj h).2.symm
      · next there _ =>
        split at h
        · exact .inl (Prod.mk.inj h).2.symm
        · rw [openAt_error h]
          rcases made.loadOrCreate_leaves there with hsame | hmakes
          · exact .inl hsame
          · exact .inr ⟨there, hmakes⟩

theorem leavesBehind_of_openConfigured {environment : List (String × String)} {fault : EngineFault}
    (h : Engine.openConfigured path environment disk = (.error fault, after)) :
    disk.LeavesBehind after := by
  unfold Engine.openConfigured at h
  split at h
  · rw [← (Prod.mk.inj h).2]
    exact .refl disk
  · exact leavesBehind_of_open h

end Engine

namespace Disk

variable {disk after : Disk} {home : Location}

theorem FailedOpening.leavesBehind (h : disk.FailedOpening after) : disk.LeavesBehind after := by
  cases h with
  | engine h => exact Engine.leavesBehind_of_open h
  | configured h => exact Engine.leavesBehind_of_openConfigured h
  | @database path environment failure _ h =>
    unfold Database.open at h
    cases hopen : Engine.openConfigured path environment disk with
    | mk result state =>
      rw [hopen] at h
      obtain ⟨hresult, rfl⟩ := Prod.mk.inj h
      cases result with
      | error fault => exact Engine.leavesBehind_of_openConfigured hopen
      | ok engine => exact absurd hresult (by simp [Except.mapError])

/-- An index that was there is as it was. -/
theorem LeavesBehind.sameIndex (h : disk.LeavesBehind after) (hindex : disk.HasIndex home) :
    disk.SameIndex home after := by
  obtain ⟨made, hgains, hleft⟩ := h
  have hmade := hindex.gainsDirectories hgains
  rcases hleft with rfl | ⟨there, hnone, hpublish⟩
  · exact hmade
  · refine hmade.trans ((hindex.of_sameIndex hmade).writesIndex (publish_inv hpublish).1 ?_)
    rintro rfl
    rw [hmade.description] at hnone
    exact hindex.description hnone

theorem LeavesBehind.keepsDirectories (h : disk.LeavesBehind after) :
    disk.KeepsDirectories after := by
  obtain ⟨made, hgains, hleft⟩ := h
  rcases hleft with rfl | ⟨there, -, hpublish⟩
  · exact hgains.keepsDirectories
  · intro location number hnamed hnode
    exact (publish_inv hpublish).1.keepsDirectories location number hnamed
      (hgains.keepsDirectories location number hnamed hnode)

theorem LeavesBehind.held (h : disk.LeavesBehind after) : after.held = disk.held := by
  obtain ⟨made, hgains, hleft⟩ := h
  rcases hleft with rfl | ⟨there, -, hpublish⟩
  · exact hgains.held
  · rw [(publish_inv hpublish).1.held, hgains.held]

theorem LeavesBehind.trouble (h : disk.LeavesBehind after) : after.trouble = disk.trouble := by
  obtain ⟨made, hgains, hleft⟩ := h
  rcases hleft with rfl | ⟨there, -, hpublish⟩
  · exact hgains.trouble
  · rw [(publish_inv hpublish).1.trouble, hgains.trouble]

theorem GainsDirectories.text? (h : disk.GainsDirectories after) : after.text? = disk.text? := by
  funext name
  unfold Disk.text?
  rcases h.nodes [.given name] with hsame | ⟨hnone, ⟨number, hnode⟩, -⟩
  · rw [hsame]
  · rw [hnone, hnode]

/-- Texts in the working directory, among them the configuration, are as they were. -/
theorem LeavesBehind.text? (h : disk.LeavesBehind after) : after.text? = disk.text? := by
  obtain ⟨made, hgains, hleft⟩ := h
  rw [← hgains.text?]
  rcases hleft with rfl | ⟨there, hnone, hpublish⟩
  · rfl
  · obtain ⟨hwrites, -, hnode, -⟩ := publish_inv hpublish
    funext name
    unfold Disk.text?
    by_cases heq : [.given name] = descriptionOf there
    · rw [heq, hnone, hnode]
    · rw [hwrites.elsewhere _ heq fun segment hdata =>
        absurd (List.cons.inj hdata).1 (by simp)]

end Disk

/-! ### Openings after that -/

namespace Engine

variable {disk after first second : Disk} {home : Location} {path : String} {settings : Settings}

end Engine

/-! ### Calls after that -/

namespace Disk

variable {disk after first second third : Disk} {home there : Location}

/-- An index is still there, and can be written or not as before. -/
structure StillTakes (home : Location) (before after : Disk) : Prop where
  hasIndex : after.HasIndex home
  canWrite : after.CanWrite (descriptionOf home) ↔ before.CanWrite (descriptionOf home)

theorem StillTakes.trans (h : first.StillTakes home second) (h' : second.StillTakes home third) :
    first.StillTakes home third :=
  ⟨h'.hasIndex, h'.canWrite.trans h.canWrite⟩

theorem HasIndex.stillTakes_of_sameIndex (h : disk.HasIndex home)
    (hsame : disk.SameIndex home after) : disk.StillTakes home after where
  hasIndex := h.of_sameIndex hsame
  canWrite := by
    unfold CanWrite
    rw [hsame.description, hsame.protection]

/-- Whichever index is written. -/
theorem HasIndex.stillTakes_of_writesFiles (h : disk.HasIndex home)
    (hwrites : disk.WritesFiles there after) : disk.StillTakes home after := by
  by_cases heq : there = home
  · subst heq
    obtain ⟨number, hnode⟩ := h.directory
    exact ⟨⟨h.isNamed, ⟨number, hwrites.writes.keepsDirectories _ _ h.isNamed hnode⟩,
      hwrites.description h.description⟩, hwrites.canWrite⟩
  · exact h.stillTakes_of_sameIndex (h.writesIndex hwrites.writes heq)

end Disk

namespace Engine

variable {engine : Engine} {disk after first second : Disk} {home : Location} {path : String}
  {settings : Settings}

/-- A save leaves every index in place, the one that it replaces included. -/
theorem stillTakes_save (hplace : Path.destination (.ofText engine.path) = engine.home)
    (h : disk.HasIndex home) (path : String) :
    disk.StillTakes home (engine.save path disk).2 := by
  have hmade := h.stillTakes_of_sameIndex
    (h.gainsDirectories (Disk.gainsDirectories_makeDirectories disk (.ofText path)))
  rcases engine.save_cases path disk with hsaved | ⟨source, target, -, hsource, -, hsaved⟩
  · rw [hsaved]
    exact hmade
  · rw [hsaved]
    obtain rfl : engine.home = source := hplace.symm.trans (Disk.destination_of_locate hsource)
    exact hmade.trans
      (hmade.hasIndex.stillTakes_of_writesFiles (writesFiles_copyIndex engine target _))

/-- Whatever is called, every index stays in place. -/
theorem stillTakes_runEngine (hplace : Path.destination (.ofText engine.path) = engine.home)
    (h : disk.HasIndex home) (command : HandleCommand) :
    disk.StillTakes home (Handle.runEngine (engine, disk) command).2.2 := by
  rcases engine.runEngine_disk disk command with hwrites | ⟨path, hsaved⟩ | ⟨-, hclosed⟩
  · exact h.stillTakes_of_writesFiles hwrites
  · rw [hsaved]
    exact stillTakes_save hplace h path
  · rw [hclosed]
    exact h.stillTakes_of_sameIndex ⟨rfl, rfl, fun _ => rfl, rfl⟩

/-! ### Engines that are open meanwhile -/

/-- An index is where the path of an engine leads. -/
structure Stands (engine : Engine) (disk : Disk) : Prop where
  place : Path.destination (.ofText engine.path) = engine.home
  hasIndex : disk.HasIndex engine.home

theorem Stands.troubled (h : engine.Stands disk) (room : Option Nat) :
    engine.Stands { disk with trouble := room } :=
  ⟨h.place, h.hasIndex.of_sameIndex ⟨rfl, rfl, fun _ => rfl, rfl⟩⟩

/-- The commits of an engine go through on two disks alike. -/
structure CommitsAlike (engine : Engine) (first second : Disk) : Prop where
  left : engine.Stands first
  right : engine.Stands second
  canWrite : second.CanWrite (descriptionOf engine.home) ↔
    first.CanWrite (descriptionOf engine.home)
  trouble : second.trouble = first.trouble

theorem CommitsAlike.seesAlike (h : engine.CommitsAlike first second) :
    engine.SeesAlike first second := by
  refine ⟨?_, h.trouble⟩
  intro known commit
  rw [Disk.exists_publish_iff, Disk.exists_publish_iff, h.canWrite]
  exact and_congr_left' (iff_of_true h.right.hasIndex.directory h.left.hasIndex.directory)

/-- Whatever an engine is called for, it answers the same on both disks, unless it saves, and
becomes the same. -/
theorem CommitsAlike.runEngine (h : engine.CommitsAlike first second) (command : HandleCommand) :
    (Handle.runEngine (engine, second) command).2.1 =
        (Handle.runEngine (engine, first) command).2.1 ∧
      (observe (engine, second) command).regardless =
        (observe (engine, first) command).regardless := by
  cases hlocal : command.isLocal with
  | true =>
    exact ⟨(h.seesAlike.runEngine hlocal).2,
      congrArg Observation.regardless (h.seesAlike.observe_eq hlocal)⟩
  | false =>
    cases command with
    | save | path | close => exact ⟨rfl, rfl⟩
    | insert | delete | query | sources | versionsOf =>
      exact absurd hlocal (by simp [HandleCommand.isLocal])

section

variable {ι : Type} [DecidableEq ι] {engines : ι → Engine}

theorem place_take_call (engines : ι → Engine) (disk : Disk) (i : ι) (command : HandleCommand)
    (j : ι) : ((Turn.take (.call i command) (engines, disk)).1 j).path = (engines j).path ∧
      ((Turn.take (.call i command) (engines, disk)).1 j).home = (engines j).home := by
  by_cases hj : j = i
  · subst hj
    obtain ⟨hpath, hhome, -⟩ := runEngine_place (engines j) disk command
    simp only [Turn.take, Function.update_self]
    exact ⟨hpath, hhome⟩
  · simp only [Turn.take, Function.update_of_ne hj]
    exact ⟨trivial, trivial⟩

/-- A call to one of the engines leaves the commits of all of them to go through alike. -/
theorem CommitsAlike.call (h : ∀ i, (engines i).CommitsAlike first second) (i : ι)
    (command : HandleCommand) (j : ι) :
    ((Turn.take (.call i command) (engines, first)).1 j).CommitsAlike
      (Turn.take (.call i command) (engines, first)).2
      (Turn.take (.call i command) (engines, second)).2 := by
  have hleft := stillTakes_runEngine (h i).left.place (h j).left.hasIndex command
  have hright := stillTakes_runEngine (h i).right.place (h j).right.hasIndex command
  obtain ⟨hpath, hhome⟩ := place_take_call engines first i command j
  have hplace : Path.destination
      (.ofText ((Turn.take (.call i command) (engines, first)).1 j).path) =
        ((Turn.take (.call i command) (engines, first)).1 j).home := by
    rw [hpath, hhome]
    exact (h j).left.place
  refine ⟨⟨hplace, ?_⟩, ⟨hplace, ?_⟩, ?_, ?_⟩
  · rw [hhome]
    exact hleft.hasIndex
  · rw [hhome]
    exact hright.hasIndex
  · rw [hhome]
    exact hright.canWrite.trans ((h j).canWrite.trans hleft.canWrite.symm)
  · show (Handle.runEngine (engines i, second) command).2.2.trouble =
      (Handle.runEngine (engines i, first) command).2.2.trouble
    rw [trouble_runEngine, trouble_runEngine]
    exact (h i).trouble

end

/-- What an opening that succeeds does to who holds what: it holds a directory that nobody held. -/
theorem held_of_open (h : Engine.open path settings disk = (.ok engine, after)) :
    engine.directoryNumber ∉ disk.held ∧ after.held = engine.directoryNumber :: disk.held ∧
      after.nodes engine.home = some (.directory engine.directoryNumber) ∧
      disk.KeepsDirectories after ∧ Path.destination (.ofText path) = engine.home := by
  obtain ⟨made, loaded, commit, hopened⟩ := open_inv h
  obtain ⟨-, hwrites, -⟩ := loadOrCreate_inv hopened.load
  have hheld : loaded.held = disk.held := hwrites.held.trans hopened.gains.held
  have hfree := hopened.free
  have hnamed := Disk.isNamed_of_locate hopened.located
  rw [hheld] at hfree
  rw [hopened.after_eq]
  refine ⟨hfree, ?_, hwrites.keepsDirectories _ _ hnamed hopened.directory, ?_,
    Disk.destination_of_locate hopened.located⟩
  · show engine.directoryNumber :: loaded.held = _
    rw [hheld]
  · intro location number hlocation hnode
    exact hwrites.keepsDirectories _ _ hlocation
      (hopened.gains.keepsDirectories _ _ hlocation hnode)

end Engine

/-! ### What is kept -/

end ChunkStore
