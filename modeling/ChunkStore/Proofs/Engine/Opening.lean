import ChunkStore.Database.OnEngine
import ChunkStore.Proofs.Engine.Stored

/-!
# Opening an index

What an engine knows when it is opened comes from its directory: from the description that is there,
or from the empty one that is made where there is none.  So closing an engine and opening its
directory again leads back to the same contents, under any settings that can be opened with.
-/

set_option autoImplicit false

namespace ChunkStore

/-- Settings that an index can be opened with. -/
def Settings.Opens (settings : Settings) : Prop :=
  settings.validate = .ok () ∧
    settings.writerMemoryBytes.toNat / settings.writerThreads.toNat < Engine.mostMemoryPerThread

theorem Settings.opens_default : Settings.default.Opens :=
  ⟨rfl, by decide⟩

namespace Disk

theorem readDescription_eq_ok_iff {disk : Disk} {home : Location} {commit : Commit} :
    disk.readDescription home = .ok commit ↔
      disk.nodes (descriptionOf home) = some (.description commit) := by
  unfold readDescription
  cases disk.nodes (descriptionOf home) with
  | none => simp
  | some node => cases node <;> simp

theorem readDescription_eq_missing_iff {disk : Disk} {home : Location} :
    disk.readDescription home = .error .missing ↔ disk.nodes (descriptionOf home) = none := by
  unfold readDescription
  cases disk.nodes (descriptionOf home) with
  | none => simp
  | some node => cases node <;> simp

theorem holdsSegments_iff {disk : Disk} {home : Location} {commit : Commit} :
    disk.holdsSegments home commit = true ↔
      ∀ segment ∈ commit.segments, disk.nodes (dataOf home segment) = some .data := by
  simp [holdsSegments]

theorem directoryNumber?_eq_some_iff {disk : Disk} {location : Location} {number : Nat} :
    disk.directoryNumber? location = some number ↔
      disk.nodes location = some (.directory number) := by
  unfold directoryNumber?
  cases disk.nodes location with
  | none => simp
  | some node => cases node <;> simp

end Disk

namespace Engine

open ChunkStore.Index (Contents Manifest)

variable {engine : Engine} {disk : Disk}

/-- All that opening asks for and does: directories are made, the description is read or made, and
then the directory is held. -/
structure Opened (engine : Engine) (path : String) (settings : Settings) (disk after : Disk)
    (made loaded : Disk) (commit : Commit) : Prop where
  gains : disk.GainsDirectories made
  located : made.locate (.ofText path) = .ok engine.home
  directory : made.nodes engine.home = some (.directory engine.directoryNumber)
  load : made.loadOrCreate engine.home = (.ok commit, loaded)
  free : engine.directoryNumber ∉ loaded.held
  data : ∀ segment ∈ commit.segments, loaded.nodes (dataOf engine.home segment) = some .data
  after_eq : after = loaded.hold engine.directoryNumber
  segments : commit.segments = engine.segments
  manifest : Manifest.ofCommit? commit = some engine.manifest
  path : engine.path = path
  stopWords : engine.stopWords = settings.stopWords
  staged : engine.staged = []

theorem open_inv {path : String} {settings : Settings} {after : Disk}
    (h : Engine.open path settings disk = (.ok engine, after)) :
    ∃ made loaded commit, engine.Opened path settings disk after made loaded commit := by
  have hgains := Disk.gainsDirectories_makeDirectories disk (.ofText path)
  unfold Engine.open at h
  split at h
  · exact absurd (Prod.mk.inj h).1 (by simp)
  · split at h
    · exact absurd (Prod.mk.inj h).1 (by simp)
    · next made hmake =>
      rw [hmake] at hgains
      split at h
      · exact absurd (Prod.mk.inj h).1 (by simp)
      · next home hlocate =>
        split at h
        · exact absurd (Prod.mk.inj h).1 (by simp)
        · next number hnumber =>
          unfold openAt at h
          split at h
          · exact absurd (Prod.mk.inj h).1 (by simp)
          · next commit loaded hload =>
            split at h
            · exact absurd (Prod.mk.inj h).1 (by simp)
            · next hfree =>
              split at h
              · exact absurd (Prod.mk.inj h).1 (by simp)
              · split at h
                · exact absurd (Prod.mk.inj h).1 (by simp)
                · next hdata =>
                  split at h
                  · exact absurd (Prod.mk.inj h).1 (by simp)
                  · next manifest hmanifest =>
                    obtain ⟨hengine, hafter⟩ := Prod.mk.inj h
                    have hengine := Except.ok.inj hengine
                    subst hengine
                    exact ⟨made, loaded, commit, {
                      gains := hgains
                      located := hlocate
                      directory := Disk.directoryNumber?_eq_some_iff.1 hnumber
                      load := hload
                      free := by simpa using hfree
                      data := Disk.holdsSegments_iff.1 (by simpa using hdata)
                      after_eq := hafter.symm
                      segments := rfl
                      manifest := hmanifest
                      path := rfl
                      stopWords := rfl
                      staged := rfl }⟩

theorem stopWords_of_open {path : String} {settings : Settings} {after : Disk}
    (h : Engine.open path settings disk = (.ok engine, after)) :
    engine.stopWords = settings.stopWords := by
  obtain ⟨_, _, _, hopened⟩ := open_inv h
  exact hopened.stopWords

theorem staged_of_open {path : String} {settings : Settings} {after : Disk}
    (h : Engine.open path settings disk = (.ok engine, after)) : engine.staged = [] := by
  obtain ⟨_, _, _, hopened⟩ := open_inv h
  exact hopened.staged

/-- What an index opens with, and what that does to the disk. -/
theorem loadOrCreate_inv {made loaded : Disk} {home : Location} {commit : Commit}
    (h : made.loadOrCreate home = (.ok commit, loaded)) :
    loaded.nodes (descriptionOf home) = some (.description commit) ∧
      made.WritesIndex home loaded ∧
      (made.nodes (descriptionOf home) = some (.description commit) ∧ loaded = made ∨
        made.nodes (descriptionOf home) = none ∧ commit = ⟨[], none⟩ ∧
          loaded.isProtected (descriptionOf home) = false) := by
  unfold Disk.loadOrCreate at h
  split at h
  · next hmissing =>
    split at h
    · next created hpublish =>
      obtain ⟨hcommit, rfl⟩ := Prod.mk.inj h
      obtain ⟨hwrites, hwritable, hnode, -⟩ := Disk.publish_inv hpublish
      rw [← Except.ok.inj hcommit]
      exact ⟨hnode, hwrites, .inr ⟨Disk.readDescription_eq_missing_iff.1 hmissing, rfl, by
        rw [hwrites.isProtected]
        exact hwritable⟩⟩
    · exact absurd (Prod.mk.inj h).1 (by simp)
  · obtain ⟨hcommit, rfl⟩ := Prod.mk.inj h
    have hnode := Disk.readDescription_eq_ok_iff.1 hcommit
    exact ⟨hnode, .refl home made, .inl ⟨hnode, rfl⟩⟩

/-- An empty index is made in a directory where nothing stands under the name of the description. -/
theorem loadOrCreate_of_missing {home : Location} {number : Nat}
    (hdirectory : disk.nodes home = some (.directory number))
    (hnone : disk.nodes (descriptionOf home) = none)
    (hwritable : disk.isProtected (descriptionOf home) = false) :
    disk.loadOrCreate home =
      (.ok ⟨[], none⟩, disk.put (descriptionOf home) (.description ⟨[], none⟩)) := by
  have hput := Disk.write_eq_ok (.description ⟨[], none⟩) hwritable (by simp [hnone])
  have hpublish : disk.publish home [] ⟨[], none⟩ =
      .ok (disk.put (descriptionOf home) (.description ⟨[], none⟩)) := by
    unfold Disk.publish
    rw [hdirectory, hput]
    exact congrArg Except.ok (Disk.putData_nil home _)
  unfold Disk.loadOrCreate
  rw [Disk.readDescription_eq_missing_iff.2 hnone, hpublish]

/-- An engine that was opened finds its index on the disk. -/
theorem isStored_of_open {path : String} {settings : Settings} {after : Disk}
    (h : Engine.open path settings disk = (.ok engine, after))
    (hwritable : after.isProtected (descriptionOf engine.home) = false) :
    engine.IsStored after := by
  obtain ⟨made, loaded, commit, hopened⟩ := open_inv h
  obtain ⟨hnode, hwrites, -⟩ := loadOrCreate_inv hopened.load
  have hkeeps : made.KeepsDirectories (loaded.hold engine.directoryNumber) :=
    hwrites.keepsDirectories
  obtain rfl := hopened.after_eq
  exact {
    directory := hkeeps _ _ (Disk.isNamed_of_locate hopened.located) hopened.directory
    located := by
      rw [hopened.path]
      exact Disk.locate_of_keepsDirectories hkeeps hopened.located hopened.directory
    index := {
      committed := ⟨commit, hnode, hopened.segments, hopened.manifest⟩
      data := by
        show ∀ segment ∈ engine.segments, _
        rw [← hopened.segments]
        exact hopened.data
      writable := hwritable }
    held := by
      show (engine.directoryNumber :: loaded.held).count engine.directoryNumber = 1
      rw [List.count_cons_self, List.count_eq_zero.2 hopened.free] }

/-- An engine that was opened where no index was starts with an empty one. -/
theorem isStored_of_open_fresh {path : String} {settings : Settings} {after : Disk}
    (h : Engine.open path settings disk = (.ok engine, after))
    (hfresh : disk.nodes (descriptionOf engine.home) = none) :
    engine.IsStored after ∧ engine.contents = .empty := by
  obtain ⟨made, loaded, commit, hopened⟩ := open_inv h
  obtain ⟨-, -, hwas | ⟨-, rfl, hwritable⟩⟩ := loadOrCreate_inv hopened.load
  · -- Nothing but a directory can have come where the description would be.
    rcases hopened.gains.nodes (descriptionOf engine.home) with hsame | ⟨-, ⟨number, hmade⟩, -⟩
    · rw [hsame, hfresh] at hwas
      exact absurd hwas.1 (by simp)
    · rw [hmade] at hwas
      exact absurd hwas.1 (by simp)
  · refine ⟨isStored_of_open h (hopened.after_eq ▸ hwritable), ?_⟩
    have hempty : Manifest.empty = engine.manifest := Option.some.inj hopened.manifest
    unfold contents Contents.empty
    rw [← hopened.segments, ← hempty]

/-- An engine that was opened where an index was has what that index holds. -/
theorem isStored_of_open_holdsIndex {path : String} {settings : Settings} {after : Disk}
    {contents : Contents} (h : Engine.open path settings disk = (.ok engine, after))
    (hdirectory : disk.nodes engine.home ≠ none) (hindex : disk.HoldsIndex engine.home contents) :
    engine.IsStored after ∧ engine.contents = contents := by
  obtain ⟨made, loaded, commit, hopened⟩ := open_inv h
  have hmade := hindex.of_sameIndex
    (hopened.gains.sameIndex hdirectory hindex.description_ne_none)
  obtain ⟨read, hread, hsegments, hmanifest⟩ := hmade.committed
  obtain ⟨-, -, ⟨hwas, rfl⟩ | ⟨hnone, -, -⟩⟩ := loadOrCreate_inv hopened.load
  · rw [hread] at hwas
    obtain rfl := Node.description.inj (Option.some.inj hwas)
    refine ⟨isStored_of_open h (hopened.after_eq ▸ hmade.writable), ?_⟩
    have hsame : engine.manifest = contents.manifest := by
      rw [hopened.manifest] at hmanifest
      exact Option.some.inj hmanifest
    unfold Engine.contents
    rw [hsame, ← hopened.segments, hsegments]
  · exact absurd hnone hmade.description_ne_none

/-- Opening the directory of an engine that was closed leads back to its contents. -/
theorem isStored_of_reopen {engine' : Engine} {path : String} {settings : Settings}
    {between after : Disk} (h : engine.IsStored disk)
    (huntouched : engine.Untouched (engine.close disk) between)
    (hopen : Engine.open path settings between = (.ok engine', after))
    (hhome : engine'.home = engine.home) :
    engine'.IsStored after ∧ engine'.contents = engine.contents := by
  have hclose : disk.SameIndex engine.home (engine.close disk) := ⟨rfl, rfl, fun _ => rfl, rfl⟩
  have hsame := hclose.trans huntouched.index
  apply isStored_of_open_holdsIndex hopen
  · rw [hhome, hsame.directory, h.directory]
    simp
  · rw [hhome]
    exact h.index.of_sameIndex hsame

/-- Where a path leads to a directory, nothing has to be made for it. -/
theorem open_of_directory {path : String} {settings : Settings} {home : Location} {number : Nat}
    (hvalid : settings.validate = .ok ()) (hlocate : disk.locate (.ofText path) = .ok home)
    (hdirectory : disk.nodes home = some (.directory number)) :
    Engine.open path settings disk = openAt path settings home number disk := by
  have hmade := Disk.makeDirectories_of_isDirectory
    (Disk.isDirectory_eq_true_iff.2 ⟨home, number, hlocate, hdirectory⟩)
  unfold Engine.open
  simp only [hvalid, hmade, hlocate, Disk.directoryNumber?_eq_some_iff.2 hdirectory]

/-- Opening an index that is there and free succeeds and finds what it holds. -/
theorem open_of_holdsIndex {path : String} {settings : Settings} {home : Location} {number : Nat}
    {contents : Contents} (hsettings : settings.Opens)
    (hlocate : disk.locate (.ofText path) = .ok home)
    (hdirectory : disk.nodes home = some (.directory number))
    (hindex : disk.HoldsIndex home contents) (hfree : number ∉ disk.held) :
    Engine.open path settings disk =
      (.ok ⟨path, home, number, settings.stopWords, contents.manifest, contents.segments, []⟩,
        disk.hold number) := by
  obtain ⟨hvalid, hmemory⟩ := hsettings
  obtain ⟨commit, hcommit, hsegments, hmanifest⟩ := hindex.committed
  have hload : disk.loadOrCreate home = (.ok commit, disk) := by
    simp [Disk.loadOrCreate, Disk.readDescription_eq_ok_iff.2 hcommit]
  have hheld : disk.held.contains number = false := by simpa using hfree
  have hdata : disk.holdsSegments home commit = true := by
    apply Disk.holdsSegments_iff.2
    rw [hsegments]
    exact hindex.data
  rw [open_of_directory hvalid hlocate hdirectory]
  unfold openAt
  simp only [hload, hheld, Bool.false_eq_true, if_false, if_neg (Nat.not_le.2 hmemory), hdata,
    Bool.not_true, hmanifest, hsegments]

/-- The disk after closing and opening again. -/
def reheld (engine : Engine) (disk : Disk) : Disk :=
  { disk with held := engine.directoryNumber :: disk.held.erase engine.directoryNumber }

/-- An engine that is closed can be opened again, and then is as it was but for the stop words. -/
theorem open_close {settings : Settings} (h : engine.IsStored disk)
    (hsettings : settings.Opens) :
    Engine.open engine.path settings (engine.close disk) =
      (.ok { engine with stopWords := settings.stopWords, staged := [] }, engine.reheld disk) := by
  have hkeeps : disk.KeepsDirectories (engine.close disk) := fun _ _ _ hnode => hnode
  have hlocate := Disk.locate_of_keepsDirectories hkeeps h.located h.directory
  have hfree : engine.directoryNumber ∉ (engine.close disk).held := by
    apply List.count_eq_zero.1
    show (disk.held.erase engine.directoryNumber).count engine.directoryNumber = 0
    rw [List.count_erase_self, h.held]
  have hsame : disk.SameIndex engine.home (engine.close disk) := ⟨rfl, rfl, fun _ => rfl, rfl⟩
  exact open_of_holdsIndex hsettings hlocate h.directory (h.index.of_sameIndex hsame) hfree

/-- An engine as it is opened in the working directory of an empty disk. -/
def newEngine (settings : Settings) : Engine :=
  ⟨".", [], 0, settings.stopWords, .empty, [], []⟩

/-- A disk on which nothing was done but to open an index in the working directory. -/
def newDisk : Disk :=
  (Disk.empty.put (descriptionOf []) (.description ⟨[], none⟩)).hold 0

/-- On an empty disk an index can be made in the working directory. -/
theorem open_empty {settings : Settings} (hsettings : settings.Opens) :
    Engine.open "." settings .empty = (.ok (newEngine settings), newDisk) := by
  obtain ⟨hvalid, hmemory⟩ := hsettings
  have hlocate : Disk.empty.locate (.ofText ".") = .ok [] := rfl
  have hisDirectory : Disk.empty.isDirectory (.ofText ".") = true := rfl
  have hload : Disk.empty.loadOrCreate [] =
      (.ok ⟨[], none⟩, Disk.empty.put (descriptionOf []) (.description ⟨[], none⟩)) :=
    loadOrCreate_of_missing rfl rfl rfl
  have hopenAt : openAt "." settings [] 0 .empty = (.ok (newEngine settings), newDisk) := by
    unfold openAt
    simp only [hload, if_neg (Nat.not_le.2 hmemory)]
    rfl
  unfold Engine.open
  simp only [hvalid, Disk.makeDirectories_of_isDirectory hisDirectory, hlocate]
  exact hopenAt

end Engine

/-! ### Databases -/

theorem Engine.open_of_openConfigured {path : String} {environment : List (String × String)}
    {disk after : Disk} {engine : Engine}
    (h : Engine.openConfigured path environment disk = (.ok engine, after)) :
    ∃ settings, Engine.open path settings disk = (.ok engine, after) := by
  unfold Engine.openConfigured at h
  split at h
  · exact absurd (Prod.mk.inj h).1 (by simp)
  · next settings _ => exact ⟨settings, h⟩

theorem Database.open_of_open {path : String} {environment : List (String × String)}
    {disk after : Disk} {engine : Engine}
    (h : Database.open path environment disk = (.ok engine, after)) :
    ∃ settings, Engine.open path settings disk = (.ok engine, after) := by
  unfold Database.open at h
  cases hopen : Engine.openConfigured path environment disk with
  | mk result state =>
    rw [hopen] at h
    cases result with
    | error fault => exact absurd (Prod.mk.inj h).1 (by simp [Except.mapError])
    | ok opened =>
      obtain ⟨hengine, rfl⟩ := Prod.mk.inj h
      obtain rfl := Except.ok.inj hengine
      exact Engine.open_of_openConfigured hopen

end ChunkStore
