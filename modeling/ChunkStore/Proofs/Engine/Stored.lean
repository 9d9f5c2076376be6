import ChunkStore.Engine.Opening
import ChunkStore.Proofs.Disk.IndexFiles
import ChunkStore.Proofs.Engine.Changing
import ChunkStore.Proofs.Index.ManifestText

/-!
# What an engine holds stands on the disk

An engine that is open keeps in memory what it committed last.  `IsStored` says that its directory
holds the same, readable and ready for the next commit, and that the engine holds the directory.
It stays so whatever happens elsewhere on the disk, and a call that changes the index changes both
together.
-/

set_option autoImplicit false

namespace ChunkStore

open ChunkStore.Index (Contents Manifest)

namespace Disk

/-- A directory holds an index with these contents, readable and ready for the next commit. -/
structure HoldsIndex (disk : Disk) (home : Location) (contents : Contents) : Prop where
  committed : ∃ commit, disk.nodes (descriptionOf home) = some (.description commit) ∧
    commit.segments = contents.segments ∧ Manifest.ofCommit? commit = some contents.manifest
  data : ∀ segment ∈ contents.segments, disk.nodes (dataOf home segment) = some .data
  writable : disk.isProtected (descriptionOf home) = false

theorem HoldsIndex.of_sameIndex {before after : Disk} {home : Location} {contents : Contents}
    (h : before.HoldsIndex home contents) (hsame : before.SameIndex home after) :
    after.HoldsIndex home contents where
  committed := by
    rw [hsame.description]
    exact h.committed
  data := by
    intro segment hsegment
    rw [hsame.data, h.data segment hsegment]
  writable := by rw [hsame.protection, h.writable]

theorem HoldsIndex.description_ne_none {disk : Disk} {home : Location} {contents : Contents}
    (h : disk.HoldsIndex home contents) : disk.nodes (descriptionOf home) ≠ none := by
  obtain ⟨commit, hcommit, -, -⟩ := h.committed
  rw [hcommit]
  simp

/-- What was committed is there if the data files of the segments known before were. -/
theorem holdsIndex_of_publish {disk after : Disk} {home : Location} {contents : Contents}
    {known : List Index.Segment}
    (hknown : ∀ segment ∈ known, disk.nodes (dataOf home segment) = some .data)
    (h : disk.publish home known contents.toCommit = .ok after) :
    after.HoldsIndex home contents := by
  obtain ⟨hwrites, hwritable, hcommit, hdata⟩ := publish_inv h
  refine ⟨⟨contents.toCommit, hcommit, rfl, Manifest.ofText?_render contents.manifest⟩, ?_, ?_⟩
  · exact fun segment hsegment => hdata segment hsegment (hknown segment)
  · rw [hwrites.isProtected]
    exact hwritable

end Disk

namespace Engine

/-- The directory of an engine holds what the engine holds, and is held by the engine. -/
structure IsStored (engine : Engine) (disk : Disk) : Prop where
  directory : disk.nodes engine.home = some (.directory engine.directoryNumber)
  located : disk.locate (.ofText engine.path) = .ok engine.home
  index : disk.HoldsIndex engine.home engine.contents
  held : disk.held.count engine.directoryNumber = 1

/-- Another disk on which an engine finds its directory, the index in it and its hold on it
unchanged, whatever else has changed. -/
structure Untouched (engine : Engine) (before after : Disk) : Prop where
  index : before.SameIndex engine.home after
  located : after.locate (.ofText engine.path) = before.locate (.ofText engine.path)
  held : after.held.count engine.directoryNumber = before.held.count engine.directoryNumber

variable {engine : Engine} {disk : Disk}

theorem Untouched.refl (engine : Engine) (disk : Disk) : engine.Untouched disk disk :=
  ⟨.refl engine.home disk, rfl, rfl⟩

theorem Untouched.trans {first second third : Disk} (h : engine.Untouched first second)
    (h' : engine.Untouched second third) : engine.Untouched first third :=
  ⟨h.index.trans h'.index, h'.located.trans h.located, h'.held.trans h.held⟩

theorem IsStored.of_untouched {after : Disk} (h : engine.IsStored disk)
    (huntouched : engine.Untouched disk after) : engine.IsStored after where
  directory := by rw [huntouched.index.directory, h.directory]
  located := by rw [huntouched.located, h.located]
  index := h.index.of_sameIndex huntouched.index
  held := by rw [huntouched.held, h.held]

theorem IsStored.troubled {engine : Engine} {disk : Disk} (h : engine.IsStored disk)
    (room : Option Nat) : engine.IsStored { disk with trouble := room } := by
  have hkeeps : disk.KeepsDirectories { disk with trouble := room } := fun _ _ _ hnode => hnode
  refine h.of_untouched ⟨⟨rfl, rfl, fun _ => rfl, rfl⟩, ?_, rfl⟩
  rw [h.located]
  exact Disk.locate_of_keepsDirectories hkeeps h.located h.directory

/-- An engine holds its directory. -/
theorem IsStored.mem_held (h : engine.IsStored disk) : engine.directoryNumber ∈ disk.held := by
  apply List.count_pos_iff.1
  rw [h.held]
  omega

theorem IsStored.isNamed (h : engine.IsStored disk) : engine.home.IsNamed :=
  Disk.isNamed_of_locate h.located

/-! ### Commits -/

/-- What is staged does not count. -/
theorem IsStored.withStaged (h : engine.IsStored disk) (staged : List Index.Change) :
    ({ engine with staged } : Engine).IsStored disk :=
  ⟨h.directory, h.located, h.index, h.held⟩

theorem IsStored.exists_publish_eq_ok (h : engine.IsStored disk) (commit : Commit) :
    ∃ after, disk.publish engine.home engine.segments commit = .ok after := by
  obtain ⟨last, hlast, -, -⟩ := h.index.committed
  refine Disk.exists_publish_eq_ok h.directory h.index.writable ?_ engine.segments commit
  intro number
  rw [hlast]
  simp

theorem IsStored.publish {after : Disk} {contents : Contents} (h : engine.IsStored disk)
    (hpublish : disk.publish engine.home engine.segments contents.toCommit = .ok after) :
    (engine.withContents contents).IsStored after := by
  obtain ⟨hwrites, -, -, -⟩ := Disk.publish_inv hpublish
  have hkeeps := hwrites.keepsDirectories
  exact {
    directory := hkeeps _ _ h.isNamed h.directory
    located := Disk.locate_of_keepsDirectories hkeeps h.located h.directory
    index := Disk.holdsIndex_of_publish h.index.data hpublish
    held := by
      rw [hwrites.held]
      exact h.held }

/-- A call that leaves an engine in its place and writes nothing but the files of its index, which
then holds what the engine holds. -/
structure WorksAtHome (engine : Engine) (disk : Disk) (engine' : Engine) (disk' : Disk) : Prop where
  isStored : engine'.IsStored disk'
  writes : disk.WritesIndex engine.home disk'
  path : engine'.path = engine.path
  home : engine'.home = engine.home
  directoryNumber : engine'.directoryNumber = engine.directoryNumber
  stopWords : engine'.stopWords = engine.stopWords

theorem IsStored.worksAtHome (h : engine.IsStored disk) (staged : List Index.Change) :
    engine.WorksAtHome disk { engine with staged } disk :=
  ⟨h.withStaged staged, .refl engine.home disk, rfl, rfl, rfl, rfl⟩

theorem WorksAtHome.of_staged {staged : List Index.Change} {engine' : Engine} {disk' : Disk}
    (h : ({ engine with staged } : Engine).WorksAtHome disk engine' disk') :
    engine.WorksAtHome disk engine' disk' :=
  ⟨h.isStored, h.writes, h.path, h.home, h.directoryNumber, h.stopWords⟩

theorem IsStored.commit (h : engine.IsStored disk) (isComplete : Bool) (manifest : Manifest) :
    engine.WorksAtHome disk (engine.commit isComplete manifest disk).2.1
      (engine.commit isComplete manifest disk).2.2 := by
  unfold Engine.commit
  dsimp only
  split
  · exact h.worksAtHome []
  · split
    · next after hpublish =>
      have hstored : (engine.withContents
          ⟨manifest, Index.Change.applyAll engine.staged engine.segments⟩).IsStored after :=
        h.publish hpublish
      exact ⟨hstored, (Disk.publish_inv hpublish).1, rfl, rfl, rfl, rfl⟩
    · exact h.worksAtHome []

theorem IsStored.carryOut (h : engine.IsStored disk) (plan : Plan) :
    engine.WorksAtHome disk (engine.carryOut disk plan).2.1 (engine.carryOut disk plan).2.2 := by
  cases plan with
  | answer result => exact h.worksAtHome engine.staged
  | strand changes => exact h.worksAtHome _
  | commit changes manifest => exact ((h.withStaged _).commit _ _).of_staged

theorem IsStored.insert (h : engine.IsStored disk) (texts : List String) (maps : List Metadata)
    (document docId : String) (requested : Option UInt32) :
    engine.WorksAtHome disk (engine.insert texts maps document docId requested disk).2.1
      (engine.insert texts maps document docId requested disk).2.2 := by
  rw [insert_eq_carryOut]
  exact h.carryOut _

theorem IsStored.delete (h : engine.IsStored disk) (docId : String) (keepLatest : Bool) :
    engine.WorksAtHome disk (engine.delete docId keepLatest disk).2.1
      (engine.delete docId keepLatest disk).2.2 := by
  rw [delete_eq_carryOut]
  exact h.carryOut _

end Engine

end ChunkStore
