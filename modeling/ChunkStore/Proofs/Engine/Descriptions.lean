import ChunkStore.Proofs.Engine.Laws

/-!
# Which descriptions there can be on a disk

Descriptions come into being where an index is made or committed to, and else are only copied.  So
whatever is true of the empty description and of all that is committed is true of every description
on a disk, wherever it stands.
-/

set_option autoImplicit false

namespace ChunkStore

namespace Disk

/-- Every description on a disk says something that is known. -/
def Describes (known : Commit → Prop) (disk : Disk) : Prop :=
  ∀ location commit, disk.nodes location = some (.description commit) → known commit

/-- The law that every description says something that is known. -/
def SaysKnown (known : Commit → Prop) (_ : Location) (node : Node) : Prop :=
  ∀ commit, node = .description commit → known commit

variable {known : Commit → Prop} {disk after : Disk}

theorem describes_iff_obeys : disk.Describes known ↔ disk.Obeys (SaysKnown known) := by
  constructor
  · rintro h location node hnode commit rfl
    exact h location commit hnode
  · intro h location commit hnode
    exact h location _ hnode commit rfl

theorem permits_saysKnown (known : Commit → Prop) : Permits (SaysKnown known) where
  directory := by simp [SaysKnown]
  data := by simp [SaysKnown]
  cutData := by simp [SaysKnown]
  copiedDescription := fun _ _ _ h => h
  cutDescription := by simp [SaysKnown]

theorem saysKnown_of_known {commit : Commit} (h : known commit) (location : Location) :
    SaysKnown known location (.description commit) := by
  intro other heq
  obtain rfl := Node.description.inj heq
  exact h

theorem Describes.mono {known' : Commit → Prop} (h : disk.Describes known)
    (hmono : ∀ commit, known commit → known' commit) : disk.Describes known' :=
  fun location commit hnode => hmono commit (h location commit hnode)

theorem Describes.of_publish (h : disk.Describes known) {home : Location}
    {segments : List Index.Segment} {commit : Commit} (hcommit : known commit)
    (hpublish : disk.publish home segments commit = .ok after) :
    after.Describes known :=
  describes_iff_obeys.2 ((describes_iff_obeys.1 h).of_publish (permits_saysKnown known)
    (saysKnown_of_known hcommit _) hpublish)

end Disk

namespace Engine

open Disk (describes_iff_obeys permits_saysKnown saysKnown_of_known)

variable {known : Commit → Prop} {disk : Disk}

/-- Saving describes nothing that was not described before. -/
theorem describes_save (h : disk.Describes known) (engine : Engine) (path : String) :
    (engine.save path disk).2.Describes known :=
  describes_iff_obeys.2
    (obeys_save (describes_iff_obeys.1 h) (permits_saysKnown known) engine path)

/-- Opening describes nothing new but an empty index. -/
theorem describes_open (h : disk.Describes known) (hempty : known ⟨[], none⟩) (path : String)
    (settings : Settings) : (Engine.open path settings disk).2.Describes known :=
  describes_iff_obeys.2 (obeys_open (describes_iff_obeys.1 h) (permits_saysKnown known)
    (fun _ => saysKnown_of_known hempty _) path settings)

/-- What an engine holds when it is opened is described on the disk, or is empty. -/
theorem known_of_open {engine : Engine} {path : String} {settings : Settings} {after : Disk}
    (h : disk.Describes known) (hempty : known ⟨[], none⟩)
    (hopen : Engine.open path settings disk = (.ok engine, after)) :
    ∃ commit, known commit ∧ commit.segments = engine.segments ∧
      Index.Manifest.ofCommit? commit = some engine.manifest := by
  obtain ⟨made, loaded, commit, hopened⟩ := open_inv hopen
  obtain ⟨hnode, -, -⟩ := loadOrCreate_inv hopened.load
  have hafter := describes_open h hempty path settings
  rw [hopen, hopened.after_eq] at hafter
  exact ⟨commit, hafter _ commit hnode, hopened.segments, hopened.manifest⟩

end Engine

/-- Opening a database describes nothing new but an empty index. -/
theorem Database.describes_open {known : Commit → Prop} {disk : Disk} (h : disk.Describes known)
    (hempty : known ⟨[], none⟩) (path : String) (environment : List (String × String)) :
    (Database.open path environment disk).2.Describes known := by
  have hopen : (Engine.openConfigured path environment disk).2.Describes known := by
    unfold Engine.openConfigured
    split
    · exact h
    · exact Engine.describes_open h hempty path _
  exact hopen

end ChunkStore
