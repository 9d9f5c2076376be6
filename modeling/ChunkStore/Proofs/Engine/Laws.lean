import ChunkStore.Proofs.Engine.Saving

/-!
# Laws of what stands on a disk

A law says what may stand where.  Openings and saves write to a disk in few ways: they make
directories, write data files and the empty description, and copy files of indexes from one
directory to another, of which fragments can be left.  A law that lets these be done is kept,
whether a call succeeds or not.
-/

set_option autoImplicit false

namespace ChunkStore

/-- A law that lets directories be made, and data files and descriptions be copied and be cut
short. -/
structure Permits (law : Location → Node → Prop) : Prop where
  directory : ∀ text above number, law (.given text :: above) (.directory number)
  data : ∀ home segment, law (dataOf home segment) .data
  cutData : ∀ home segment, law (dataOf home segment) .fragment
  copiedDescription : ∀ source target node,
    law (descriptionOf source) node → law (descriptionOf target) node
  cutDescription : ∀ home, law (descriptionOf home) .fragment

namespace Disk

/-- All that stands on a disk may stand where it does. -/
def Obeys (law : Location → Node → Prop) (disk : Disk) : Prop :=
  ∀ location node, disk.nodes location = some node → law location node

variable {law : Location → Node → Prop} {disk after : Disk}

theorem Obeys.put (h : disk.Obeys law) {location : Location} {node : Node}
    (hnode : law location node) : (disk.put location node).Obeys law := by
  intro other there hother
  by_cases heq : other = location
  · subst heq
    rw [nodes_put_self] at hother
    rw [← Option.some.inj hother]
    exact hnode
  · rw [nodes_put_of_ne disk node heq] at hother
    exact h other there hother

theorem Obeys.of_write (h : disk.Obeys law) {location : Location} {node : Node}
    (hwrite : disk.write location node = .ok after) (hnode : law location node) :
    after.Obeys law := by
  obtain ⟨rfl, -, -⟩ := write_inv hwrite
  exact h.put hnode

theorem Obeys.of_gains (h : disk.Obeys law) (hlaw : Permits law)
    (hgains : disk.GainsDirectories after) : after.Obeys law := by
  intro location node hnode
  rcases hgains.nodes location with hsame | ⟨-, ⟨number, hmade⟩, text, above, rfl⟩
  · rw [hsame] at hnode
    exact h location node hnode
  · rw [hmade] at hnode
    rw [← Option.some.inj hnode]
    exact hlaw.directory text above number

theorem Obeys.putData (h : disk.Obeys law) (hlaw : Permits law) (there : Location)
    (segments : List Index.Segment) : (disk.putData there segments).Obeys law := by
  intro location node hnode
  rcases nodes_putData there segments disk location with hsame | ⟨segment, -, rfl, hput⟩
  · rw [hsame] at hnode
    exact h location node hnode
  · rw [hput] at hnode
    rw [← Option.some.inj hnode]
    exact hlaw.data there segment

theorem Obeys.of_publish (h : disk.Obeys law) (hlaw : Permits law) {home : Location}
    {known : List Index.Segment} {commit : Commit}
    (hcommit : law (descriptionOf home) (.description commit))
    (hpublish : disk.publish home known commit = .ok after) : after.Obeys law := by
  unfold publish at hpublish
  split at hpublish
  · exact absurd hpublish (by simp)
  · obtain ⟨written, hwrite, rfl⟩ := map_eq_ok_iff.1 hpublish
    exact (h.of_write hwrite hcommit).putData hlaw home _
  · exact absurd hpublish (by simp)

theorem Obeys.cutData (h : disk.Obeys law) (hlaw : Permits law) (there : Location)
    (segment : Index.Segment) : (disk.cutData there segment).Obeys law := by
  intro location node hnode
  rcases nodes_cutData disk there segment location with hsame | ⟨other, rfl, hcut⟩
  · rw [hsame] at hnode
    exact h location node hnode
  · rw [hcut] at hnode
    rw [← Option.some.inj hnode]
    exact hlaw.cutData there other

theorem Obeys.copySegments (h : disk.Obeys law) (hlaw : Permits law) (source target : Location)
    (segments : List Index.Segment) (room : Option Nat) :
    (disk.copySegments source target segments room).2.Obeys law := by
  refine copySegments_induction
    (motive := fun before after => before.Obeys law → after.Obeys law)
    (fun _ h => h) (fun _ _ _ h h' hfirst => h' (h hfirst)) ?_ segments room disk h
  intro segment breaksOff disk h
  rcases copyData_cases source target segment breaksOff disk with hsame | hput | hcut
  · rw [hsame]
    exact h
  · rw [hput]
    exact h.put (hlaw.data target segment)
  · rw [hcut]
    exact h.cutData hlaw target segment

theorem Obeys.copyDescription (h : disk.Obeys law) (hlaw : Permits law)
    (source target : Location) (breaksOff : Bool) :
    (disk.copyDescription source target breaksOff).2.Obeys law := by
  rcases copyDescription_cases source target breaksOff disk with hsame | ⟨-, node, hput, hnode⟩
  · rw [hsame]
    exact h
  · rw [hput]
    apply h.put
    rcases hnode with rfl | hsource
    · exact hlaw.cutDescription target
    · exact hlaw.copiedDescription source target node (h _ node hsource)

theorem Obeys.makeDirectories (h : disk.Obeys law) (hlaw : Permits law) (path : Path) :
    (disk.makeDirectories path).2.Obeys law :=
  h.of_gains hlaw (gainsDirectories_makeDirectories disk path)

theorem Obeys.loadOrCreate (h : disk.Obeys law) (hlaw : Permits law)
    (hempty : ∀ home, law (descriptionOf home) (.description ⟨[], none⟩)) (home : Location) :
    (disk.loadOrCreate home).2.Obeys law := by
  unfold Disk.loadOrCreate
  split
  · split
    · next hpublish => exact h.of_publish hlaw (hempty home) hpublish
    · exact h
  · exact h

end Disk

namespace Engine

variable {law : Location → Node → Prop} {disk : Disk}

theorem obeys_copyCommit (h : disk.Obeys law) (hlaw : Permits law) (path : String)
    (source target : Location) (commit : Commit) :
    (copyCommit path source target commit disk).2.Obeys law := by
  have hsegments := h.copySegments hlaw source target commit.segments disk.trouble
  obtain ⟨copied, rfl, hsame | ⟨breaksOff, hdescription⟩⟩ :=
    copyCommit_cases path source target commit disk
  · rw [hsame]
    exact hsegments
  · rw [hdescription]
    exact hsegments.copyDescription hlaw source target breaksOff

/-- A save keeps to a law. -/
theorem obeys_save (h : disk.Obeys law) (hlaw : Permits law) (engine : Engine) (path : String) :
    (engine.save path disk).2.Obeys law := by
  have hmade := h.makeDirectories hlaw (.ofText path)
  rcases engine.save_cases path disk with hsaved | ⟨source, target, -, -, -, hsaved⟩
  · rw [hsaved]
    exact hmade
  · rw [hsaved]
    unfold copyIndex
    split
    · exact obeys_copyCommit hmade hlaw engine.path source target _
    · exact obeys_copyCommit hmade hlaw engine.path source target _
    · exact hmade

/-- So does an opening, if an empty index may be made. -/
theorem obeys_open (h : disk.Obeys law) (hlaw : Permits law)
    (hempty : ∀ home, law (descriptionOf home) (.description ⟨[], none⟩)) (path : String)
    (settings : Settings) : (Engine.open path settings disk).2.Obeys law := by
  have hmade := h.makeDirectories hlaw (.ofText path)
  unfold Engine.open
  split
  · exact h
  · split
    · next hmake =>
      rw [hmake] at hmade
      exact hmade
    · next made hmake =>
      rw [hmake] at hmade
      split
      · exact hmade
      · next home hlocate =>
        split
        · exact hmade
        · have hloaded := hmade.loadOrCreate hlaw hempty home
          unfold openAt
          split
          · next hload =>
            rw [hload] at hloaded
            exact hloaded
          · next commit loaded hload =>
            rw [hload] at hloaded
            repeat' split
            all_goals exact hloaded

end Engine

end ChunkStore
