import ChunkStore.Proofs.Disk.FailedDirectories
import ChunkStore.Proofs.Engine.Committed
import ChunkStore.Proofs.Engine.LocalCalls

/-!
# What a save that fails leaves behind

A save makes directories, copies data files and, last of all, the description.  A file that cannot
be written stays as it was, so a save that fails at one leaves directories behind, and data files in
one of them.  But a file is emptied before it is written: where copying breaks off in the middle of
one, a fragment of it is left, be it a data file or the description.  What is left of a description
can still say all that it was to say, if no more than its line end is missing.

All this is where the path of the save leads.  Indexes elsewhere are as they were.
-/

set_option autoImplicit false

namespace ChunkStore

namespace Disk

/-- No data file in a directory was cut short. -/
def IsWhole (disk : Disk) (home : Location) : Prop :=
  ∀ segment node, disk.nodes (dataOf home segment) = some node → node = .data

/-- The description of an index was copied over that of another one, up to its line end. -/
def CopiesToLineEnd (source home : Location) (before after : Disk) : Prop :=
  before.cutsLineEnd = true ∧ ∃ node, before.nodes (descriptionOf source) = some node ∧
    (∀ number, node ≠ .directory number) ∧ after.nodes (descriptionOf home) = some node

/-- What is left in a directory to which an index was copied from another one: data files may have
come to it, and if copying broke off, data files and the description may have been cut short. -/
structure LeftAt (broken : Prop) (source home : Location) (before after : Disk) : Prop where
  directory : after.nodes home = before.nodes home
  protection : after.isProtected (descriptionOf home) = before.isProtected (descriptionOf home)
  data : ∀ segment, after.nodes (dataOf home segment) = before.nodes (dataOf home segment) ∨
    after.nodes (dataOf home segment) = some .data ∨
    broken ∧ after.nodes (dataOf home segment) = some .fragment
  description : after.nodes (descriptionOf home) = before.nodes (descriptionOf home) ∨
    broken ∧ (after.nodes (descriptionOf home) = some .fragment ∨
      before.CopiesToLineEnd source home after)

/-- A disk on which nothing was written but files of the index in one directory, to which an index
was copied from another one. -/
structure WritesLeftovers (broken : Prop) (source there : Location) (before after : Disk) :
    Prop where
  writes : before.WritesIndex there after
  left : before.LeftAt broken source there after

/-- What a save that fails can leave behind: directories, and files in the one to which the path
leads. -/
def LeavesFiles (broken : Prop) (source : Location) (path : Path) (disk after : Disk) : Prop :=
  ∃ made, disk.GainsDirectories made ∧ (after = made ∨ ∃ there number, source ≠ there ∧
    made.locate path = .ok there ∧ made.nodes there = some (.directory number) ∧
      made.WritesLeftovers broken source there after)

variable {disk after made first second : Disk} {home there source target : Location} {path : Path}
  {broken : Prop}

/-- A description that was a file was there before directories were made. -/
theorem CopiesToLineEnd.of_gains (h : made.CopiesToLineEnd source home after)
    (hgains : disk.GainsDirectories made) : disk.CopiesToLineEnd source home after := by
  obtain ⟨hends, node, hsource, hfile, hcopied⟩ := h
  refine ⟨by rw [← hgains.cutsLineEnd, hends], node, ?_, hfile, hcopied⟩
  rcases hgains.nodes (descriptionOf source) with hsame | ⟨-, ⟨number, hdirectory⟩, -⟩
  · rw [← hsame, hsource]
  · rw [hsource] at hdirectory
    exact absurd (Option.some.inj hdirectory) (hfile number)

theorem LeftAt.of_gains (h : made.LeftAt broken source home after)
    (hgains : disk.GainsDirectories made) (hsame : disk.SameIndex home made) :
    disk.LeftAt broken source home after where
  directory := h.directory.trans hsame.directory
  protection := h.protection.trans hsame.protection
  data := fun segment => by
    rw [← hsame.data]
    exact h.data segment
  description := by
    rw [← hsame.description]
    exact h.description.imp_right fun ⟨hbroken, hcut⟩ =>
      ⟨hbroken, hcut.imp_right fun hcopied => hcopied.of_gains hgains⟩

/-- The description of a commit that was copied up to its line end says all of it. -/
theorem CopiesToLineEnd.readDescription (h : disk.CopiesToLineEnd source home after) :
    after.readDescription home = disk.readDescription source := by
  obtain ⟨-, node, hsource, -, hcopied⟩ := h
  unfold Disk.readDescription
  rw [hcopied, hsource]

/-! ### Copying -/

/-- A copy that does not break off writes a data file or nothing. -/
theorem IsWhole.copyData_cases (hwhole : disk.IsWhole source) {segment : Index.Segment}
    {breaksOff : Bool} {result : Except DiskFault Unit}
    (h : disk.copyData source target segment breaksOff = (result, after))
    (hresult : result ≠ .error .noSpace) :
    after = disk ∨ after = disk.put (dataOf target segment) .data := by
  unfold copyData at h
  split at h
  · exact .inl (Prod.mk.inj h).2.symm
  · next node hnode =>
    obtain rfl := hwhole segment node hnode
    split at h
    · exact .inl (Prod.mk.inj h).2.symm
    · next hwrite =>
      obtain ⟨rfl, -, -⟩ := write_inv hwrite
      split at h
      · exact absurd (Prod.mk.inj h).1.symm hresult
      · exact .inr (Prod.mk.inj h).2.symm

/-- What was copied without breaking off was not cut short. -/
theorem IsWhole.nodes_copySegments (hwhole : disk.IsWhole source) (hother : source ≠ target)
    {segments : List Index.Segment} {room : Option Nat} {result : Except DiskFault Unit}
    (h : disk.copySegments source target segments room = (result, after))
    (hresult : result ≠ .error .noSpace) (other : Index.Segment) :
    after.nodes (dataOf target other) = disk.nodes (dataOf target other) ∨
      after.nodes (dataOf target other) = some .data := by
  induction segments generalizing room disk with
  | nil =>
    rw [← (Prod.mk.inj h).2]
    exact .inl rfl
  | cons segment segments ih =>
    have hkept : ∀ copied, copied = disk ∨ copied = disk.put (dataOf target segment) .data →
        copied.nodes (dataOf target other) = disk.nodes (dataOf target other) ∨
          copied.nodes (dataOf target other) = some .data := by
      rintro copied (rfl | rfl)
      · exact .inl rfl
      · by_cases heq : dataOf target other = dataOf target segment
        · rw [heq]
          exact .inr (nodes_put_self ..)
        · exact .inl (nodes_put_of_ne disk .data heq)
    unfold copySegments at h
    split at h
    · next fault failed hfailed =>
      obtain ⟨rfl, rfl⟩ := Prod.mk.inj h
      exact hkept _ (hwhole.copyData_cases hfailed (by simpa using hresult))
    · next copied hcopied =>
      have hcases := hwhole.copyData_cases hcopied (by simp)
      have hwhole' : copied.IsWhole source := by
        rcases hcases with rfl | rfl
        · exact hwhole
        · intro other node hnode
          rw [nodes_put_of_ne disk .data fun heq => hother (dataOf_inj heq).1] at hnode
          exact hwhole other node hnode
      rcases ih hwhole' h with hsame | hdata
      · rw [hsame]
        exact hkept _ hcases
      · exact .inr hdata

theorem GainsDirectories.leavesFiles (h : disk.GainsDirectories after) :
    disk.LeavesFiles broken source path after :=
  ⟨after, h, .inl rfl⟩

theorem LeavesFiles.keepsDirectories (h : disk.LeavesFiles broken source path after) :
    disk.KeepsDirectories after := by
  obtain ⟨made, hgains, rfl | ⟨there, _, -, -, -, hwrites⟩⟩ := h
  · exact hgains.keepsDirectories
  · intro location number hnamed hnode
    exact hwrites.writes.keepsDirectories location number hnamed
      (hgains.keepsDirectories location number hnamed hnode)

theorem LeavesFiles.trouble (h : disk.LeavesFiles broken source path after) :
    after.trouble = disk.trouble := by
  obtain ⟨made, hgains, rfl | ⟨there, _, -, -, -, hwrites⟩⟩ := h
  · exact hgains.trouble
  · exact hwrites.writes.trouble.trans hgains.trouble

theorem LeavesFiles.isProtected (h : disk.LeavesFiles broken source path after) :
    after.isProtected = disk.isProtected := by
  obtain ⟨made, hgains, rfl | ⟨there, _, -, -, -, hwrites⟩⟩ := h
  · exact hgains.isProtected
  · exact hwrites.writes.isProtected.trans hgains.isProtected

/-- Where the path leads after directories were made, it leads once files are left there. -/
theorem WritesLeftovers.locate {number : Nat} (h : made.WritesLeftovers broken source there after)
    (hthere : made.locate path = .ok there) (hnode : made.nodes there = some (.directory number)) :
    after.locate path = .ok there :=
  locate_of_keepsDirectories h.writes.keepsDirectories hthere hnode

/-- An index elsewhere than where the path leads is as it was, as is the one that was copied. -/
theorem LeavesFiles.sameIndex (h : disk.LeavesFiles broken source path after)
    (hindex : disk.HasIndex home) (hspared : home = source ∨ after.locate path ≠ .ok home) :
    disk.SameIndex home after := by
  obtain ⟨made, hgains, hleft⟩ := h
  have hmade := hindex.gainsDirectories hgains
  rcases hleft with rfl | ⟨there, number, hother, hthere, hnode, hwrites⟩
  · exact hmade
  · have hne : there ≠ home := by
      rintro rfl
      rcases hspared with rfl | hspared
      · exact hother rfl
      · exact hspared (hwrites.locate hthere hnode)
    exact hmade.trans ((hindex.of_sameIndex hmade).writesIndex hwrites.writes hne)

/-- What stands in place of a description. -/
theorem LeavesFiles.nodes_descriptionOf (h : disk.LeavesFiles broken source path after)
    (home : Location) : after.nodes (descriptionOf home) = disk.nodes (descriptionOf home) ∨
      (disk.nodes (descriptionOf home) = none ∧
        ∃ number, after.nodes (descriptionOf home) = some (.directory number)) ∨
      broken ∧ after.locate path = .ok home ∧
        (after.nodes (descriptionOf home) = some .fragment ∨
          disk.CopiesToLineEnd source home after) := by
  obtain ⟨made, hgains, hleft⟩ := h
  have hmade : made.nodes (descriptionOf home) = disk.nodes (descriptionOf home) ∨
      disk.nodes (descriptionOf home) = none ∧
        ∃ number, made.nodes (descriptionOf home) = some (.directory number) :=
    (hgains.nodes (descriptionOf home)).imp_right fun ⟨hnone, hdirectory, _⟩ => ⟨hnone, hdirectory⟩
  rcases hleft with rfl | ⟨there, number, -, hthere, hnode, hwrites⟩
  · exact hmade.imp_right .inl
  · by_cases heq : there = home
    · subst heq
      rcases hwrites.left.description with hsame | ⟨hbroken, hcut⟩
      · rw [hsame]
        exact hmade.imp_right .inl
      · exact .inr (.inr ⟨hbroken, hwrites.locate hthere hnode,
          hcut.imp_right fun hcopied => hcopied.of_gains hgains⟩)
    · rw [hwrites.writes.nodes_descriptionOf heq]
      exact hmade.imp_right .inl

/-- A data file stays, unless it was cut short where the path leads. -/
theorem LeavesFiles.nodes_dataOf (h : disk.LeavesFiles broken source path after)
    {segment : Index.Segment} (hdata : disk.nodes (dataOf home segment) = some .data) :
    after.nodes (dataOf home segment) = some .data ∨
      broken ∧ after.locate path = .ok home ∧
        after.nodes (dataOf home segment) = some .fragment := by
  obtain ⟨made, hgains, hleft⟩ := h
  rw [← hgains.nodes_dataOf] at hdata
  rcases hleft with rfl | ⟨there, number, -, hthere, hnode, hwrites⟩
  · exact .inl hdata
  · by_cases heq : there = home
    · subst heq
      rcases hwrites.left.data segment with hsame | hput | ⟨hbroken, hcut⟩
      · rw [hsame]
        exact .inl hdata
      · exact .inl hput
      · exact .inr ⟨hbroken, hwrites.locate hthere hnode, hcut⟩
    · rw [hwrites.writes.elsewhere _ (descriptionOf_ne_dataOf there home segment).symm
        fun other hother => heq (dataOf_inj hother).1.symm]
      exact .inl hdata

/-- No commit appears where none was, unless it was copied up to its line end. -/
theorem LeavesFiles.readDescription (h : disk.LeavesFiles broken source path after)
    {commit : Commit} (hread : after.readDescription home = .ok commit) :
    disk.readDescription home = .ok commit ∨
      broken ∧ after.locate path = .ok home ∧ disk.CopiesToLineEnd source home after ∧
        disk.readDescription source = .ok commit := by
  rcases h.nodes_descriptionOf home with
    hsame | ⟨-, number, hdirectory⟩ | ⟨hbroken, hthere, hfragment | hcopied⟩
  · unfold Disk.readDescription at hread ⊢
    rw [hsame] at hread
    exact .inl hread
  · unfold Disk.readDescription at hread
    rw [hdirectory] at hread
    exact absurd hread (by simp)
  · unfold Disk.readDescription at hread
    rw [hfragment] at hread
    exact absurd hread (by simp)
  · rw [hcopied.readDescription] at hread
    exact .inr ⟨hbroken, hthere, hcopied, hread⟩

theorem GainsDirectories.readDescription (h : disk.GainsDirectories made) {commit : Commit}
    (hread : made.readDescription home = .ok commit) : disk.readDescription home = .ok commit := by
  have hleft : disk.LeavesFiles False [] [] made := h.leavesFiles
  exact (hleft.readDescription hread).resolve_right fun hcopied => hcopied.1

end Disk

namespace Engine

variable {engine : Engine} {disk after made : Disk} {home : Location} {path target : String}
  {fault : EngineFault}

end Engine

end ChunkStore
