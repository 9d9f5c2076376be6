import ChunkStore.Disk.IndexFiles
import ChunkStore.Proofs.Disk.Directories

/-!
# Writing the files of one index leaves the others alone

Committing to an index and copying into it write its description and its data files and nothing
else, and never in the place of a directory that a path can lead to.  So the index in another
directory is as before, and paths to directories lead where they led.
-/

set_option autoImplicit false

namespace ChunkStore

theorem descriptionOf_ne_dataOf (home there : Location) (segment : Index.Segment) :
    descriptionOf home ≠ dataOf there segment := by
  intro heq
  exact absurd (List.cons.inj heq).1 (by simp)

theorem descriptionOf_inj {home there : Location} (h : descriptionOf home = descriptionOf there) :
    home = there :=
  (List.cons.inj h).2

theorem dataOf_inj {home there : Location} {segment segment' : Index.Segment}
    (h : dataOf home segment = dataOf there segment') : home = there ∧ segment = segment' := by
  obtain ⟨hname, hrest⟩ := List.cons.inj h
  exact ⟨hrest, FileName.data.inj hname⟩

theorem Location.IsNamed.ne_dataOf {location : Location} (h : location.IsNamed)
    (home : Location) (segment : Index.Segment) : location ≠ dataOf home segment := by
  rintro rfl
  obtain ⟨text, htext⟩ := h (.data segment) List.mem_cons_self
  exact absurd htext (by simp)

namespace Disk

/-- The index in a directory is the same on another disk, and can be written there as well. -/
structure SameIndex (home : Location) (before after : Disk) : Prop where
  directory : after.nodes home = before.nodes home
  description : after.nodes (descriptionOf home) = before.nodes (descriptionOf home)
  data : ∀ segment, after.nodes (dataOf home segment) = before.nodes (dataOf home segment)
  protection : after.isProtected (descriptionOf home) = before.isProtected (descriptionOf home)

/-- A disk on which nothing but files of the index in one directory was written. -/
structure WritesIndex (there : Location) (before after : Disk) : Prop where
  elsewhere : ∀ location, location ≠ descriptionOf there →
    (∀ segment, location ≠ dataOf there segment) → after.nodes location = before.nodes location
  description : ∀ number, before.nodes (descriptionOf there) = some (.directory number) →
    after.nodes (descriptionOf there) = some (.directory number)
  isProtected : after.isProtected = before.isProtected
  held : after.held = before.held
  trouble : after.trouble = before.trouble
  cutsLineEnd : after.cutsLineEnd = before.cutsLineEnd

theorem SameIndex.refl (home : Location) (disk : Disk) : disk.SameIndex home disk :=
  ⟨rfl, rfl, fun _ => rfl, rfl⟩

theorem SameIndex.trans {home : Location} {first second third : Disk}
    (h : first.SameIndex home second) (h' : second.SameIndex home third) :
    first.SameIndex home third where
  directory := h'.directory.trans h.directory
  description := h'.description.trans h.description
  data := fun segment => (h'.data segment).trans (h.data segment)
  protection := h'.protection.trans h.protection

theorem WritesIndex.refl (there : Location) (disk : Disk) : disk.WritesIndex there disk :=
  ⟨fun _ _ _ => rfl, fun _ h => h, rfl, rfl, rfl, rfl⟩

theorem WritesIndex.trans {there : Location} {first second third : Disk}
    (h : first.WritesIndex there second) (h' : second.WritesIndex there third) :
    first.WritesIndex there third where
  elsewhere := fun location hne hdata =>
    (h'.elsewhere location hne hdata).trans (h.elsewhere location hne hdata)
  description := fun number hnode => h'.description number (h.description number hnode)
  isProtected := h'.isProtected.trans h.isProtected
  held := h'.held.trans h.held
  trouble := h'.trouble.trans h.trouble
  cutsLineEnd := h'.cutsLineEnd.trans h.cutsLineEnd

theorem WritesIndex.keepsDirectories {there : Location} {before after : Disk}
    (h : before.WritesIndex there after) : before.KeepsDirectories after := by
  intro location number hnamed hnode
  by_cases heq : location = descriptionOf there
  · subst heq
    exact h.description number hnode
  · rw [h.elsewhere location heq (hnamed.ne_dataOf there), hnode]

/-- The index in another directory is as before. -/
theorem WritesIndex.sameIndex {there home : Location} {before after : Disk} {number : Nat}
    (h : before.WritesIndex there after) (hother : there ≠ home) (hnamed : home.IsNamed)
    (hdirectory : before.nodes home = some (.directory number)) : before.SameIndex home after where
  directory := by rw [h.keepsDirectories home number hnamed hdirectory, hdirectory]
  description := by
    apply h.elsewhere
    · exact fun heq => hother (descriptionOf_inj heq).symm
    · exact descriptionOf_ne_dataOf home there
  data := by
    intro segment
    apply h.elsewhere
    · exact (descriptionOf_ne_dataOf there home segment).symm
    · exact fun other heq => hother (dataOf_inj heq).1.symm
  protection := by rw [h.isProtected]

theorem GainsDirectories.nodes_dataOf {before after : Disk} (h : before.GainsDirectories after)
    (home : Location) (segment : Index.Segment) :
    after.nodes (dataOf home segment) = before.nodes (dataOf home segment) := by
  refine (h.nodes (dataOf home segment)).resolve_right ?_
  rintro ⟨-, -, text, above, heq⟩
  exact absurd (List.cons.inj heq).1 (by simp)

/-- Where directories are made, an index stays as it is. -/
theorem GainsDirectories.sameIndex {home : Location} {before after : Disk}
    (h : before.GainsDirectories after) (hdirectory : before.nodes home ≠ none)
    (hdescription : before.nodes (descriptionOf home) ≠ none) : before.SameIndex home after where
  directory := (h.nodes home).resolve_right fun hnew => hdirectory hnew.1
  description := (h.nodes (descriptionOf home)).resolve_right fun hnew => hdescription hnew.1
  data := h.nodes_dataOf home
  protection := by rw [h.isProtected]

/-! ### Writing -/

/-- A file can be written at a location: it is not protected, and no directory is there. -/
def CanWrite (disk : Disk) (location : Location) : Prop :=
  disk.isProtected location = false ∧ ∀ number, disk.nodes location ≠ some (.directory number)

theorem write_inv {disk after : Disk} {location : Location} {node : Node}
    (h : disk.write location node = .ok after) :
    after = disk.put location node ∧ disk.isProtected location = false ∧
      ∀ number, disk.nodes location ≠ some (.directory number) := by
  unfold write at h
  split at h
  · exact absurd h (by simp)
  · next hnode =>
    split at h
    · exact absurd h (by simp)
    · next hwritable =>
      exact ⟨(Except.ok.inj h).symm, Bool.eq_false_iff.2 hwritable, hnode⟩

theorem write_eq_ok {disk : Disk} {location : Location} (node : Node)
    (hwritable : disk.isProtected location = false)
    (hnode : ∀ number, disk.nodes location ≠ some (.directory number)) :
    disk.write location node = .ok (disk.put location node) := by
  unfold write
  split
  · next number heq => exact absurd heq (hnode number)
  · rw [hwritable]
    rfl

theorem writesIndex_put_dataOf (disk : Disk) (there : Location) (segment : Index.Segment)
    (node : Node) : disk.WritesIndex there (disk.put (dataOf there segment) node) where
  elsewhere := fun _ _ hdata => nodes_put_of_ne disk node (hdata segment)
  description := fun number hnode => by
    rw [nodes_put_of_ne disk node (descriptionOf_ne_dataOf there there segment), hnode]
  isProtected := rfl
  held := rfl
  trouble := rfl
  cutsLineEnd := rfl

theorem writesIndex_write_descriptionOf {disk after : Disk} {there : Location} {node : Node}
    (h : disk.write (descriptionOf there) node = .ok after) : disk.WritesIndex there after := by
  obtain ⟨rfl, -, hnode⟩ := write_inv h
  exact ⟨fun _ hne _ => nodes_put_of_ne disk node hne,
    fun number hdirectory => absurd hdirectory (hnode number), rfl, rfl, rfl, rfl⟩

/-- Nothing but files of an index is written, and where a description is replaced, a file is put in
the place of a file. -/
structure WritesFiles (there : Location) (before after : Disk) : Prop where
  writes : before.WritesIndex there after
  canWrite : after.CanWrite (descriptionOf there) ↔ before.CanWrite (descriptionOf there)
  description : before.nodes (descriptionOf there) ≠ none → after.nodes (descriptionOf there) ≠ none

theorem WritesFiles.refl (there : Location) (disk : Disk) : disk.WritesFiles there disk :=
  ⟨.refl there disk, .rfl, fun h => h⟩

theorem WritesFiles.trans {there : Location} {first second third : Disk}
    (h : first.WritesFiles there second) (h' : second.WritesFiles there third) :
    first.WritesFiles there third :=
  ⟨h.writes.trans h'.writes, h'.canWrite.trans h.canWrite,
    fun hnode => h'.description (h.description hnode)⟩

/-- Data files are written and nothing else. -/
theorem WritesIndex.writesFiles {there : Location} {before after : Disk}
    (h : before.WritesIndex there after)
    (hsame : after.nodes (descriptionOf there) = before.nodes (descriptionOf there)) :
    before.WritesFiles there after where
  writes := h
  canWrite := by
    unfold CanWrite
    rw [hsame, h.isProtected]
  description := fun hnode => by rwa [hsame]

/-! ### Committing -/

theorem nodes_putData (there : Location) (segments : List Index.Segment) (disk : Disk)
    (location : Location) :
    (disk.putData there segments).nodes location = disk.nodes location ∨
      ∃ segment ∈ segments, location = dataOf there segment ∧
        (disk.putData there segments).nodes location = some .data := by
  unfold putData
  dsimp only
  split
  · next segment above =>
    split
    · next hthere =>
      obtain ⟨rfl, hsegment⟩ := hthere
      exact .inr ⟨segment, hsegment, rfl, rfl⟩
    · exact .inl rfl
  · exact .inl rfl

theorem putData_nil (there : Location) (disk : Disk) : disk.putData there [] = disk := by
  have hnodes : (disk.putData there []).nodes = disk.nodes := by
    funext location
    exact (nodes_putData there [] disk location).resolve_right (by simp)
  show { disk with nodes := (disk.putData there []).nodes } = disk
  rw [hnodes]

theorem nodes_putData_descriptionOf (there : Location) (segments : List Index.Segment)
    (disk : Disk) :
    (disk.putData there segments).nodes (descriptionOf there) =
      disk.nodes (descriptionOf there) :=
  rfl

theorem nodes_putData_dataOf (there : Location) (segments : List Index.Segment) (disk : Disk)
    (segment : Index.Segment) :
    (disk.putData there segments).nodes (dataOf there segment) =
      if segment ∈ segments then some .data else disk.nodes (dataOf there segment) := by
  simp [putData, dataOf]

theorem writesIndex_putData (there : Location) (segments : List Index.Segment) (disk : Disk) :
    disk.WritesIndex there (disk.putData there segments) where
  elsewhere := fun location _ hdata => (nodes_putData there segments disk location).resolve_right
    fun ⟨segment, _, heq, _⟩ => hdata segment heq
  description := fun _ hnode => hnode
  isProtected := rfl
  held := rfl
  trouble := rfl
  cutsLineEnd := rfl

/-- All that a commit that succeeds asks for and does. -/
theorem publish_inv {disk after : Disk} {home : Location} {known : List Index.Segment}
    {commit : Commit} (h : disk.publish home known commit = .ok after) :
    disk.WritesIndex home after ∧ disk.isProtected (descriptionOf home) = false ∧
      after.nodes (descriptionOf home) = some (.description commit) ∧
      ∀ segment ∈ commit.segments,
        (segment ∈ known → disk.nodes (dataOf home segment) = some .data) →
          after.nodes (dataOf home segment) = some .data := by
  unfold publish at h
  split at h
  · exact absurd h (by simp)
  · obtain ⟨written, hwrite, rfl⟩ := map_eq_ok_iff.1 h
    generalize hadded : commit.segments.filter (fun segment => !known.contains segment) = added
    have hdata := writesIndex_putData home added written
    obtain ⟨rfl, hwritable, -⟩ := write_inv hwrite
    refine ⟨(writesIndex_write_descriptionOf hwrite).trans hdata, hwritable, ?_, ?_⟩
    · rw [nodes_putData_descriptionOf, nodes_put_self]
    · intro segment hsegment hknown
      rw [nodes_putData_dataOf,
        nodes_put_of_ne _ _ (descriptionOf_ne_dataOf home home segment).symm]
      by_cases hmem : segment ∈ known
      · rw [hknown hmem, ite_self]
      · have hnew : segment ∈ added := by
          rw [← hadded, List.mem_filter]
          exact ⟨hsegment, by simpa using hmem⟩
        rw [if_pos hnew]
  · exact absurd h (by simp)

/-- A commit succeeds where the description can be written. -/
theorem exists_publish_eq_ok {disk : Disk} {home : Location} {number : Nat}
    (hdirectory : disk.nodes home = some (.directory number))
    (hwritable : disk.isProtected (descriptionOf home) = false)
    (hnode : ∀ number, disk.nodes (descriptionOf home) ≠ some (.directory number))
    (known : List Index.Segment) (commit : Commit) :
    ∃ after, disk.publish home known commit = .ok after := by
  unfold publish
  rw [hdirectory, write_eq_ok (.description commit) hwritable hnode]
  exact ⟨_, rfl⟩

theorem canWrite_of_publish {disk after : Disk} {home : Location} {known : List Index.Segment}
    {commit : Commit} (h : disk.publish home known commit = .ok after) :
    disk.CanWrite (descriptionOf home) := by
  obtain ⟨hwrites, hwritable, hnode, -⟩ := publish_inv h
  refine ⟨hwritable, fun number hdirectory => ?_⟩
  rw [hwrites.description number hdirectory] at hnode
  exact absurd hnode (by simp)

theorem writesFiles_publish {disk after : Disk} {home : Location} {known : List Index.Segment}
    {commit : Commit} (h : disk.publish home known commit = .ok after) :
    disk.WritesFiles home after := by
  have hbefore := canWrite_of_publish h
  obtain ⟨hwrites, hwritable, hnode, -⟩ := publish_inv h
  have hafter : after.CanWrite (descriptionOf home) :=
    ⟨by rw [hwrites.isProtected, hwritable], by simp [hnode]⟩
  exact ⟨hwrites, iff_of_true hafter hbefore, fun _ => by simp [hnode]⟩

/-! ### Copying -/

theorem isCutWith_eq_true_iff {disk : Disk} {home location : Location} {segment : Index.Segment} :
    disk.isCutWith home segment location = true ↔
      ∃ other, location = dataOf home other ∧ disk.sharesParts segment other = true := by
  unfold isCutWith dataOf
  split
  · simp
  · next hname =>
    refine ⟨fun h => absurd h (by simp), ?_⟩
    rintro ⟨other, rfl, -⟩
    exact absurd rfl (hname other home)

/-- What a cut leaves of the data files in the directory, and that it leaves all else alone. -/
theorem nodes_cutData (disk : Disk) (there : Location) (segment : Index.Segment)
    (location : Location) :
    (disk.cutData there segment).nodes location = disk.nodes location ∨
      ∃ other, location = dataOf there other ∧
        (disk.cutData there segment).nodes location = some .fragment := by
  unfold cutData put
  dsimp only
  split
  · next heq => exact .inr ⟨segment, heq, rfl⟩
  · split
    · next hshares =>
      obtain ⟨other, heq, -⟩ := isCutWith_eq_true_iff.1 hshares
      cases disk.nodes location with
      | none => exact .inl rfl
      | some node => exact .inr ⟨other, heq, rfl⟩
    · exact .inl rfl

theorem writesIndex_cutData (disk : Disk) (there : Location) (segment : Index.Segment) :
    disk.WritesIndex there (disk.cutData there segment) where
  elsewhere := fun location _ hdata => (nodes_cutData disk there segment location).resolve_right
    fun ⟨other, heq, _⟩ => hdata other heq
  description := fun number hnode => by
    rw [← hnode]
    exact (nodes_cutData disk there segment (descriptionOf there)).resolve_right
      fun ⟨other, heq, _⟩ => descriptionOf_ne_dataOf there there other heq
  isProtected := rfl
  held := rfl
  trouble := rfl
  cutsLineEnd := rfl

/-- What copying a data file can make of a disk. -/
theorem copyData_cases (source target : Location) (segment : Index.Segment) (breaksOff : Bool)
    (disk : Disk) : (disk.copyData source target segment breaksOff).2 = disk ∨
      (disk.copyData source target segment breaksOff).2 =
        disk.put (dataOf target segment) .data ∨
      (disk.copyData source target segment breaksOff).2 = disk.cutData target segment := by
  unfold copyData
  split
  · exact .inl rfl
  · split
    · exact .inl rfl
    · next hwrite =>
      obtain ⟨rfl, -, -⟩ := write_inv hwrite
      split
      · exact .inr (.inr rfl)
      · dsimp only
        split
        · exact .inr (.inl rfl)
        · exact .inr (.inr rfl)

/-- A data file that is copied is there. -/
theorem copyData_inv {source target : Location} {segment : Index.Segment} {breaksOff : Bool}
    {disk after : Disk} (hsource : disk.nodes (dataOf source segment) = some .data)
    (h : disk.copyData source target segment breaksOff = (.ok (), after)) :
    after = disk.put (dataOf target segment) .data := by
  unfold copyData at h
  rw [hsource] at h
  dsimp only at h
  split at h
  · exact absurd (Prod.mk.inj h).1 (by simp)
  · next hwrite =>
    obtain ⟨rfl, -, -⟩ := write_inv hwrite
    split at h
    · exact absurd (Prod.mk.inj h).1 (by simp)
    · exact (Prod.mk.inj h).2.symm

theorem copyData_eq_ok {source target : Location} {segment : Index.Segment} {disk : Disk}
    (hsource : disk.nodes (dataOf source segment) = some .data)
    (hwrite : disk.CanWrite (dataOf target segment)) :
    disk.copyData source target segment false =
      (.ok (), disk.put (dataOf target segment) .data) := by
  unfold copyData
  simp only [hsource, write_eq_ok .data hwrite.1 hwrite.2]
  rfl

theorem writesIndex_copyData (source target : Location) (segment : Index.Segment)
    (breaksOff : Bool) (disk : Disk) :
    disk.WritesIndex target (disk.copyData source target segment breaksOff).2 := by
  rcases copyData_cases source target segment breaksOff disk with hsame | hput | hcut
  · rw [hsame]
    exact .refl target disk
  · rw [hput]
    exact writesIndex_put_dataOf disk target segment .data
  · rw [hcut]
    exact writesIndex_cutData disk target segment

/-- What each copy of a data file keeps to, copying several ones keeps to. -/
theorem copySegments_induction {source target : Location} {motive : Disk → Disk → Prop}
    (hrefl : ∀ disk, motive disk disk)
    (htrans : ∀ first second third, motive first second → motive second third →
      motive first third)
    (hcopy : ∀ segment breaksOff disk,
      motive disk (disk.copyData source target segment breaksOff).2)
    (segments : List Index.Segment) (room : Option Nat) (disk : Disk) :
    motive disk (disk.copySegments source target segments room).2 := by
  induction segments generalizing room disk with
  | nil => exact hrefl disk
  | cons segment segments ih =>
    have hfirst := hcopy segment (room == some 0) disk
    unfold copySegments
    split
    · next hfailed =>
      rw [hfailed] at hfirst
      exact hfirst
    · next hcopied =>
      rw [hcopied] at hfirst
      exact htrans _ _ _ hfirst (ih _ _)

theorem writesIndex_copySegments (source target : Location) (segments : List Index.Segment)
    (room : Option Nat) (disk : Disk) :
    disk.WritesIndex target (disk.copySegments source target segments room).2 :=
  copySegments_induction (fun disk => .refl target disk) (fun _ _ _ h h' => h.trans h')
    (fun segment breaksOff disk => writesIndex_copyData source target segment breaksOff disk)
    segments room disk

theorem nodes_copySegments_descriptionOf (source target there : Location)
    (segments : List Index.Segment) (room : Option Nat) (disk : Disk) :
    (disk.copySegments source target segments room).2.nodes (descriptionOf there) =
      disk.nodes (descriptionOf there) := by
  refine copySegments_induction
    (motive := fun before after => after.nodes (descriptionOf there) =
      before.nodes (descriptionOf there))
    (fun _ => rfl) (fun _ _ _ h h' => h'.trans h) ?_ segments room disk
  intro segment breaksOff disk
  have hne := descriptionOf_ne_dataOf there target
  rcases copyData_cases source target segment breaksOff disk with hsame | hput | hcut
  · rw [hsame]
  · rw [hput, nodes_put_of_ne _ _ (hne segment)]
  · rw [hcut]
    exact (nodes_cutData disk target segment (descriptionOf there)).resolve_right
      fun ⟨other, heq, _⟩ => hne other heq

theorem writesFiles_copySegments (source target : Location) (segments : List Index.Segment)
    (room : Option Nat) (disk : Disk) :
    disk.WritesFiles target (disk.copySegments source target segments room).2 :=
  (writesIndex_copySegments source target segments room disk).writesFiles
    (nodes_copySegments_descriptionOf source target target segments room disk)

/-- Once data files are copied, they are there. -/
theorem nodes_copySegments {source target : Location} (hother : source ≠ target)
    {segments : List Index.Segment} {room : Option Nat} {disk after : Disk}
    (hsource : ∀ segment ∈ segments, disk.nodes (dataOf source segment) = some .data)
    (h : disk.copySegments source target segments room = (.ok (), after))
    (segment : Index.Segment)
    (hsegment : segment ∈ segments ∨ disk.nodes (dataOf target segment) = some .data) :
    after.nodes (dataOf target segment) = some .data := by
  induction segments generalizing room disk with
  | nil =>
    rw [← (Prod.mk.inj h).2]
    exact hsegment.resolve_left List.not_mem_nil
  | cons first segments ih =>
    unfold copySegments at h
    split at h
    · exact absurd (Prod.mk.inj h).1 (by simp)
    · next copied hcopied =>
      obtain rfl := copyData_inv (hsource first List.mem_cons_self) hcopied
      have hkept : ∀ other ∈ segments,
          (disk.put (dataOf target first) .data).nodes (dataOf source other) = some .data := by
        intro other hmem
        rw [nodes_put_of_ne disk .data fun heq => hother (dataOf_inj heq).1]
        exact hsource other (List.mem_cons_of_mem first hmem)
      refine ih hkept h ?_
      by_cases heq : segment = first
      · subst heq
        exact .inr (nodes_put_self ..)
      · have hne : dataOf target segment ≠ dataOf target first := fun h => heq (dataOf_inj h).2
        rw [nodes_put_of_ne disk .data hne]
        rcases hsegment with hmem | hthere
        · exact .inl ((List.mem_cons.1 hmem).resolve_left heq)
        · exact .inr hthere

/-- The files of an index with certain segments can be written in a directory, and there is room for
them. -/
structure CanWriteIndex (disk : Disk) (home : Location) (segments : List Index.Segment) :
    Prop where
  description : disk.CanWrite (descriptionOf home)
  data : ∀ segment ∈ segments, disk.CanWrite (dataOf home segment)
  room : ∀ room, disk.trouble = some room → segments.length < room

/-- Data files are copied to where the files of an index can be written, and after that its files
can still be written there. -/
theorem exists_copySegments_eq_ok {source target : Location} (hother : source ≠ target)
    {segments all : List Index.Segment} {room : Option Nat} {disk : Disk}
    (hsegments : segments ⊆ all)
    (hsource : ∀ segment ∈ all, disk.nodes (dataOf source segment) = some .data)
    (hwrite : disk.CanWriteIndex target all)
    (hroom : ∀ left, room = some left → segments.length ≤ left) :
    ∃ after, disk.copySegments source target segments room = (.ok (), after) ∧
      after.CanWriteIndex target all := by
  induction segments generalizing room disk with
  | nil => exact ⟨disk, rfl, hwrite⟩
  | cons first segments ih =>
    obtain ⟨hfirst, hrest⟩ := List.cons_subset.1 hsegments
    have hcopied := copyData_eq_ok (hsource first hfirst) (hwrite.data first hfirst)
    have hsource' : ∀ segment ∈ all,
        (disk.put (dataOf target first) .data).nodes (dataOf source segment) = some .data := by
      intro segment hsegment
      rw [nodes_put_of_ne disk .data fun heq => hother (dataOf_inj heq).1]
      exact hsource segment hsegment
    have hwrite' : (disk.put (dataOf target first) .data).CanWriteIndex target all := by
      have hkeeps : ∀ location, disk.CanWrite location →
          (disk.put (dataOf target first) .data).CanWrite location := by
        intro location hlocation
        refine ⟨hlocation.1, ?_⟩
        intro number
        by_cases heq : location = dataOf target first
        · subst heq
          simp
        · rw [nodes_put_of_ne disk .data heq]
          exact hlocation.2 number
      exact ⟨hkeeps _ hwrite.description,
        fun segment hsegment => hkeeps _ (hwrite.data segment hsegment), hwrite.room⟩
    have hroom' : ∀ left, room.map (· - 1) = some left → segments.length ≤ left := by
      intro left hleft
      obtain ⟨before, hbefore, rfl⟩ := Option.map_eq_some_iff.1 hleft
      have hlength := hroom before hbefore
      rw [List.length_cons] at hlength
      omega
    have hnotYet : (room == some 0) = false := by
      rw [beq_eq_false_iff_ne]
      intro hnone
      exact absurd (hroom 0 hnone) (by simp)
    obtain ⟨after, hlater, hafter⟩ := ih hrest hsource' hwrite' hroom'
    refine ⟨after, ?_, hafter⟩
    unfold copySegments
    simp only [hnotYet, hcopied, hlater]

/-- What copying a description can make of a disk. -/
theorem copyDescription_cases (source target : Location) (breaksOff : Bool) (disk : Disk) :
    (disk.copyDescription source target breaksOff).2 = disk ∨
      disk.CanWrite (descriptionOf target) ∧ ∃ node,
        (disk.copyDescription source target breaksOff).2 =
          disk.put (descriptionOf target) node ∧
        (node = .fragment ∨ disk.nodes (descriptionOf source) = some node) := by
  unfold copyDescription
  split
  · exact .inl rfl
  · next node hnode =>
    split
    · exact .inl rfl
    · next hwrite =>
      obtain ⟨rfl, hcanWrite⟩ := write_inv hwrite
      refine .inr ⟨hcanWrite, ?_⟩
      split
      · refine ⟨_, rfl, ?_⟩
        split
        · exact .inr hnode
        · exact .inl rfl
      · exact ⟨node, rfl, .inr hnode⟩

theorem writesIndex_put_descriptionOf {disk : Disk} {there : Location}
    (h : disk.CanWrite (descriptionOf there)) (node : Node) :
    disk.WritesIndex there (disk.put (descriptionOf there) node) where
  elsewhere := fun _ hne _ => nodes_put_of_ne disk node hne
  description := fun number hdirectory => absurd hdirectory (h.2 number)
  isProtected := rfl
  held := rfl
  trouble := rfl
  cutsLineEnd := rfl

theorem writesIndex_copyDescription (source target : Location) (breaksOff : Bool) (disk : Disk) :
    disk.WritesIndex target (disk.copyDescription source target breaksOff).2 := by
  rcases copyDescription_cases source target breaksOff disk with hsame | ⟨hwrite, node, hput, -⟩
  · rw [hsame]
    exact .refl target disk
  · rw [hput]
    exact writesIndex_put_descriptionOf hwrite node

/-- A description that is a file is copied to where a file could be. -/
theorem writesFiles_copyDescription {source : Location} (target : Location) (breaksOff : Bool)
    {disk : Disk}
    (hfile : ∀ number, disk.nodes (descriptionOf source) ≠ some (.directory number)) :
    disk.WritesFiles target (disk.copyDescription source target breaksOff).2 := by
  rcases copyDescription_cases source target breaksOff disk with
    hsame | ⟨hwrite, node, hput, hnode⟩
  · rw [hsame]
    exact .refl target disk
  · have hafter : (disk.put (descriptionOf target) node).CanWrite (descriptionOf target) := by
      refine ⟨hwrite.1, fun number => ?_⟩
      rw [nodes_put_self]
      rcases hnode with rfl | hsource
      · simp
      · rw [← hsource]
        exact hfile number
    rw [hput]
    exact ⟨writesIndex_put_descriptionOf hwrite node, iff_of_true hafter hwrite, fun _ => by simp⟩

/-- Once a description is copied, it is there and can be written. -/
theorem copyDescription_inv {source target : Location} {breaksOff : Bool} {disk after : Disk}
    (h : disk.copyDescription source target breaksOff = (.ok (), after)) :
    after.nodes (descriptionOf target) = disk.nodes (descriptionOf source) ∧
      disk.isProtected (descriptionOf target) = false ∧
      ∀ segment, after.nodes (dataOf target segment) = disk.nodes (dataOf target segment) := by
  unfold copyDescription at h
  split at h
  · exact absurd (Prod.mk.inj h).1 (by simp)
  · next node hnode =>
    split at h
    · exact absurd (Prod.mk.inj h).1 (by simp)
    · next written hwrite =>
      obtain ⟨rfl, hwritable, -⟩ := write_inv hwrite
      split at h
      · exact absurd (Prod.mk.inj h).1 (by simp)
      · rw [← (Prod.mk.inj h).2]
        refine ⟨by rw [nodes_put_self, hnode], hwritable, ?_⟩
        intro segment
        exact nodes_put_of_ne disk node (descriptionOf_ne_dataOf target target segment).symm

end Disk

end ChunkStore
