import ChunkStore.Engine.Saving
import ChunkStore.Proofs.Engine.Opening

/-!
# Saving an index

Saving makes directories and writes files of the index in the target, so it leaves the directory of
the engine as it was, wherever the target lies and whether it succeeds or not.  If it succeeds, the
target holds the index of the engine, whatever was there before.
-/

set_option autoImplicit false

namespace ChunkStore.Engine

open ChunkStore.Index (Contents Manifest)

variable {engine : Engine} {disk : Disk}

/-- Where the files of another index are written, an engine finds its own as before. -/
theorem IsStored.untouched_of_writesIndex {after : Disk} {there : Location}
    (h : engine.IsStored disk) (hother : there ≠ engine.home)
    (hwrites : disk.WritesIndex there after) : engine.Untouched disk after where
  index := hwrites.sameIndex hother h.isNamed h.directory
  located := by
    rw [h.located]
    exact Disk.locate_of_keepsDirectories hwrites.keepsDirectories h.located h.directory
  held := by rw [hwrites.held]

theorem IsStored.untouched_of_gainsDirectories {after : Disk} (h : engine.IsStored disk)
    (hgains : disk.GainsDirectories after) : engine.Untouched disk after where
  index := by
    apply hgains.sameIndex
    · rw [h.directory]
      simp
    · exact h.index.description_ne_none
  located := by
    rw [h.located]
    exact Disk.locate_of_keepsDirectories hgains.keepsDirectories h.located h.directory
  held := by rw [hgains.held]

/-- Copying the files of a commit ends with the data files, or goes on with the description. -/
theorem copyCommit_cases (path : String) (source target : Location) (commit : Commit)
    (disk : Disk) :
    ∃ copied, copied = (disk.copySegments source target commit.segments disk.trouble).2 ∧
      ((copyCommit path source target commit disk).2 = copied ∨
        ∃ breaksOff, (copyCommit path source target commit disk).2 =
          (copied.copyDescription source target breaksOff).2) := by
  refine ⟨_, rfl, ?_⟩
  unfold copyCommit
  dsimp only
  split
  · next hcopied => exact .inl (by rw [hcopied])
  · next copied hcopied =>
    refine .inr ⟨disk.trouble.map (· - commit.segments.length) == some 0, ?_⟩
    rw [hcopied]
    split
    · next hfailed => rw [hfailed]
    · next hdone => rw [hdone]

theorem writesIndex_copyCommit (path : String) (source target : Location) (commit : Commit)
    (disk : Disk) : disk.WritesIndex target (copyCommit path source target commit disk).2 := by
  have hsegments := Disk.writesIndex_copySegments source target commit.segments disk.trouble disk
  obtain ⟨copied, rfl, hsame | ⟨breaksOff, hdescription⟩⟩ :=
    copyCommit_cases path source target commit disk
  · rw [hsame]
    exact hsegments
  · rw [hdescription]
    exact hsegments.trans (Disk.writesIndex_copyDescription source target breaksOff _)

/-- Copying writes nothing but files of the index in the target. -/
theorem writesIndex_copyIndex (engine : Engine) (source target : Location) (disk : Disk) :
    disk.WritesIndex target (engine.copyIndex source target disk).2 := by
  unfold copyIndex
  split
  · exact writesIndex_copyCommit engine.path source target _ disk
  · exact writesIndex_copyCommit engine.path source target _ disk
  · exact .refl target disk

theorem writesFiles_copyCommit {path : String} {source : Location} (target : Location)
    (commit : Commit)
    (hfile : ∀ number, disk.nodes (descriptionOf source) ≠ some (.directory number)) :
    disk.WritesFiles target (copyCommit path source target commit disk).2 := by
  have hsegments := Disk.writesFiles_copySegments source target commit.segments disk.trouble disk
  obtain ⟨copied, rfl, hsame | ⟨breaksOff, hdescription⟩⟩ :=
    copyCommit_cases path source target commit disk
  · rw [hsame]
    exact hsegments
  · rw [hdescription]
    refine hsegments.trans (Disk.writesFiles_copyDescription target breaksOff ?_)
    rw [Disk.nodes_copySegments_descriptionOf]
    exact hfile

/-- A description that is not a directory is a file. -/
theorem descriptionOf_ne_directory {home : Location}
    (h : disk.readDescription home ≠ .error .isADirectory) (number : Nat) :
    disk.nodes (descriptionOf home) ≠ some (.directory number) := by
  intro hnode
  unfold Disk.readDescription at h
  rw [hnode] at h
  exact h rfl

/-- Copying replaces files by files. -/
theorem writesFiles_copyIndex (engine : Engine) (target : Location) (disk : Disk) :
    disk.WritesFiles target (engine.copyIndex engine.home target disk).2 := by
  unfold copyIndex
  split
  · next hread =>
    exact writesFiles_copyCommit target _ (descriptionOf_ne_directory (by rw [hread]; simp))
  · next hread =>
    exact writesFiles_copyCommit target _ (descriptionOf_ne_directory (by rw [hread]; simp))
  · exact .refl target disk

/-- Saving makes directories, and then copies the index where the path leads, unless that is the
directory of the engine. -/
theorem save_cases (engine : Engine) (path : String) (disk : Disk) :
    (engine.save path disk).2 = (disk.makeDirectories (.ofText path)).2 ∨
      ∃ source target, source ≠ target ∧
        (disk.makeDirectories (.ofText path)).2.locate (.ofText engine.path) = .ok source ∧
        (disk.makeDirectories (.ofText path)).2.locate (.ofText path) = .ok target ∧
        (engine.save path disk).2 =
          (engine.copyIndex source target (disk.makeDirectories (.ofText path)).2).2 := by
  unfold save
  cases disk.makeDirectories (.ofText path) with
  | mk result made =>
    cases result with
    | error fault => exact .inl rfl
    | ok =>
      dsimp only
      split
      · exact .inl rfl
      · exact .inl rfl
      · next source target hsource htarget =>
        split
        · exact .inl rfl
        · next hother => exact .inr ⟨source, target, hother, hsource, htarget, rfl⟩

/-- Saving makes directories, and then writes nothing but files of an index where the path leads,
unless that is the directory of the engine. -/
theorem save_writes (engine : Engine) (path : String) (disk : Disk) :
    (engine.save path disk).2 = (disk.makeDirectories (.ofText path)).2 ∨
      ∃ there, (disk.makeDirectories (.ofText path)).2.locate (.ofText path) = .ok there ∧
        (disk.makeDirectories (.ofText path)).2.locate (.ofText engine.path) ≠ .ok there ∧
        (disk.makeDirectories (.ofText path)).2.WritesIndex there (engine.save path disk).2 := by
  rcases engine.save_cases path disk with hmade | ⟨source, target, hother, hsource, htarget, hsaved⟩
  · exact .inl hmade
  · refine .inr ⟨target, htarget, ?_, ?_⟩
    · rw [hsource]
      simpa using hother
    · rw [hsaved]
      exact writesIndex_copyIndex engine source target _

/-- Saving keeps what directories there are, who holds them, and the trouble. -/
theorem save_keeps (engine : Engine) (path : String) (disk : Disk) :
    disk.KeepsDirectories (engine.save path disk).2 ∧
      (engine.save path disk).2.held = disk.held ∧
      (engine.save path disk).2.trouble = disk.trouble := by
  have hgains := Disk.gainsDirectories_makeDirectories disk (.ofText path)
  rcases save_writes engine path disk with hmade | ⟨there, -, -, hwrites⟩
  · rw [hmade]
    exact ⟨hgains.keepsDirectories, hgains.held, hgains.trouble⟩
  · refine ⟨?_, hwrites.held.trans hgains.held, hwrites.trouble.trans hgains.trouble⟩
    intro location number hnamed hnode
    exact hwrites.keepsDirectories location number hnamed
      (hgains.keepsDirectories location number hnamed hnode)

/-- Saving leaves the directory of an engine as it was, unless the path leads there. -/
theorem IsStored.untouched_save {saver : Engine} {path : String} (h : engine.IsStored disk)
    (helsewhere : ∀ there, (disk.makeDirectories (.ofText path)).2.locate (.ofText path) =
      .ok there → (disk.makeDirectories (.ofText path)).2.locate (.ofText saver.path) ≠ .ok there →
        there ≠ engine.home) : engine.Untouched disk (saver.save path disk).2 := by
  have hmade := h.untouched_of_gainsDirectories
    (Disk.gainsDirectories_makeDirectories disk (.ofText path))
  rcases save_writes saver path disk with hsame | ⟨there, hthere, hother, hwrites⟩
  · rw [hsame]
    exact hmade
  · exact hmade.trans ((h.of_untouched hmade).untouched_of_writesIndex
      (helsewhere there hthere hother) hwrites)

/-- Saving leaves the directory of the engine as it was. -/
theorem untouched_save (h : engine.IsStored disk) (path : String) :
    engine.Untouched disk (engine.save path disk).2 := by
  have hmade := h.untouched_of_gainsDirectories
    (Disk.gainsDirectories_makeDirectories disk (.ofText path))
  apply h.untouched_save
  rintro there - hother rfl
  exact hother (h.of_untouched hmade).located

theorem holdsIndex_of_copyIndex {target : Location} {saved : Disk}
    (h : engine.IsStored disk) (hother : target ≠ engine.home)
    (hcopy : engine.copyIndex engine.home target disk = (.ok (), saved)) :
    saved.HoldsIndex target engine.contents := by
  obtain ⟨commit, hcommit, hsegments, hmanifest⟩ := h.index.committed
  have hread := Disk.readDescription_eq_ok_iff.2 hcommit
  unfold copyIndex copyCommit at hcopy
  simp only [hread] at hcopy
  split at hcopy
  · exact absurd (Prod.mk.inj hcopy).1 (by simp)
  · next copied hcopied =>
    split at hcopy
    · exact absurd (Prod.mk.inj hcopy).1 (by simp)
    · next done hdone =>
      obtain rfl := (Prod.mk.inj hcopy).2
      obtain ⟨hnode, hwritable, hdata⟩ := Disk.copyDescription_inv hdone
      have hwrites :=
        Disk.writesIndex_copySegments engine.home target commit.segments disk.trouble disk
      have hwrites' := Disk.writesIndex_copyDescription engine.home target
        (disk.trouble.map (· - commit.segments.length) == some 0) copied
      rw [hcopied] at hwrites
      rw [hdone] at hwrites'
      have hsame := hwrites.sameIndex hother h.isNamed h.directory
      rw [hsegments] at hcopied
      refine ⟨⟨commit, ?_, hsegments, hmanifest⟩, ?_, ?_⟩
      · rw [hnode, hsame.description, hcommit]
      · intro segment hsegment
        rw [hdata]
        exact Disk.nodes_copySegments (Ne.symm hother) h.index.data hcopied segment (.inl hsegment)
      · rw [hwrites'.isProtected]
        exact hwritable

/-- Saving succeeds where directories can be made and the files of the index can be written. -/
theorem IsStored.exists_save_eq_ok {path : String} {made : Disk} {there : Location}
    (h : engine.IsStored disk) (hmake : disk.makeDirectories (.ofText path) = (.ok (), made))
    (hthere : made.locate (.ofText path) = .ok there)
    (hwrite : made.CanWriteIndex there engine.segments) :
    ∃ saved, engine.save path disk = (.ok (), saved) := by
  have hgains := Disk.gainsDirectories_makeDirectories disk (.ofText path)
  rw [hmake] at hgains
  have hstored := h.of_untouched (h.untouched_of_gainsDirectories hgains)
  unfold save
  simp only [hmake, hstored.located, hthere]
  split
  · exact ⟨made, rfl⟩
  · next hother =>
    obtain ⟨commit, hcommit, hsegments, -⟩ := hstored.index.committed
    rw [← show commit.segments = engine.segments from hsegments] at hwrite
    have hsource : ∀ segment ∈ commit.segments,
        made.nodes (dataOf engine.home segment) = some .data := by
      intro segment hsegment
      rw [hsegments] at hsegment
      exact hstored.index.data segment hsegment
    obtain ⟨copied, hcopied, hcanWrite⟩ := Disk.exists_copySegments_eq_ok hother
      (List.Subset.refl _) hsource hwrite fun left hleft => (hwrite.room left hleft).le
    have hsame := (Disk.writesIndex_copySegments engine.home there commit.segments made.trouble
      made).sameIndex (Ne.symm hother) hstored.isNamed hstored.directory
    rw [hcopied] at hsame
    have hdescription : copied.nodes (descriptionOf engine.home) = some (.description commit) :=
      hsame.description.trans hcommit
    have hroom : (made.trouble.map (· - commit.segments.length) == some 0) = false := by
      rw [beq_eq_false_iff_ne]
      intro hnone
      obtain ⟨room, htrouble, hspent⟩ := Option.map_eq_some_iff.1 hnone
      have hleft := hwrite.room room htrouble
      omega
    have hput := Disk.write_eq_ok (.description commit) hcanWrite.description.1
      hcanWrite.description.2
    refine ⟨copied.put (descriptionOf there) (.description commit), ?_⟩
    unfold copyIndex
    simp only [Disk.readDescription_eq_ok_iff.2 hcommit, copyCommit, hcopied, hroom,
      Disk.copyDescription, hdescription, hput]
    rfl

/-- What stands after saving where the path leads: the index of the engine. -/
theorem save_inv {path : String} {saved : Disk} (h : engine.IsStored disk)
    (hsave : engine.save path disk = (.ok (), saved)) :
    ∃ there number, saved.locate (.ofText path) = .ok there ∧
      saved.nodes there = some (.directory number) ∧ saved.HoldsIndex there engine.contents := by
  have hgains := Disk.gainsDirectories_makeDirectories disk (.ofText path)
  have hmade := h.untouched_of_gainsDirectories hgains
  unfold save at hsave
  split at hsave
  · exact absurd (Prod.mk.inj hsave).1 (by simp)
  · next made hmake =>
    rw [hmake] at hmade
    have hstored := h.of_untouched hmade
    rw [hstored.located] at hsave
    split at hsave
    · exact absurd (Prod.mk.inj hsave).1 (by simp)
    · exact absurd (Prod.mk.inj hsave).1 (by simp)
    · next source target hsource htarget =>
      have heq : engine.home = source := Except.ok.inj hsource
      subst heq
      have hne := (Disk.locate_eq_ok_iff.1 htarget).1
      obtain ⟨location, number, hlocate, hlocation⟩ :=
        Disk.isDirectory_eq_true_iff.1 (Disk.isDirectory_of_makeDirectories hne hmake)
      have hsame : location = target := by
        rw [hlocate] at htarget
        exact Except.ok.inj htarget
      subst hsame
      split at hsave
      · next hown =>
        -- Nothing was copied: the index is that of the engine already.
        obtain rfl := (Prod.mk.inj hsave).2
        refine ⟨location, number, hlocate, hlocation, ?_⟩
        rw [← hown]
        exact hstored.index
      · next hdistinct =>
        have hother : location ≠ engine.home := Ne.symm hdistinct
        have hwrites := writesIndex_copyIndex engine engine.home location made
        rw [hsave] at hwrites
        have hkeeps := hwrites.keepsDirectories
        exact ⟨location, number, Disk.locate_of_keepsDirectories hkeeps hlocate hlocation,
          hkeeps _ _ (Disk.isNamed_of_locate hlocate) hlocation,
          holdsIndex_of_copyIndex hstored hother hsave⟩

/-- An engine that is opened on a copy has what the engine that was saved holds. -/
theorem isStored_of_open_saved {copy : Engine} {path : String} {settings : Settings}
    {saved after : Disk} (h : engine.IsStored disk)
    (hsave : engine.save path disk = (.ok (), saved))
    (hopen : Engine.open path settings saved = (.ok copy, after)) :
    copy.IsStored after ∧ copy.contents = engine.contents := by
  obtain ⟨there, number, hthere, hdirectory, hindex⟩ := save_inv h hsave
  obtain ⟨made, loaded, commit, hopened⟩ := open_inv hopen
  have hreached :=
    Disk.locate_of_keepsDirectories hopened.gains.keepsDirectories hthere hdirectory
  rw [hopened.located] at hreached
  obtain rfl := Except.ok.inj hreached
  apply isStored_of_open_holdsIndex hopen
  · rw [hdirectory]
    simp
  · exact hindex

end ChunkStore.Engine
