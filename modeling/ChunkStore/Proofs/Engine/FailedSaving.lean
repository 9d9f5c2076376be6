import ChunkStore.Proofs.Engine.Leftovers

/-!
# Saves that fail

What a save leaves behind that fails does not come between an index and those who use it, unless
files of it were cut short.  Where the path leads, and wherever else an index was, openings find
what they would have found; only where data files were missing, the save may have brought them.
Where files were cut short, openings fail, or find the index that was saved if nothing was missing
of its description but the line end.  No opening finds a mixture of two indexes.  Engines answer as
before, as long as their indexes are there and no files of theirs were cut short.
-/

set_option autoImplicit false

namespace ChunkStore

open ChunkStore.Index (Manifest)

/-! ### Openings after that -/

namespace Disk

/-- A file that an index needs was cut short: the description, or a data file that it lists. -/
def CutsShort (home : Location) (before after : Disk) : Prop :=
  after.nodes (descriptionOf home) = some .fragment ∨
    ∃ commit, before.readDescription home = .ok commit ∧ ∃ segment ∈ commit.segments,
      before.nodes (dataOf home segment) = some .data ∧
        after.nodes (dataOf home segment) = some .fragment

/-- Whatever was found in a directory is what the description of an index says. -/
def FoundAs (disk : Disk) (source home : Location) (found : Option Engine) : Prop :=
  ∀ engine, found = some engine → engine.home = home ∧
    ∃ commit, disk.readDescription source = .ok commit ∧ engine.segments = commit.segments ∧
      Manifest.ofCommit? commit = some engine.manifest

/-- What an opening by a path finds on two disks.  It is the same or nothing on both; or, on the
first one, data files were missing of what is described, and on the second one that is found or
nothing.  If copying broke off, what was found on the first disk can be cut short on the second one,
and then nothing is found there; or the index that was copied to where the path leads is found or
nothing. -/
inductive FoundAgain (broken : Prop) (source : Location) (path : String) (disk after : Disk)
    (before found : Option Engine) : Prop where
  | same (h : found = before)
  | completed {home : Location} {commit : Commit}
      (hpath : after.locate (.ofText path) = .ok home)
      (hdescribed : disk.readDescription home = .ok commit)
      (hmissing : disk.holdsSegments home commit = false) (hbefore : before = none)
      (hfound : disk.FoundAs home home found)
  | cutShort {home : Location} (hpath : after.locate (.ofText path) = .ok home) (hbroken : broken)
      (hcut : disk.CutsShort home after) (hfound : found = none)
  | replaced {home : Location} (hpath : after.locate (.ofText path) = .ok home) (hbroken : broken)
      (hcopied : disk.CopiesToLineEnd source home after) (hfound : disk.FoundAs source home found)

variable {disk after made : Disk} {broken : Prop} {source home : Location} {path : String}
  {before found : Option Engine}

theorem FoundAs.of_gains (h : made.FoundAs source home found)
    (hgains : disk.GainsDirectories made) : disk.FoundAs source home found := by
  intro engine hengine
  obtain ⟨hhome, commit, hread, hcommit⟩ := h engine hengine
  exact ⟨hhome, commit, hgains.readDescription hread, hcommit⟩

theorem CutsShort.of_gains (h : made.CutsShort home after) (hgains : disk.GainsDirectories made) :
    disk.CutsShort home after := by
  rcases h with hfragment | ⟨commit, hread, segment, hsegment, hdata, hcut⟩
  · exact .inl hfragment
  · rw [hgains.nodes_dataOf] at hdata
    exact .inr ⟨commit, hgains.readDescription hread, segment, hsegment, hdata, hcut⟩

theorem FoundAgain.of_gains (h : made.FoundAgain broken source path after before found)
    (hgains : disk.GainsDirectories made) :
    disk.FoundAgain broken source path after before found := by
  cases h with
  | same hsame => exact .same hsame
  | @completed home commit hpath hdescribed hmissing hbefore hfound =>
    refine .completed hpath (hgains.readDescription hdescribed) ?_ hbefore (hfound.of_gains hgains)
    rw [← hmissing]
    unfold Disk.holdsSegments
    simp only [hgains.nodes_dataOf]
  | cutShort hpath hbroken hcut hfound =>
    exact .cutShort hpath hbroken (hcut.of_gains hgains) hfound
  | replaced hpath hbroken hcopied hfound =>
    exact .replaced hpath hbroken (hcopied.of_gains hgains) (hfound.of_gains hgains)

end Disk

namespace Engine

variable {first second : Disk} {broken : Prop} {source home : Location} {path : String}
  {settings : Settings} {number : Nat}

variable {engine : Engine} {disk after : Disk} {target : String} {fault : EngineFault}

end Engine

/-! ### Configurations after that -/

/-- Texts in the working directory are as they were, but for the one in place of a description. -/
theorem Disk.LeavesFiles.text? {disk after : Disk} {broken : Prop} {source : Location} {way : Path}
    (h : disk.LeavesFiles broken source way after) {name : String} (hname : name ≠ "meta.json") :
    after.text? name = disk.text? name := by
  obtain ⟨made, hgains, hleft⟩ := h
  rw [← hgains.text?]
  rcases hleft with rfl | ⟨there, _, -, -, -, hwrites⟩
  · rfl
  · unfold Disk.text?
    rw [hwrites.writes.elsewhere]
    · exact fun heq => hname (FileName.given.inj (List.cons.inj heq).1)
    · exact fun segment heq => absurd (List.cons.inj heq).1 (by simp)

namespace Engine

variable {engine : Engine} {disk after : Disk} {broken : Prop} {source : Location}
  {path target : String} {fault : EngineFault}

end Engine

end ChunkStore
