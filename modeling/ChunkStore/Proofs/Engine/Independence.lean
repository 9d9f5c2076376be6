import ChunkStore.Proofs.Engine.Reachable
import ChunkStore.Proofs.Engine.Sharing

/-!
# Where engines are independent, and where not

Opening refuses a directory that another engine holds; saving does not.  As long as no save goes
into the directory of another engine that is open, the engines on one disk are independent of each
other.  A save that does goes through, and from then on that directory holds the index of the engine
that was saved, while the engine that is open on it still works on its own.
-/

set_option autoImplicit false

namespace ChunkStore.Engine

open ChunkStore.Index (Contents)

section

variable {engine : Engine} {disk : Disk}

/-- An engine that stands for certain contents: its directory holds them, it finds them when it is
closed and opened again, under whatever settings, and whatever it saves holds them; and it can be
saved wherever directories can be made and the files of an index with these contents can be
written. -/
structure StandsFor (engine : Engine) (disk : Disk) (contents : Contents) : Prop where
  index : disk.HoldsIndex engine.home contents
  reopens : ∀ settings : Settings, settings.Opens →
    ∃ found opened, Engine.open engine.path settings (engine.close disk) = (.ok found, opened) ∧
      found.contents = contents
  saves : ∀ path saved, engine.save path disk = (.ok (), saved) →
    ∃ there, saved.locate (.ofText path) = .ok there ∧ saved.HoldsIndex there contents
  canSave : ∀ path made there, disk.makeDirectories (.ofText path) = (.ok (), made) →
    made.locate (.ofText path) = .ok there → made.CanWriteIndex there contents.segments →
      ∃ saved, engine.save path disk = (.ok (), saved)

theorem IsStored.standsFor (h : engine.IsStored disk) : engine.StandsFor disk engine.contents where
  index := h.index
  reopens := fun _ hsettings => ⟨_, _, open_close h hsettings, rfl⟩
  saves := by
    intro path saved hsave
    obtain ⟨there, -, hthere, -, hindex⟩ := save_inv h hsave
    exact ⟨there, hthere, hindex⟩
  canSave := fun _ _ _ hmake hthere hwrite => h.exists_save_eq_ok hmake hthere hwrite

end

section

variable {ι : Type} {engines : ι → Engine} {disk : Disk}

/-- Once one engine was saved into the directory of another one that is open, that one finds the
index of the engine that was saved, in place of its own, when it is closed and opened again. -/
theorem reopen_of_save (h : Apart engines disk) {i j : ι} {path : String} {saved : Disk}
    (hsave : (engines i).save path disk = (.ok (), saved))
    (hpath : saved.locate (.ofText path) = .ok (engines j).home) {settings : Settings}
    (hsettings : settings.Opens) :
    ∃ found opened,
      Engine.open (engines j).path settings ((engines j).close saved) = (.ok found, opened) ∧
        found.contents = (engines i).contents := by
  obtain ⟨there, number, hthere, hdirectory, hindex⟩ := save_inv (h.isStored i) hsave
  rw [hpath] at hthere
  obtain rfl := Except.ok.inj hthere
  obtain ⟨hkeeps, hheld, -⟩ := save_keeps (engines i) path disk
  rw [hsave] at hkeeps hheld
  have hclose : disk.KeepsDirectories ((engines j).close saved) := hkeeps
  have hlocate := Disk.locate_of_keepsDirectories hclose (h.isStored j).located
    (h.isStored j).directory
  have hnode := hkeeps _ _ (h.isStored j).isNamed (h.isStored j).directory
  have hfree : (engines j).directoryNumber ∉ ((engines j).close saved).held := by
    apply List.count_eq_zero.1
    show (saved.held.erase (engines j).directoryNumber).count (engines j).directoryNumber = 0
    rw [List.count_erase_self, hheld, (h.isStored j).held]
  have hsame : saved.SameIndex (engines j).home ((engines j).close saved) :=
    ⟨rfl, rfl, fun _ => rfl, rfl⟩
  exact ⟨_, _, open_of_holdsIndex hsettings hlocate hnode (hindex.of_sameIndex hsame) hfree, rfl⟩

variable [DecidableEq ι]

/-- As long as every save spares the directories of the other engines, each of the engines that
share a disk sees the same as if it had the disk to itself, but for whether its saves succeed, and
it stands for the same: in its directory, when it is closed and opened again, and when it is
saved. -/
theorem engines_apart_are_independent {turns : List (Turn ι)} (h : Apart engines disk)
    (hspare : AllSpare turns (engines, disk)) (i : ι) :
    (seenBy i (together turns engines disk)).map Observation.regardless =
        (alone i turns (engines i, disk)).map Observation.regardless ∧
      ∀ shared lone, shared = afterTogether turns (engines, disk) →
        lone = afterAlone i turns (engines i, disk) →
          (shared.1 i).contents = lone.1.contents ∧
            (shared.1 i).StandsFor shared.2 lone.1.contents ∧
            lone.1.StandsFor lone.2 lone.1.contents := by
  have hbeside : Beside i (engines, disk) (engines i, disk) :=
    ⟨h, ⟨h.isStored i, h.isStored i, rfl⟩, .refl _⟩
  constructor
  · apply hbeside.map_seenBy_together hspare
    intro command _ state lone hbeside hspares
    exact hbeside.observe_regardless hspares
  · rintro shared lone rfl rfl
    have hafter := hbeside.run hspare
    have hsame := hafter.alike.contents
    refine ⟨hsame, ?_, hafter.both.left.standsFor⟩
    rw [← hsame]
    exact (hafter.apart.isStored i).standsFor

end

/-- An engine as it is opened in a new directory beside one that is open. -/
def newNeighbour : Engine :=
  ⟨"other", [.given "other"], 1, Settings.default.stopWords, .empty, [], []⟩

/-- The disk on which it is opened. -/
def sharedDisk : Disk :=
  ((firstInsertion.2.putDirectory [.given "other"]).put (descriptionOf [.given "other"])
    (.description ⟨[], none⟩)).hold 1

/-- The two engines. -/
def neighbours (second : Bool) : Engine :=
  if second then newNeighbour else firstInsertion.1

theorem open_newNeighbour :
    Engine.open "other" .default firstInsertion.2 = (.ok newNeighbour, sharedDisk) := by
  have hmake : firstInsertion.2.makeDirectories (.ofText "other") =
      (.ok (), firstInsertion.2.putDirectory [.given "other"]) := by
    unfold Disk.makeDirectories
    rfl
  have hlocate : (firstInsertion.2.putDirectory [.given "other"]).locate (.ofText "other") =
      .ok [.given "other"] := by decide +kernel
  have hload := @loadOrCreate_of_missing (firstInsertion.2.putDirectory [.given "other"])
    [.given "other"] _ rfl rfl rfl
  have hopenAt : openAt "other" .default [.given "other"] 1
      (firstInsertion.2.putDirectory [.given "other"]) = (.ok newNeighbour, sharedDisk) := by
    unfold openAt
    rw [hload]
    rfl
  unfold Engine.open
  simp only [Settings.opens_default.1, hmake, hlocate]
  exact hopenAt

theorem apart_neighbours : Apart neighbours sharedDisk := by
  have hreachable : Reachable (fun _ _ => True) firstInsertion.1 firstInsertion.2 :=
    reachable_firstInsertion trivial
  obtain ⟨hother, huntouched⟩ := hreachable.isStored.1.apart_of_open open_newNeighbour
  have hsecond := (isStored_of_open_fresh open_newNeighbour rfl).1
  have hfirst := hreachable.isStored.1.of_untouched huntouched
  constructor
  · intro second
    cases second with
    | false => exact hfirst
    | true => exact hsecond
  · intro second second' hne
    cases second with
    | false =>
      cases second' with
      | false => exact absurd rfl hne
      | true => exact Ne.symm hother
    | true =>
      cases second' with
      | false => exact hother
      | true => exact absurd rfl hne

/-- A document for the second engine, and then a save of the first one to some path. -/
def insertionAndSave (path : String) : List (Turn Bool) := [
  .call true (.insert ["three"] [.empty] "b.txt" "b" none),
  .call false (.save path)]

/-- The two engines and their disk after the document was inserted. -/
def bothInserted : (Bool → Engine) × Disk :=
  Turn.take (.call true (.insert ["three"] [.empty] "b.txt" "b" none)) (neighbours, sharedDisk)

theorem neighbours_are_independent :
    AllSpare (insertionAndSave "copy") (neighbours, sharedDisk) ∧
      ∀ i, (seenBy i (together (insertionAndSave "copy") neighbours sharedDisk)).map
          Observation.regardless =
        (alone i (insertionAndSave "copy") (neighbours i, sharedDisk)).map
          Observation.regardless := by
  have hmake : bothInserted.2.makeDirectories (.ofText "copy") =
      (.ok (), bothInserted.2.putDirectory [.given "copy"]) := by
    unfold Disk.makeDirectories
    rfl
  have hlocate : (bothInserted.2.putDirectory [.given "copy"]).locate (.ofText "copy") =
      .ok [.given "copy"] := by decide +kernel
  have hsave : Turn.Spares bothInserted.1 bothInserted.2 (.call false (.save "copy")) := by
    intro there hthere second hsecond
    rw [hmake] at hthere
    obtain rfl := Except.ok.inj (hlocate.symm.trans hthere)
    obtain rfl : second = true := Bool.eq_true_of_not_eq_false hsecond
    decide +kernel
  have hspare : AllSpare (insertionAndSave "copy") (neighbours, sharedDisk) :=
    ⟨rfl, hsave, trivial⟩
  exact ⟨hspare, fun i => (engines_apart_are_independent apart_neighbours hspare i).1⟩

/-- Saving the first engine into the directory of the second one goes through. -/
theorem save_into_neighbour :
    (bothInserted.1 false).save "other" bothInserted.2 =
        (.ok (), (afterTogether (insertionAndSave "other") (neighbours, sharedDisk)).2) ∧
      (afterTogether (insertionAndSave "other") (neighbours, sharedDisk)).2.locate
        (.ofText "other") = .ok (bothInserted.1 true).home := by
  have hapart : Apart bothInserted.1 bothInserted.2 := apart_neighbours.take rfl
  have hlocate : bothInserted.2.locate (.ofText "other") = .ok (bothInserted.1 true).home := by
    decide +kernel
  have hisDirectory : bothInserted.2.isDirectory (.ofText "other") = true := by decide +kernel
  have hsource : bothInserted.2.locate (.ofText (bothInserted.1 false).path) = .ok [] :=
    (hapart.isStored false).located
  have hcopy : ((bothInserted.1 false).copyIndex [] [.given "other"] bothInserted.2).1 =
      .ok () := by decide +kernel
  constructor
  · refine Prod.ext ?_ rfl
    unfold save
    simp only [Disk.makeDirectories_of_isDirectory hisDirectory, hsource, hlocate]
    exact hcopy
  · exact Disk.locate_of_keepsDirectories
      (save_keeps (bothInserted.1 false) "other" bothInserted.2).1 hlocate
      (hapart.isStored true).directory

/-- The second engine after the other one was saved into its directory: alone it finds its document
again, but beside the other one it finds the document of that one. -/
theorem save_takes_over_open_directory :
    Apart neighbours sharedDisk ∧
      ∃ shared lone found opened found' opened',
        shared = afterTogether (insertionAndSave "other") (neighbours, sharedDisk) ∧
          lone = afterAlone true (insertionAndSave "other") (neighbours true, sharedDisk) ∧
          (shared.1 true).sources = [⟨"b.txt", "b", 1⟩] ∧
          Engine.open "other" .default ((shared.1 true).close shared.2) = (.ok found, opened) ∧
          found.sources = [⟨"a.txt", "a", 1⟩] ∧
          Engine.open "other" .default (lone.1.close lone.2) = (.ok found', opened') ∧
          found'.sources = [⟨"b.txt", "b", 1⟩] := by
  have hapart : Apart bothInserted.1 bothInserted.2 := apart_neighbours.take rfl
  obtain ⟨hsave, hpath⟩ := save_into_neighbour
  obtain ⟨found, opened, hopen, hfound⟩ :=
    reopen_of_save hapart hsave hpath Settings.opens_default
  have hsources : found.sources = (bothInserted.1 false).sources :=
    congrArg (fun contents : Contents => contents.manifest.sources) hfound
  have hreopen := open_close (hapart.isStored true) Settings.opens_default
  have hother : (bothInserted.1 true).sources = [⟨"b.txt", "b", 1⟩] := by decide +kernel
  refine ⟨apart_neighbours, _, _, found, opened, _, _, rfl, rfl, hother, hopen, ?_, hreopen, hother⟩
  rw [hsources]
  decide +kernel

end ChunkStore.Engine
