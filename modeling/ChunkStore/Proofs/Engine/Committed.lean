import ChunkStore.Proofs.Engine.FailedOpening
import ChunkStore.Proofs.Engine.Independence

/-!
# What is committed loads again

An engine commits its manifest as a text, and that text loads to the manifest again, whatever is in
it.  So the index of an engine always has the manifest that the engine has in memory, from whatever
text it was opened on, as long as nobody else writes the description of the index.  Other engines do
so only where they are saved into its directory.
-/

set_option autoImplicit false

namespace ChunkStore

open ChunkStore.Index (Manifest)

/-- Different manifests have different texts. -/
theorem Index.Manifest.render_injective : Function.Injective Manifest.render := by
  intro first second h
  have hback := Manifest.ofText?_render first
  rw [h, Manifest.ofText?_render] at hback
  exact (Option.some.inj hback).symm

namespace Disk

variable {disk after : Disk} {home there : Location}

theorem WritesIndex.nodes_descriptionOf (h : disk.WritesIndex there after) (hother : there ≠ home) :
    after.nodes (descriptionOf home) = disk.nodes (descriptionOf home) :=
  h.elsewhere _ (fun heq => hother (descriptionOf_inj heq).symm)
    (descriptionOf_ne_dataOf home there)

theorem GainsDirectories.nodes_descriptionOf (h : disk.GainsDirectories after)
    (hnode : disk.nodes (descriptionOf home) ≠ none) :
    after.nodes (descriptionOf home) = disk.nodes (descriptionOf home) :=
  (h.nodes (descriptionOf home)).resolve_right fun hnew => hnode hnew.1

theorem LeavesBehind.nodes_descriptionOf (h : disk.LeavesBehind after)
    (hnode : disk.nodes (descriptionOf home) ≠ none) :
    after.nodes (descriptionOf home) = disk.nodes (descriptionOf home) := by
  obtain ⟨made, hgains, hleft⟩ := h
  have hmade := hgains.nodes_descriptionOf hnode
  rcases hleft with rfl | ⟨there, hnone, hpublish⟩
  · exact hmade
  · refine ((publish_inv hpublish).1.nodes_descriptionOf ?_).trans hmade
    rintro rfl
    rw [hmade] at hnone
    exact hnode hnone

end Disk

namespace Engine

/-- The states that an engine and its disk can come to from an opening of whatever index, by any
calls, while the disk changes in other ways as it may. -/
inductive UsedWhile (meanwhile : Engine → Disk → Disk → Prop) : Engine → Disk → Prop where
  | opened {path : String} {settings : Settings} {disk after : Disk} {engine : Engine}
      (hopen : Engine.open path settings disk = (.ok engine, after)) :
      UsedWhile meanwhile engine after
  | called {engine : Engine} {disk : Disk} {command : HandleCommand}
      (before : UsedWhile meanwhile engine disk) (hcommand : command ≠ .close) :
      UsedWhile meanwhile (Handle.runEngine (engine, disk) command).2.1
        (Handle.runEngine (engine, disk) command).2.2
  | passed {engine : Engine} {disk after : Disk} (before : UsedWhile meanwhile engine disk)
      (hpassed : meanwhile engine disk after) : UsedWhile meanwhile engine after

variable {engine other : Engine} {disk after : Disk} {meanwhile : Engine → Disk → Disk → Prop}

/-- However an engine is used, its path leads to its home or nowhere. -/
theorem UsedWhile.place (h : UsedWhile meanwhile engine disk) :
    Path.destination (.ofText engine.path) = engine.home := by
  induction h with
  | opened hopen =>
    obtain ⟨made, loaded, commit, hopened⟩ := open_inv hopen
    rw [hopened.path]
    exact Disk.destination_of_locate hopened.located
  | @called engine disk command _ _ ih =>
    obtain ⟨hpath, hhome, -⟩ := runEngine_place engine disk command
    rw [hpath, hhome]
    exact ih
  | passed _ _ ih => exact ih

/-- The description of the index of an engine is the same on another disk. -/
def SameDescription (engine : Engine) (before after : Disk) : Prop :=
  after.nodes (descriptionOf engine.home) = before.nodes (descriptionOf engine.home)

/-- What was committed last to the index of an engine loads as the manifest of the engine. -/
def Loads (engine : Engine) (disk : Disk) : Prop :=
  ∃ commit, disk.nodes (descriptionOf engine.home) = some (.description commit) ∧
    Manifest.ofCommit? commit = some engine.manifest

theorem Loads.of_sameDescription (h : engine.Loads disk)
    (hsame : engine.SameDescription disk after) : engine.Loads after := by
  obtain ⟨commit, hnode, hmanifest⟩ := h
  exact ⟨commit, hsame.trans hnode, hmanifest⟩

theorem Loads.description_ne_none (h : engine.Loads disk) :
    disk.nodes (descriptionOf engine.home) ≠ none := by
  obtain ⟨commit, hnode, -⟩ := h
  rw [hnode]
  simp

/-! ### What writes a description -/

/-- An opening leaves every description alone that is there. -/
theorem sameDescription_open (h : disk.nodes (descriptionOf engine.home) ≠ none) (path : String)
    (settings : Settings) : engine.SameDescription disk (Engine.open path settings disk).2 := by
  cases hopen : Engine.open path settings disk with
  | mk result after =>
    cases result with
    | error fault => exact (leavesBehind_of_open hopen).nodes_descriptionOf h
    | ok opened =>
      obtain ⟨made, loaded, commit, hopened⟩ := open_inv hopen
      have hleft : disk.LeavesBehind loaded := by
        refine ⟨made, hopened.gains, ?_⟩
        rcases made.loadOrCreate_leaves opened.home with hsame | ⟨hnone, hpublish⟩
        · rw [hopened.load] at hsame
          exact .inl hsame
        · rw [hopened.load] at hpublish
          exact .inr ⟨opened.home, hnone, hpublish⟩
      rw [hopened.after_eq]
      exact hleft.nodes_descriptionOf h

/-- A save leaves every description alone that is there, but the one where the path leads. -/
theorem sameDescription_save (h : disk.nodes (descriptionOf engine.home) ≠ none) {saver : Engine}
    {path : String}
    (hspares : ∀ source there, source ≠ there →
      (disk.makeDirectories (.ofText path)).2.locate (.ofText saver.path) = .ok source →
      (disk.makeDirectories (.ofText path)).2.locate (.ofText path) = .ok there →
        there ≠ engine.home) : engine.SameDescription disk (saver.save path disk).2 := by
  have hmade := (Disk.gainsDirectories_makeDirectories disk (.ofText path)).nodes_descriptionOf h
  unfold SameDescription
  rcases saver.save_cases path disk with hsame | ⟨source, there, hother, hsource, hthere, hsaved⟩
  · rw [hsame, hmade]
  · rw [hsaved, ← hmade]
    exact (writesIndex_copyIndex saver source there _).nodes_descriptionOf
      (hspares source there hother hsource hthere)

/-- What is called elsewhere leaves the description of an index alone, unless it is a save that
leads there. -/
theorem sameDescription_runEngine (h : disk.nodes (descriptionOf engine.home) ≠ none)
    (hother : other.home ≠ engine.home) {command : HandleCommand}
    (hspares : ∀ path, command = .save path → ∀ there,
      (disk.makeDirectories (.ofText path)).2.locate (.ofText path) = .ok there →
        there ≠ engine.home) :
    engine.SameDescription disk (Handle.runEngine (other, disk) command).2.2 := by
  have hlocal : ∀ plan, engine.SameDescription disk (other.carryOut disk plan).2.2 :=
    fun plan => (other.carryOut_writes disk plan).writes.nodes_descriptionOf hother
  cases command with
  | insert texts maps document docId requested =>
    simp only [Handle.runEngine, insert_eq_carryOut]
    exact hlocal _
  | delete docId keepLatest =>
    simp only [Handle.runEngine, delete_eq_carryOut]
    exact hlocal _
  | query text topK constraints =>
    rw [runEngine_query]
    rfl
  | save path =>
    exact sameDescription_save h fun _ there _ _ hthere => hspares path rfl there hthere
  | sources | versionsOf | path | close => rfl

/-! ### What an engine commits -/

theorem Loads.withStaged (h : engine.Loads disk) (staged : List Index.Change) :
    ({ engine with staged } : Engine).Loads disk :=
  h

theorem Loads.commit (h : engine.Loads disk) (isComplete : Bool) (manifest : Manifest) :
    (engine.commit isComplete manifest disk).2.1.Loads
      (engine.commit isComplete manifest disk).2.2 := by
  unfold Engine.commit
  dsimp only
  split
  · exact h
  · split
    · next hpublish =>
      obtain ⟨-, -, hnode, -⟩ := Disk.publish_inv hpublish
      exact ⟨_, hnode, Manifest.ofText?_render manifest⟩
    · exact h

theorem Loads.carryOut (h : engine.Loads disk) (plan : Plan) :
    (engine.carryOut disk plan).2.1.Loads (engine.carryOut disk plan).2.2 := by
  cases plan with
  | answer result => exact h
  | strand changes => exact h
  | commit changes manifest =>
    have hstaged : (engine.stage changes disk).2.Loads disk := h.withStaged _
    exact hstaged.commit _ manifest

theorem Loads.runEngine (h : engine.Loads disk)
    (hplace : Path.destination (.ofText engine.path) = engine.home) (command : HandleCommand) :
    (Handle.runEngine (engine, disk) command).2.1.Loads
      (Handle.runEngine (engine, disk) command).2.2 := by
  cases command with
  | insert texts maps document docId requested =>
    simp only [Handle.runEngine, insert_eq_carryOut]
    exact h.carryOut _
  | delete docId keepLatest =>
    simp only [Handle.runEngine, delete_eq_carryOut]
    exact h.carryOut _
  | query text topK constraints =>
    rw [runEngine_query]
    exact h
  | save path =>
    -- The path of the engine leads to its home, and a save to there writes nothing.
    have hother : ∀ source there, source ≠ there →
        (disk.makeDirectories (.ofText path)).2.locate (.ofText engine.path) = .ok source →
        (disk.makeDirectories (.ofText path)).2.locate (.ofText path) = .ok there →
          there ≠ engine.home := by
      rintro source there hne hsource - rfl
      exact hne ((Disk.destination_of_locate hsource).symm.trans hplace)
    exact h.of_sameDescription (sameDescription_save h.description_ne_none hother)
  | sources | versionsOf | path | close => exact h

theorem loads_of_open {path : String} {settings : Settings}
    (hopen : Engine.open path settings disk = (.ok engine, after)) : engine.Loads after := by
  obtain ⟨made, loaded, commit, hopened⟩ := open_inv hopen
  obtain ⟨hnode, -, -⟩ := loadOrCreate_inv hopened.load
  rw [hopened.after_eq]
  exact ⟨commit, hnode, hopened.manifest⟩

theorem UsedWhile.loads (h : UsedWhile SameDescription engine disk) : engine.Loads disk := by
  induction h with
  | opened hopen => exact loads_of_open hopen
  | @called engine disk command before _ ih => exact ih.runEngine before.place command
  | passed _ hsame ih => exact ih.of_sameDescription hsame

/-- Every manifest comes back from its text and has a text of its own.  However an engine is used,
what was committed last to its index loads as the manifest that the engine has, as long as nobody
else writes the description of the index; and neither openings nor other engines do, unless they are
saved into the directory. -/
theorem committed_manifest_loads (h : UsedWhile SameDescription engine disk) :
    (∀ manifest : Manifest, Manifest.ofText? manifest.render = some manifest) ∧
      (∀ first second : Manifest, first ≠ second → first.render ≠ second.render) ∧
      (∃ commit, disk.readDescription engine.home = .ok commit ∧
        Manifest.ofCommit? commit = some engine.manifest) ∧
      (∀ path settings, engine.SameDescription disk (Engine.open path settings disk).2) ∧
      ∀ (other : Engine) (command : HandleCommand), other.home ≠ engine.home →
        (∀ path, command = .save path → ∀ there,
          (disk.makeDirectories (.ofText path)).2.locate (.ofText path) = .ok there →
            there ≠ engine.home) →
          engine.SameDescription disk (Handle.runEngine (other, disk) command).2.2 := by
  have hloads := h.loads
  have hthere := hloads.description_ne_none
  obtain ⟨commit, hnode, hmanifest⟩ := hloads
  refine ⟨Manifest.ofText?_render, fun first second hne heq => hne (Manifest.render_injective heq),
    ⟨commit, Disk.readDescription_eq_ok_iff.2 hnode, hmanifest⟩, sameDescription_open hthere, ?_⟩
  intro other command hother hspares
  exact sameDescription_runEngine hthere hother hspares

/-- A manifest with no chunk ids left, document ids that need escapes, and the first and the last
version. -/
def oddManifest : Manifest :=
  ⟨18446744073709551615, Dict.ofList [
    ("a\x00\"", Dict.ofList [(0, ""), (4294967295, "é\n")]), ("", .empty)]⟩

/-- A text that loads as that manifest and is not the one that is committed for it. -/
def oddText : String :=
  " \x7b \"versions\" : \x7b\"a\\u0000\\\"\" : \x7b\"4294967295\":\"\\u00e9\\n\" , \"0\":\"\"\x7d,"
    ++ "\"\":\x7b\x7d\x7d,\n\"next_chunk_id\":18446744073709551615\x7d"

theorem ofText?_oddText : Manifest.ofText? oddText = some oddManifest ∧
    oddText ≠ oddManifest.render := by
  decide +kernel

/-- A disk with an index in the working directory that has the text. -/
def oddDisk : Disk :=
  Disk.empty.put (descriptionOf []) (.description ⟨[], some oddText⟩)

/-- The engine that is opened on it, and the disk, after an insertion that finds no chunk id left
and after the first version of a document is deleted. -/
def oddlyUsed : Engine × Disk :=
  (Handle.runEngine
    (Handle.runEngine
      (⟨".", [], 0, Settings.default.stopWords, oddManifest, [], []⟩, oddDisk.hold 0)
      (.insert ["one"] [.empty] "b.txt" "b" none)).2
    (.delete "a\x00\"" true)).2

theorem open_oddDisk : Engine.open "." .default oddDisk =
    (.ok ⟨".", [], 0, Settings.default.stopWords, oddManifest, [], []⟩, oddDisk.hold 0) := by
  have hindex : oddDisk.HoldsIndex [] ⟨oddManifest, []⟩ :=
    ⟨⟨⟨[], some oddText⟩, rfl, rfl, ofText?_oddText.1⟩, by simp, rfl⟩
  exact open_of_holdsIndex Settings.opens_default rfl rfl hindex (by decide)

theorem oddlyUsed_loads :
    UsedWhile SameDescription oddlyUsed.1 oddlyUsed.2 ∧
      ∃ commit, oddlyUsed.2.readDescription oddlyUsed.1.home = .ok commit ∧
        Manifest.ofCommit? commit = some oddlyUsed.1.manifest := by
  have hinsert : HandleCommand.insert ["one"] [.empty] "b.txt" "b" none ≠ .close := by simp
  have hdelete : HandleCommand.delete "a\x00\"" true ≠ .close := by simp
  have hused : UsedWhile SameDescription oddlyUsed.1 oddlyUsed.2 :=
    .called (.called (.opened open_oddDisk) hinsert) hdelete
  exact ⟨hused, (committed_manifest_loads hused).2.2.1⟩

/-- Once the first of two engines was saved into the directory of the second one, what is committed
there loads as the manifest of the first one, which is not that of the second one. -/
theorem save_into_open_directory_replaces_manifest :
    Apart neighbours sharedDisk ∧
      ∃ shared commit, shared = afterTogether (insertionAndSave "other") (neighbours, sharedDisk) ∧
        shared.2.readDescription (shared.1 true).home = .ok commit ∧
        Manifest.ofCommit? commit = some (shared.1 false).manifest ∧
        Manifest.ofCommit? commit ≠ some (shared.1 true).manifest := by
  have hapart : Apart bothInserted.1 bothInserted.2 := apart_neighbours.take rfl
  obtain ⟨hsave, hpath⟩ := save_into_neighbour
  obtain ⟨there, -, hthere, -, hindex⟩ := save_inv (hapart.isStored false) hsave
  rw [hpath] at hthere
  obtain rfl := Except.ok.inj hthere
  obtain ⟨commit, hnode, -, hmanifest⟩ := hindex.committed
  refine ⟨apart_neighbours, _, commit, rfl, Disk.readDescription_eq_ok_iff.2 hnode, hmanifest, ?_⟩
  rw [hmanifest]
  decide +kernel

end Engine

end ChunkStore
