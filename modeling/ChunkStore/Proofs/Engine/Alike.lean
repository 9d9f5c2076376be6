import ChunkStore.Proofs.Engine.Calls
import ChunkStore.Proofs.Index.Records

/-!
# What answers depend on

Calls of two engines on their disks are compared, where both are stored and both disks are in the
same trouble, if any.  Which versions and ids are given depends on the manifest alone; what becomes
of the chunks depends on the records and not on the words that were indexed; and engines that differ
in nothing but their places give the same answers to everything.
-/

set_option autoImplicit false

namespace ChunkStore.Engine

open ChunkStore.Index (Change Contents Entry Manifest)

/-- Two engines, each stored on its disk, with both disks in the same trouble. -/
structure BothStored (first : Engine) (disk : Disk) (second : Engine) (disk' : Disk) : Prop where
  left : first.IsStored disk
  right : second.IsStored disk'
  trouble : disk'.trouble = disk.trouble

/-- Two engines that hold the same and wait for the same, maybe in different places. -/
structure Alike (first second : Engine) : Prop where
  stopWords : second.stopWords = first.stopWords
  manifest : second.manifest = first.manifest
  segments : second.segments = first.segments
  staged : second.staged = first.staged

/-- What can be seen of a call: its answer, and the manifest and the chunks after it. -/
structure Observation where
  command : HandleCommand
  answer : Answer
  manifest : Manifest
  chunks : List Chunk

/-- Makes a call and looks. -/
def observe (state : Engine × Disk) (command : HandleCommand) : Observation where
  command := command
  answer := (Handle.runEngine state command).1
  manifest := (Handle.runEngine state command).2.1.manifest
  chunks := (Handle.runEngine state command).2.1.contents.chunks

variable {first second : Engine} {disk disk' : Disk}

theorem BothStored.runEngine (h : BothStored first disk second disk') {command : HandleCommand}
    (hlocal : command.isLocal = true) :
    BothStored (Handle.runEngine (first, disk) command).2.1
      (Handle.runEngine (first, disk) command).2.2
      (Handle.runEngine (second, disk') command).2.1
      (Handle.runEngine (second, disk') command).2.2 := by
  have hleft := h.left.worksAtHome_runEngine hlocal
  have hright := h.right.worksAtHome_runEngine hlocal
  exact ⟨hleft.isStored, hright.isStored,
    hright.writes.trouble.trans (h.trouble.trans hleft.writes.trouble.symm)⟩

theorem BothStored.troubled (h : BothStored first disk second disk') (room : Option Nat) :
    BothStored first { disk with trouble := room } second { disk' with trouble := room } :=
  ⟨h.left.troubled room, h.right.troubled room, rfl⟩

/-! ### Engines that differ in their places -/

theorem Alike.refl (engine : Engine) : Alike engine engine :=
  ⟨rfl, rfl, rfl, rfl⟩

theorem Alike.contents (h : Alike first second) : second.contents = first.contents := by
  unfold Engine.contents
  rw [h.manifest, h.segments]

theorem Alike.stage (h : Alike first second) (htrouble : disk'.trouble = disk.trouble)
    (changes : List Change) :
    (second.stage changes disk').1 = (first.stage changes disk).1 ∧
      Alike (first.stage changes disk).2 (second.stage changes disk').2 := by
  unfold Engine.stage
  rw [htrouble, h.staged]
  exact ⟨rfl, h.stopWords, h.manifest, h.segments, rfl⟩

theorem Alike.commit (h : Alike first second) (hboth : BothStored first disk second disk')
    (isComplete : Bool) (manifest : Manifest) :
    (second.commit isComplete manifest disk').1 = (first.commit isComplete manifest disk).1 ∧
      Alike (first.commit isComplete manifest disk).2.1
        (second.commit isComplete manifest disk').2.1 := by
  unfold Engine.commit
  rw [hboth.trouble, h.staged, h.segments]
  dsimp only
  split
  · exact ⟨rfl, h.stopWords, h.manifest, h.segments, rfl⟩
  · obtain ⟨after, hpublish⟩ := hboth.left.exists_publish_eq_ok
      ⟨Change.applyAll first.staged first.segments, some manifest.render⟩
    obtain ⟨after', hpublish'⟩ := hboth.right.exists_publish_eq_ok
      ⟨Change.applyAll first.staged first.segments, some manifest.render⟩
    rw [h.segments] at hpublish'
    rw [hpublish, hpublish']
    exact ⟨rfl, h.stopWords, rfl, rfl, rfl⟩

theorem Alike.carryOut (h : Alike first second) (hboth : BothStored first disk second disk')
    (plan : Plan) :
    (second.carryOut disk' plan).1 = (first.carryOut disk plan).1 ∧
      Alike (first.carryOut disk plan).2.1 (second.carryOut disk' plan).2.1 := by
  cases plan with
  | answer result => exact ⟨rfl, h⟩
  | strand changes => exact ⟨rfl, (h.stage hboth.trouble changes).2⟩
  | commit changes manifest =>
    obtain ⟨hcomplete, hstaged⟩ := h.stage hboth.trouble changes
    have hbothStaged : BothStored (first.stage changes disk).2 disk
        (second.stage changes disk').2 disk' :=
      ⟨hboth.left.withStaged _, hboth.right.withStaged _, hboth.trouble⟩
    unfold Engine.carryOut
    dsimp only
    rw [hcomplete]
    exact hstaged.commit hbothStaged _ _

theorem Alike.search (h : Alike first second) (text : String) (limit : Nat)
    (constraints : Constraints) :
    second.search text limit constraints = first.search text limit constraints := by
  unfold Engine.search candidates ranking entries
  rw [h.stopWords, h.segments]

/-- Engines that differ in nothing but their places answer every call alike, and stay alike. -/
theorem Alike.runEngine (h : Alike first second) (hboth : BothStored first disk second disk')
    {command : HandleCommand} (hlocal : command.isLocal = true) :
    (Handle.runEngine (second, disk') command).1 = (Handle.runEngine (first, disk) command).1 ∧
      Alike (Handle.runEngine (first, disk) command).2.1
        (Handle.runEngine (second, disk') command).2.1 := by
  cases command with
  | insert texts maps document docId requested =>
    simp only [Handle.runEngine, insert_eq_carryOut, h.manifest, h.stopWords]
    obtain ⟨hresult, halike⟩ := h.carryOut hboth
      (insertion first.stopWords first.manifest texts maps document docId requested)
    exact ⟨congrArg Answer.ofFallible hresult, halike⟩
  | delete docId keepLatest =>
    simp only [Handle.runEngine, delete_eq_carryOut, h.manifest]
    obtain ⟨hresult, halike⟩ := h.carryOut hboth (deletion first.manifest docId keepLatest)
    exact ⟨congrArg Answer.ofFallible hresult, halike⟩
  | query text topK constraints =>
    simp only [Handle.runEngine, h.search]
    split
    · exact ⟨rfl, h⟩
    · exact ⟨rfl, h⟩
  | sources =>
    refine ⟨?_, h⟩
    show Answer.sources second.manifest.sources = Answer.sources first.manifest.sources
    rw [h.manifest]
  | versionsOf docId =>
    refine ⟨?_, h⟩
    show Answer.versions (second.manifest.versionsOf docId).keys =
      Answer.versions (first.manifest.versionsOf docId).keys
    rw [h.manifest]
  | save | path | close => exact absurd hlocal (by simp [HandleCommand.isLocal])

/-- What can be seen of a call is the same where engines differ in nothing but their places. -/
theorem Alike.observe_eq (h : Alike first second) (hboth : BothStored first disk second disk')
    {command : HandleCommand} (hlocal : command.isLocal = true) :
    observe (second, disk') command = observe (first, disk) command := by
  obtain ⟨hanswer, halike⟩ := h.runEngine hboth hlocal
  unfold observe
  rw [hanswer, halike.manifest, halike.contents]

/-! ### Engines that hold the same manifest -/

/-- Where an engine is stored, whether a commit succeeds depends on the disk alone. -/
theorem commit_outcome {engine : Engine} (h : engine.IsStored disk) {isComplete : Bool}
    (hcomplete : disk.trouble = none → isComplete = true) (manifest : Manifest) :
    (engine.commit isComplete manifest disk).1 =
        (if disk.trouble.isSome then .error .rolledBack else .ok ()) ∧
      (engine.commit isComplete manifest disk).2.1.manifest =
        if disk.trouble.isSome then engine.manifest else manifest := by
  unfold Engine.commit
  cases htrouble : disk.trouble with
  | some room =>
    simp only [Option.isSome_some, Bool.or_true, if_true]
    exact ⟨trivial, rfl⟩
  | none =>
    obtain rfl := hcomplete htrouble
    obtain ⟨after, hpublish⟩ := h.exists_publish_eq_ok
      ⟨Change.applyAll engine.staged engine.segments, some manifest.render⟩
    simp only [Bool.not_true, Option.isSome_none, Bool.or_self, Bool.false_eq_true, if_false,
      hpublish]
    exact ⟨trivial, trivial⟩

/-- What a plan answers and records depends on the plan and the disk alone. -/
theorem carryOut_outcome {engine : Engine} (h : engine.IsStored disk) (plan : Plan) :
    (engine.carryOut disk plan).1 = plan.result disk.trouble.isSome ∧
      (engine.carryOut disk plan).2.1.manifest =
        plan.manifestAfter engine.manifest disk.trouble.isSome := by
  cases plan with
  | answer result => exact ⟨rfl, rfl⟩
  | strand changes => exact ⟨rfl, rfl⟩
  | commit changes manifest =>
    have hcomplete : disk.trouble = none → (engine.stage changes disk).1 = true := by
      intro htrouble
      simp [Engine.stage, htrouble]
    have hstaged : (engine.stage changes disk).2.IsStored disk := h.withStaged _
    exact commit_outcome hstaged hcomplete manifest

/-- Engines with the same manifest answer all calls but queries alike, and keep having the same. -/
theorem manifest_runEngine (hboth : BothStored first disk second disk')
    (h : second.manifest = first.manifest) {command : HandleCommand}
    (hlocal : command.isLocal = true) :
    (command.isQuery = false → (Handle.runEngine (second, disk') command).1 =
        (Handle.runEngine (first, disk) command).1) ∧
      (Handle.runEngine (second, disk') command).2.1.manifest =
        (Handle.runEngine (first, disk) command).2.1.manifest := by
  cases command with
  | insert texts maps document docId requested =>
    simp only [Handle.runEngine, insert_eq_carryOut]
    obtain ⟨hresult, hmanifest⟩ := carryOut_outcome hboth.left
      (insertion first.stopWords first.manifest texts maps document docId requested)
    obtain ⟨hresult', hmanifest'⟩ := carryOut_outcome hboth.right
      (insertion second.stopWords second.manifest texts maps document docId requested)
    obtain ⟨hsame, hsameManifest⟩ := insertion_stopWords second.stopWords first.stopWords
      first.manifest texts maps document docId requested disk.trouble.isSome
    rw [hresult, hmanifest, hresult', hmanifest', hboth.trouble, h, hsame, hsameManifest]
    exact ⟨fun _ => rfl, rfl⟩
  | delete docId keepLatest =>
    simp only [Handle.runEngine, delete_eq_carryOut]
    obtain ⟨hresult, hmanifest⟩ := carryOut_outcome hboth.left
      (deletion first.manifest docId keepLatest)
    obtain ⟨hresult', hmanifest'⟩ := carryOut_outcome hboth.right
      (deletion second.manifest docId keepLatest)
    rw [hresult, hmanifest, hresult', hmanifest', hboth.trouble, h]
    exact ⟨fun _ => rfl, rfl⟩
  | query text topK constraints =>
    rw [runEngine_query, runEngine_query]
    exact ⟨fun hquery => absurd hquery (by simp [HandleCommand.isQuery]), h⟩
  | sources =>
    refine ⟨fun _ => ?_, h⟩
    show Answer.sources second.manifest.sources = Answer.sources first.manifest.sources
    rw [h]
  | versionsOf docId =>
    refine ⟨fun _ => ?_, h⟩
    show Answer.versions (second.manifest.versionsOf docId).keys =
      Answer.versions (first.manifest.versionsOf docId).keys
    rw [h]
  | save | path | close => exact absurd hlocal (by simp [HandleCommand.isLocal])

/-! ### Engines that hold the same records -/

/-- Where an engine is stored, a change is settled unless the disk is in trouble. -/
theorem settle_outcome {engine : Engine} (h : engine.IsStored disk) (after : Contents) :
    disk.trouble.isSome = true ∧ engine.settle after disk = (.error .rolledBack, engine, disk) ∨
      disk.trouble.isSome = false ∧
        ∃ disk', engine.settle after disk = (.ok (), engine.withContents after, disk') := by
  unfold settle
  cases disk.trouble.isSome with
  | true => exact .inl ⟨rfl, rfl⟩
  | false =>
    obtain ⟨disk', hpublish⟩ := h.exists_publish_eq_ok after.toCommit
    rw [hpublish]
    exact .inr ⟨rfl, disk', rfl⟩

/-- Settling what differs in nothing but the words leaves what differs in nothing but the words. -/
theorem settle_sameRecords (hboth : BothStored first disk second disk')
    (hidle : first.staged = []) (hidle' : second.staged = [])
    (h : first.contents.SameRecords second.contents) {after after' : Contents}
    (hafter : after.SameRecords after') :
    (first.settle after disk).2.1.staged = [] ∧ (second.settle after' disk').2.1.staged = [] ∧
      (first.settle after disk).2.1.contents.SameRecords
        (second.settle after' disk').2.1.contents := by
  rcases settle_outcome hboth.left after with ⟨htrouble, hsettle⟩ | ⟨htrouble, _, hsettle⟩
  · rcases settle_outcome hboth.right after' with ⟨-, hsettle'⟩ | ⟨htrouble', -⟩
    · rw [hsettle, hsettle']
      exact ⟨hidle, hidle', h⟩
    · rw [hboth.trouble, htrouble] at htrouble'
      exact absurd htrouble' (by simp)
  · rcases settle_outcome hboth.right after' with ⟨htrouble', -⟩ | ⟨-, _, hsettle'⟩
    · rw [hboth.trouble, htrouble] at htrouble'
      exact absurd htrouble' (by simp)
    · rw [hsettle, hsettle']
      exact ⟨rfl, rfl, hafter⟩

/-- Engines with the same records keep having the same, whatever words they index, as long as the
chunk ids do not run out. -/
theorem sameRecords_runEngine (hboth : BothStored first disk second disk')
    (hidle : first.staged = []) (hidle' : second.staged = [])
    (h : first.contents.SameRecords second.contents) {command : HandleCommand}
    (hlocal : command.isLocal = true)
    (hids : (Handle.runEngine (second, disk') command).1 ≠ .fault .idsExhausted) :
    (Handle.runEngine (first, disk) command).2.1.staged = [] ∧
      (Handle.runEngine (second, disk') command).2.1.staged = [] ∧
      (Handle.runEngine (first, disk) command).2.1.contents.SameRecords
        (Handle.runEngine (second, disk') command).2.1.contents := by
  cases command with
  | insert texts maps document docId requested =>
    rcases h.insert first.stopWords second.stopWords texts maps document docId requested with
      ⟨fault, hfault, hfault'⟩ | ⟨after, after', hafter, hafter', hsame⟩
    · have hreturns : fault ≠ .idsExhausted := by
        rintro rfl
        exact hids (congrArg Answer.ofFallible (insert_of_idsExhausted hfault' disk'))
      have hrun := insert_eq hidle (by rw [hfault]; simpa using hreturns) disk
      have hrun' := insert_eq hidle' (by rw [hfault']; simpa using hreturns) disk'
      rw [hfault] at hrun
      rw [hfault'] at hrun'
      simp only [Handle.runEngine, hrun, hrun']
      exact ⟨hidle, hidle', h⟩
    · have hrun := insert_eq hidle (by rw [hafter]; simp) disk
      have hrun' := insert_eq hidle' (by rw [hafter']; simp) disk'
      rw [hafter] at hrun
      rw [hafter'] at hrun'
      simp only [Handle.runEngine, hrun, hrun']
      exact settle_sameRecords hboth hidle hidle' h hsame
  | delete docId keepLatest =>
    have hrun := delete_eq hidle docId keepLatest disk
    have hrun' := delete_eq hidle' docId keepLatest disk'
    rcases h.delete docId keepLatest with ⟨hnone, hnone'⟩ | ⟨after, after', hafter, hafter', hsame⟩
    · rw [hnone] at hrun
      rw [hnone'] at hrun'
      simp only [Handle.runEngine, hrun, hrun']
      exact ⟨hidle, hidle', h⟩
    · rw [hafter] at hrun
      rw [hafter'] at hrun'
      simp only [Handle.runEngine, hrun, hrun']
      exact settle_sameRecords hboth hidle hidle' h hsame
  | query text topK constraints =>
    rw [runEngine_query, runEngine_query]
    exact ⟨hidle, hidle', h⟩
  | sources | versionsOf docId => exact ⟨hidle, hidle', h⟩
  | save | path | close => exact absurd hlocal (by simp [HandleCommand.isLocal])

end ChunkStore.Engine
