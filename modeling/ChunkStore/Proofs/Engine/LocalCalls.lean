import ChunkStore.Proofs.Engine.Sharing

/-!
# What calls look at

Calls that read or change an index look at little of a disk: at the trouble that it is in, and at
whether a commit goes through, which the directory of the index and its description decide.  On
disks that agree about these the calls come to the same, whether an index is there or not.
-/

set_option autoImplicit false

namespace ChunkStore

open ChunkStore.Index (Manifest)

namespace Disk

/-- The directory of an index and its description are the same on another disk, and the description
can be written there as well. -/
structure AgreeAt (home : Location) (first second : Disk) : Prop where
  directory : second.nodes home = first.nodes home
  description : second.nodes (descriptionOf home) = first.nodes (descriptionOf home)
  protection : second.isProtected (descriptionOf home) = first.isProtected (descriptionOf home)

variable {disk after first second : Disk} {home there : Location}

theorem WritesIndex.nodes_there (h : disk.WritesIndex there after) :
    after.nodes there = disk.nodes there :=
  h.elsewhere there (List.cons_ne_self _ _).symm fun _ => (List.cons_ne_self _ _).symm

/-- A commit goes through where there is a directory in which the description can be written. -/
theorem exists_publish_iff {known : List Index.Segment} {commit : Commit} :
    (∃ after, disk.publish home known commit = .ok after) ↔
      (∃ number, disk.nodes home = some (.directory number)) ∧
        disk.CanWrite (descriptionOf home) := by
  constructor
  · rintro ⟨after, hpublish⟩
    refine ⟨?_, canWrite_of_publish hpublish⟩
    unfold publish at hpublish
    split at hpublish
    · exact absurd hpublish (by simp)
    · next number hnode => exact ⟨number, hnode⟩
    · exact absurd hpublish (by simp)
  · rintro ⟨⟨number, hnode⟩, hwritable, hfile⟩
    exact exists_publish_eq_ok hnode hwritable hfile known commit

/-- The same commits to an index go through on two disks. -/
def TakeAlike (home : Location) (first second : Disk) : Prop :=
  ∀ known commit, (∃ written, second.publish home known commit = .ok written) ↔
    ∃ written, first.publish home known commit = .ok written

theorem TakeAlike.publish (h : first.TakeAlike home second) (known : List Index.Segment)
    (commit : Commit) :
    (∃ written written', first.publish home known commit = .ok written ∧
        second.publish home known commit = .ok written') ∨
      ∃ fault fault', first.publish home known commit = .error fault ∧
        second.publish home known commit = .error fault' := by
  cases hfirst : first.publish home known commit with
  | ok written =>
    obtain ⟨written', hsecond⟩ := (h known commit).2 ⟨written, hfirst⟩
    exact .inl ⟨written, written', rfl, hsecond⟩
  | error fault =>
    cases hsecond : second.publish home known commit with
    | ok written' =>
      obtain ⟨written, hok⟩ := (h known commit).1 ⟨written', hsecond⟩
      rw [hfirst] at hok
      exact absurd hok (by simp)
    | error fault' => exact .inr ⟨fault, fault', rfl, rfl⟩

theorem AgreeAt.takeAlike (h : first.AgreeAt home second) : first.TakeAlike home second := by
  intro known commit
  rw [exists_publish_iff, exists_publish_iff, h.directory]
  unfold CanWrite
  rw [h.description, h.protection]

/-- After a commit that went through on both, two disks agree again. -/
theorem AgreeAt.of_publish (h : first.AgreeAt home second) {known : List Index.Segment}
    {commit : Commit} {written written' : Disk}
    (hfirst : first.publish home known commit = .ok written)
    (hsecond : second.publish home known commit = .ok written') :
    written.AgreeAt home written' := by
  obtain ⟨hwrites, -, hnode, -⟩ := publish_inv hfirst
  obtain ⟨hwrites', -, hnode', -⟩ := publish_inv hsecond
  refine ⟨?_, hnode'.trans hnode.symm, ?_⟩
  · rw [hwrites'.nodes_there, hwrites.nodes_there, h.directory]
  · rw [hwrites'.isProtected, hwrites.isProtected, h.protection]

theorem AgreeAt.readDescription (h : first.AgreeAt home second) :
    second.readDescription home = first.readDescription home := by
  unfold Disk.readDescription
  rw [h.description]

/-- Two disks that agree open with the same commit. -/
theorem AgreeAt.loadOrCreate (h : first.AgreeAt home second) :
    (second.loadOrCreate home).1 = (first.loadOrCreate home).1 := by
  unfold Disk.loadOrCreate
  rw [h.readDescription]
  split
  · rcases h.takeAlike.publish [] ⟨[], none⟩ with ⟨_, _, hfirst, hsecond⟩ | ⟨_, _, hfirst, hsecond⟩
    · rw [hfirst, hsecond]
    · rw [hfirst, hsecond]
  · rfl

end Disk

namespace Engine

variable {engine : Engine} {first second : Disk}

/-- Two disks in the same trouble that take the commits of an engine alike. -/
structure SeesAlike (engine : Engine) (first second : Disk) : Prop where
  takes : first.TakeAlike engine.home second
  trouble : second.trouble = first.trouble

theorem SeesAlike.stage (h : engine.SeesAlike first second) (changes : List Index.Change) :
    engine.stage changes second = engine.stage changes first := by
  unfold Engine.stage
  rw [h.trouble]

theorem SeesAlike.commit (h : engine.SeesAlike first second) (isComplete : Bool)
    (manifest : Manifest) :
    (engine.commit isComplete manifest second).1 = (engine.commit isComplete manifest first).1 ∧
      (engine.commit isComplete manifest second).2.1 =
        (engine.commit isComplete manifest first).2.1 := by
  unfold Engine.commit
  dsimp only
  rw [h.trouble]
  split
  · exact ⟨rfl, rfl⟩
  · rcases h.takes.publish _ ⟨_, _⟩ with ⟨_, _, hfirst, hsecond⟩ | ⟨_, _, hfirst, hsecond⟩
    · rw [hfirst, hsecond]
      exact ⟨rfl, rfl⟩
    · rw [hfirst, hsecond]
      exact ⟨rfl, rfl⟩

theorem SeesAlike.carryOut (h : engine.SeesAlike first second) (plan : Plan) :
    (engine.carryOut second plan).1 = (engine.carryOut first plan).1 ∧
      (engine.carryOut second plan).2.1 = (engine.carryOut first plan).2.1 := by
  cases plan with
  | answer result => exact ⟨rfl, rfl⟩
  | strand changes =>
    refine ⟨rfl, ?_⟩
    show (engine.stage changes second).2 = (engine.stage changes first).2
    rw [h.stage]
  | commit changes manifest =>
    have hstaged : (engine.stage changes first).2.SeesAlike first second := ⟨h.takes, h.trouble⟩
    unfold Engine.carryOut
    dsimp only
    rw [h.stage]
    exact hstaged.commit _ _

/-- Calls that read or change the index are answered the same on both disks, and leave the engine
the same. -/
theorem SeesAlike.runEngine (h : engine.SeesAlike first second) {command : HandleCommand}
    (hlocal : command.isLocal = true) :
    (Handle.runEngine (engine, second) command).1 = (Handle.runEngine (engine, first) command).1 ∧
      (Handle.runEngine (engine, second) command).2.1 =
        (Handle.runEngine (engine, first) command).2.1 := by
  cases command with
  | insert texts maps document docId requested =>
    simp only [Handle.runEngine, insert_eq_carryOut]
    exact (h.carryOut _).imp_left (congrArg Answer.ofFallible)
  | delete docId keepLatest =>
    simp only [Handle.runEngine, delete_eq_carryOut]
    exact (h.carryOut _).imp_left (congrArg Answer.ofFallible)
  | query text topK constraints =>
    rw [runEngine_query, runEngine_query]
    refine ⟨?_, rfl⟩
    simp only [Handle.runEngine]
    split <;> rfl
  | sources | versionsOf docId => exact ⟨rfl, rfl⟩
  | save | path | close => exact absurd hlocal (by simp [HandleCommand.isLocal])

theorem SeesAlike.observe_eq (h : engine.SeesAlike first second) {command : HandleCommand}
    (hlocal : command.isLocal = true) :
    observe (engine, second) command = observe (engine, first) command := by
  obtain ⟨hanswer, hengine⟩ := h.runEngine hlocal
  unfold observe
  rw [hanswer, hengine]

/-! ### Disks that agree about the directory of an engine -/

/-- Two disks in the same trouble that agree about the directory of an engine. -/
structure AgreesAtHome (engine : Engine) (first second : Disk) : Prop where
  agree : first.AgreeAt engine.home second
  trouble : second.trouble = first.trouble

theorem AgreesAtHome.seesAlike (h : engine.AgreesAtHome first second) :
    engine.SeesAlike first second :=
  ⟨h.agree.takeAlike, h.trouble⟩

theorem AgreesAtHome.commit (h : engine.AgreesAtHome first second) (isComplete : Bool)
    (manifest : Manifest) :
    (engine.commit isComplete manifest first).2.2.AgreeAt engine.home
      (engine.commit isComplete manifest second).2.2 := by
  unfold Engine.commit
  dsimp only
  rw [h.trouble]
  split
  · exact h.agree
  · rcases h.agree.takeAlike.publish _ ⟨_, _⟩ with
      ⟨_, _, hfirst, hsecond⟩ | ⟨_, _, hfirst, hsecond⟩
    · rw [hfirst, hsecond]
      exact h.agree.of_publish hfirst hsecond
    · rw [hfirst, hsecond]
      exact h.agree

theorem AgreesAtHome.carryOut (h : engine.AgreesAtHome first second) (plan : Plan) :
    (engine.carryOut first plan).2.2.AgreeAt engine.home (engine.carryOut second plan).2.2 := by
  cases plan with
  | answer result => exact h.agree
  | strand changes => exact h.agree
  | commit changes manifest =>
    have hstaged : (engine.stage changes first).2.AgreesAtHome first second := ⟨h.agree, h.trouble⟩
    unfold Engine.carryOut
    dsimp only
    rw [h.seesAlike.stage]
    exact hstaged.commit _ _

/-- Calls that read or change the index leave two disks to agree. -/
theorem AgreesAtHome.runEngine (h : engine.AgreesAtHome first second) {command : HandleCommand}
    (hlocal : command.isLocal = true) :
    (Handle.runEngine (engine, first) command).2.1.AgreesAtHome
      (Handle.runEngine (engine, first) command).2.2
      (Handle.runEngine (engine, second) command).2.2 := by
  have hagree : (Handle.runEngine (engine, first) command).2.2.AgreeAt engine.home
      (Handle.runEngine (engine, second) command).2.2 := by
    cases command with
    | insert texts maps document docId requested =>
      simp only [Handle.runEngine, insert_eq_carryOut]
      exact h.carryOut _
    | delete docId keepLatest =>
      simp only [Handle.runEngine, delete_eq_carryOut]
      exact h.carryOut _
    | query text topK constraints =>
      rw [runEngine_query, runEngine_query]
      exact h.agree
    | sources | versionsOf docId => exact h.agree
    | save | path | close => exact absurd hlocal (by simp [HandleCommand.isLocal])
  constructor
  · rw [(engine.runEngine_place first command).2.1]
    exact hagree
  · rw [trouble_runEngine, trouble_runEngine]
    exact h.trouble

/-- An engine answers such calls alike on both disks, however many are made. -/
theorem AgreesAtHome.alone {ι : Type} [DecidableEq ι] {i : ι} {turns : List (Turn ι)}
    (h : engine.AgreesAtHome first second) (hlocal : ∀ turn ∈ turns, turn.isLocal = true) :
    alone i turns (engine, second) = alone i turns (engine, first) := by
  induction turns generalizing engine first second with
  | nil => rfl
  | cons turn turns ih =>
    obtain ⟨hturn, hrest⟩ := List.forall_mem_cons.1 hlocal
    cases turn with
    | trouble room =>
      have hlater : engine.AgreesAtHome { first with trouble := room }
          { second with trouble := room } :=
        ⟨⟨h.agree.directory, h.agree.description, h.agree.protection⟩, rfl⟩
      exact ih hlater hrest
    | call j command =>
      unfold Engine.alone
      split
      · have hstate : (Handle.runEngine (engine, second) command).2 =
            ((Handle.runEngine (engine, first) command).2.1,
              (Handle.runEngine (engine, second) command).2.2) :=
          Prod.ext (h.seesAlike.runEngine hturn).2 rfl
        rw [h.seesAlike.observe_eq hturn, hstate]
        exact congrArg _ (ih (h.runEngine hturn) hrest)
      · exact ih h hrest

end Engine

end ChunkStore
