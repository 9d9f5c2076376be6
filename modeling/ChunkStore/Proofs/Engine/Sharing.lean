import ChunkStore.Proofs.Engine.Alike
import ChunkStore.Proofs.Engine.Opening

/-!
# Engines that share a disk

Engines in different directories of one disk are called in any order, and save to wherever they like
but into each other's directories.  Then none has an effect on another: each sees what it would see
alone, finds the same when it is closed and opened again, and saves the same.
-/

set_option autoImplicit false

namespace ChunkStore.Engine

/-- An engine can be opened only in another directory than those that are open, and leaves those as
they were. -/
theorem IsStored.apart_of_open {engine other : Engine} {disk after : Disk} {path : String}
    {settings : Settings} (h : engine.IsStored disk)
    (hopen : Engine.open path settings disk = (.ok other, after)) :
    other.home ≠ engine.home ∧ engine.Untouched disk after := by
  obtain ⟨made, loaded, commit, hopened⟩ := open_inv hopen
  have hmade := h.untouched_of_gainsDirectories hopened.gains
  have hstored := h.of_untouched hmade
  obtain ⟨-, hwrites, -⟩ := loadOrCreate_inv hopened.load
  have hfree := hopened.free
  rw [hwrites.held] at hfree
  have hnumber : other.directoryNumber ≠ engine.directoryNumber := by
    intro heq
    rw [heq] at hfree
    exact hfree hstored.mem_held
  have hhome : other.home ≠ engine.home := by
    intro heq
    have hdirectory := hopened.directory
    rw [heq, hstored.directory] at hdirectory
    exact hnumber (Node.directory.inj (Option.some.inj hdirectory)).symm
  have huntouched := hmade.trans (hstored.untouched_of_writesIndex hhome hwrites)
  have hloaded := h.of_untouched huntouched
  have hkeeps : loaded.KeepsDirectories (loaded.hold other.directoryNumber) :=
    fun _ _ _ hnode => hnode
  refine ⟨hhome, huntouched.trans ?_⟩
  rw [hopened.after_eq]
  refine ⟨⟨rfl, rfl, fun _ => rfl, rfl⟩, ?_, List.count_cons_of_ne hnumber⟩
  rw [hloaded.located]
  exact Disk.locate_of_keepsDirectories hkeeps hloaded.located hloaded.directory

/-- What can happen where engines share a disk: a call to one of them, or a turn of the disk into
trouble or out of it. -/
inductive Turn (ι : Type) where
  | call (i : ι) (command : HandleCommand)
  | trouble (room : Option Nat)

/-- Engines that are stored in different directories of a disk. -/
structure Apart {ι : Type} (engines : ι → Engine) (disk : Disk) : Prop where
  isStored : ∀ i, (engines i).IsStored disk
  home_ne : ∀ i j, i ≠ j → (engines i).home ≠ (engines j).home

namespace Turn

variable {ι : Type}

/-- Whether a turn is no call or a call that works on the index. -/
def isLocal : Turn ι → Bool
  | .call _ command => command.isLocal
  | .trouble _ => true

/-- Whether a turn spares the directories of the engines that are not called: a save may go anywhere
else, and any other call works on the index of its engine. -/
def Spares (engines : ι → Engine) (disk : Disk) : Turn ι → Prop
  | .call i (.save path) => ∀ there,
    (disk.makeDirectories (.ofText path)).2.locate (.ofText path) = .ok there →
      ∀ j, j ≠ i → there ≠ (engines j).home
  | .call _ command => command.isLocal = true
  | .trouble _ => True

variable [DecidableEq ι]

/-- What a turn makes of engines and the disk that they share. -/
def take (turn : Turn ι) (state : (ι → Engine) × Disk) : (ι → Engine) × Disk :=
  match turn with
  | .call i command =>
    let after := (Handle.runEngine (state.1 i, state.2) command).2
    (Function.update state.1 i after.1, after.2)
  | .trouble room => (state.1, { state.2 with trouble := room })

/-- What a turn makes of one of the engines if it has the disk to itself. -/
def takeAlone (i : ι) (turn : Turn ι) (state : Engine × Disk) : Engine × Disk :=
  match turn with
  | .call j command => if j = i then (Handle.runEngine state command).2 else state
  | .trouble room => (state.1, { state.2 with trouble := room })

end Turn

section

variable {ι : Type} [DecidableEq ι]

/-- What is seen of the calls to engines that share a disk. -/
def together : List (Turn ι) → (ι → Engine) → Disk → List (ι × Observation)
  | [], _, _ => []
  | .call i command :: rest, engines, disk =>
    let after := (Handle.runEngine (engines i, disk) command).2
    (i, observe (engines i, disk) command) ::
      together rest (Function.update engines i after.1) after.2
  | .trouble room :: rest, engines, disk => together rest engines { disk with trouble := room }

/-- What is seen of the calls to one of the engines if it has the disk to itself. -/
def alone (i : ι) : List (Turn ι) → Engine × Disk → List Observation
  | [], _ => []
  | .call j command :: rest, state =>
    if j = i then observe state command :: alone i rest (Handle.runEngine state command).2
    else alone i rest state
  | .trouble room :: rest, (engine, disk) => alone i rest (engine, { disk with trouble := room })

/-- What one of the engines sees of all that is seen. -/
def seenBy (i : ι) (seen : List (ι × Observation)) : List Observation :=
  (seen.filter fun entry => entry.1 = i).map Prod.snd

/-- Engines and the disk that they share after all turns. -/
def afterTogether (turns : List (Turn ι)) (state : (ι → Engine) × Disk) : (ι → Engine) × Disk :=
  turns.foldl (fun state turn => turn.take state) state

/-- One of the engines and the disk that it has to itself after all turns. -/
def afterAlone (i : ι) (turns : List (Turn ι)) (state : Engine × Disk) : Engine × Disk :=
  turns.foldl (fun state turn => turn.takeAlone i state) state

/-- Whether every turn spares the directories of the engines that are not called. -/
def AllSpare : List (Turn ι) → (ι → Engine) × Disk → Prop
  | [], _ => True
  | turn :: rest, state => turn.Spares state.1 state.2 ∧ AllSpare rest (turn.take state)

end

/-- What is seen of a call, but not whether a save succeeded. -/
def Observation.regardless (seen : Observation) : Observation :=
  match seen.command with
  | .save _ => { seen with answer := .done }
  | _ => seen

section

variable {ι : Type} {state : (ι → Engine) × Disk}

theorem Apart.troubled {engines : ι → Engine} {disk : Disk} (h : Apart engines disk)
    (room : Option Nat) : Apart engines { disk with trouble := room } :=
  ⟨fun i => (h.isStored i).troubled room, h.home_ne⟩

/-- A save by one of the engines that spares the others leaves the directories of all as they
were. -/
theorem Apart.untouched_save {engines : ι → Engine} {disk : Disk} (h : Apart engines disk) {i : ι}
    {path : String} (hspares : Turn.Spares engines disk (.call i (.save path))) (j : ι) :
    (engines j).Untouched disk ((engines i).save path disk).2 := by
  by_cases hj : j = i
  · subst hj
    exact Engine.untouched_save (h.isStored j) path
  · exact (h.isStored j).untouched_save fun there hthere _ => hspares there hthere j hj

variable [DecidableEq ι]

/-- A turn that spares the others keeps all engines stored where they are. -/
theorem Apart.take (h : Apart state.1 state.2) {turn : Turn ι}
    (hspares : turn.Spares state.1 state.2) : Apart (turn.take state).1 (turn.take state).2 := by
  obtain ⟨engines, disk⟩ := state
  have hlocal : ∀ i command, command.isLocal = true →
      Apart (Turn.take (.call i command) (engines, disk)).1
        (Turn.take (.call i command) (engines, disk)).2 := by
    intro i command hlocal
    have hworks := (h.isStored i).worksAtHome_runEngine hlocal
    have hhome : ∀ j, ((Turn.take (.call i command) (engines, disk)).1 j).home =
        (engines j).home := by
      intro j
      by_cases hj : j = i
      · subst hj
        simp only [Turn.take, Function.update_self]
        exact hworks.home
      · simp only [Turn.take, Function.update_of_ne hj]
    refine ⟨?_, ?_⟩
    · intro j
      by_cases hj : j = i
      · subst hj
        simp only [Turn.take, Function.update_self]
        exact hworks.isStored
      · simp only [Turn.take, Function.update_of_ne hj]
        have huntouched := (h.isStored j).untouched_of_writesIndex (h.home_ne i j (Ne.symm hj))
          hworks.writes
        exact (h.isStored j).of_untouched huntouched
    · intro j k hjk
      rw [hhome, hhome]
      exact h.home_ne j k hjk
  cases turn with
  | trouble room => exact h.troubled room
  | call i command =>
    cases command with
    | save path =>
      have huntouched := h.untouched_save hspares
      simp only [Turn.take, Handle.runEngine, Function.update_eq_self]
      exact ⟨fun j => (h.isStored j).of_untouched (huntouched j), h.home_ne⟩
    | insert | delete | query | sources | versionsOf => exact hlocal i _ hspares
    | path | close => exact absurd hspares (by simp [Turn.Spares, HandleCommand.isLocal])

/-- One of several engines that share a disk, and an engine that holds the same with a disk to
itself. -/
structure Beside (i : ι) (state : (ι → Engine) × Disk) (lone : Engine × Disk) : Prop where
  apart : Apart state.1 state.2
  both : BothStored lone.1 lone.2 (state.1 i) state.2
  alike : Alike lone.1 (state.1 i)

variable {i : ι} {lone : Engine × Disk}

/-- A turn keeps the two alike. -/
theorem Beside.take (h : Beside i state lone) {turn : Turn ι}
    (hspares : turn.Spares state.1 state.2) :
    Beside i (turn.take state) (turn.takeAlone i lone) := by
  obtain ⟨engines, disk⟩ := state
  have hafter := h.apart.take hspares
  cases turn with
  | trouble room => exact ⟨hafter, h.both.troubled room, h.alike⟩
  | call j command =>
    by_cases hj : j = i
    · -- A call to the engine itself, which its twin answers alike.
      subst hj
      have hself : (Turn.take (.call j command) (engines, disk)).1 j =
          (Handle.runEngine (engines j, disk) command).2.1 := Function.update_self _ _ _
      have hlone : Turn.takeAlone j (.call j command) lone =
          (Handle.runEngine lone command).2 := if_pos rfl
      have hlocal : command.isLocal = true → Beside j (Turn.take (.call j command) (engines, disk))
          (Turn.takeAlone j (.call j command) lone) := by
        intro hlocal
        refine ⟨hafter, ?_, ?_⟩
        · rw [hself, hlone]
          exact h.both.runEngine hlocal
        · rw [hself, hlone]
          exact (h.alike.runEngine h.both hlocal).2
      cases command with
      | save path =>
        refine ⟨hafter, ?_, ?_⟩
        · obtain ⟨-, -, htrouble⟩ := save_keeps (engines j) path disk
          obtain ⟨-, -, htrouble'⟩ := save_keeps lone.1 path lone.2
          rw [hlone]
          exact ⟨h.both.left.of_untouched (Engine.untouched_save h.both.left path),
            hafter.isStored j, htrouble.trans (h.both.trouble.trans htrouble'.symm)⟩
        · rw [hself, hlone]
          exact h.alike
      | insert | delete | query | sources | versionsOf => exact hlocal hspares
      | path | close => exact absurd hspares (by simp [Turn.Spares, HandleCommand.isLocal])
    · -- A call to another engine, which leaves the engine and its directory as they were.
      have hstays : (Turn.take (.call j command) (engines, disk)).1 i = engines i :=
        Function.update_of_ne (Ne.symm hj) _ _
      have hlone : Turn.takeAlone i (.call j command) lone = lone := if_neg hj
      have htrouble : (Turn.take (.call j command) (engines, disk)).2.trouble = disk.trouble :=
        trouble_runEngine (engines j, disk) command
      rw [hlone]
      exact ⟨hafter, ⟨h.both.left, hafter.isStored i, htrouble.trans h.both.trouble⟩, by
        rw [hstays]
        exact h.alike⟩

/-- The two stay alike through all turns. -/
theorem Beside.run {turns : List (Turn ι)} (h : Beside i state lone)
    (hspare : AllSpare turns state) :
    Beside i (afterTogether turns state) (afterAlone i turns lone) := by
  induction turns generalizing state lone with
  | nil => exact h
  | cons turn turns ih => exact ih (h.take hspare.1) hspare.2

omit [DecidableEq ι] in
/-- What is seen of a call to the engine itself. -/
theorem Beside.observe_regardless (h : Beside i state lone) {command : HandleCommand}
    (hspares : Turn.Spares state.1 state.2 (.call i command)) :
    (observe (state.1 i, state.2) command).regardless = (observe lone command).regardless := by
  cases command with
  | save path =>
    have hmanifest := h.alike.manifest
    have hcontents := h.alike.contents
    simp only [observe, Observation.regardless, Handle.runEngine, hmanifest, hcontents]
  | insert | delete | query | sources | versionsOf =>
    exact congrArg Observation.regardless (h.alike.observe_eq h.both hspares)
  | path | close => exact absurd hspares (by simp [Turn.Spares, HandleCommand.isLocal])

/-- The two see the same of all turns, as far as they see the same of each call that is made. -/
theorem Beside.map_seenBy_together {α : Type} {look : Observation → α} {turns : List (Turn ι)}
    (h : Beside i state lone) (hspare : AllSpare turns state)
    (hlook : ∀ command, Turn.call i command ∈ turns → ∀ state lone, Beside i state lone →
      Turn.Spares state.1 state.2 (.call i command) →
        look (observe (state.1 i, state.2) command) = look (observe lone command)) :
    (seenBy i (together turns state.1 state.2)).map look = (alone i turns lone).map look := by
  induction turns generalizing state lone with
  | nil => rfl
  | cons turn turns ih =>
    obtain ⟨hturn, hrest⟩ := hspare
    have hlater := ih (h.take hturn) hrest fun command hmem =>
      hlook command (List.mem_cons_of_mem turn hmem)
    cases turn with
    | trouble room => exact hlater
    | call j command =>
      unfold seenBy at hlater ⊢
      by_cases hj : j = i
      · subst hj
        have hseen := hlook command List.mem_cons_self state lone h hturn
        simp only [Turn.takeAlone, if_true] at hlater
        simp only [together, alone, decide_true, List.filter_cons_of_pos, List.map_cons, if_true,
          hseen]
        exact congrArg _ hlater
      · simp only [Turn.takeAlone, hj, if_false] at hlater
        simp only [together, alone, hj, decide_false, Bool.false_eq_true, not_false_eq_true,
          List.filter_cons_of_neg, if_false]
        exact hlater

end

end ChunkStore.Engine
