import ChunkStore.Proofs.Engine.FailedSaving
import ChunkStore.Proofs.Workspace.Occupancy

/-!
# Saves that fail in a workspace

However a workspace was used, a save that fails there leaves all handles as they are, and keeps what
openings find and what engines answer.
-/

set_option autoImplicit false

namespace ChunkStore

namespace Workspace

/-- The path of every engine leads to its home or nowhere. -/
def IsPlaced (workspace : Workspace) : Prop :=
  ∀ name handle, workspace.handles.find? name = some handle →
    Path.destination (.ofText handle.engine.path) = handle.engine.home

variable {before after : Workspace}

theorem IsPlaced.becomes (h : before.IsPlaced) {touched : Disk → Disk → Prop}
    (hbecomes : Becomes touched before after) : after.IsPlaced := by
  intro other found hfound
  cases hbecomes with
  | quiet => exact h other found hfound
  | opened hopen =>
    rw [find?_install] at hfound
    split at hfound
    · obtain rfl := Option.some.inj hfound
      obtain ⟨made, loaded, commit, hopened⟩ := Engine.open_inv hopen
      dsimp only
      rw [hopened.path]
      exact Disk.destination_of_locate hopened.located
    · exact h other found hfound
  | @called name handle engine disk hfind hpath _ hhome _ =>
    rw [Dict.find?_insert] at hfound
    split at hfound
    · obtain rfl := Option.some.inj hfound
      dsimp only
      rw [hpath, hhome]
      exact h name handle hfind
    · exact h other found hfound
  | closed hfind =>
    rw [Dict.find?_erase] at hfound
    split at hfound
    · exact absurd hfound (by simp)
    · exact h other found hfound

/-- What any event makes of a workspace, however it touches the disk. -/
theorem becomes_take_of_any (event : Event) (workspace : Workspace) :
    Becomes (fun _ _ => True) workspace (workspace.take event) := by
  cases event with
  | outside change => exact .quiet trivial
  | command command =>
    cases hremoval : command.isRemoval with
    | false => exact (workspace.becomes_step hremoval).mono fun _ _ _ => trivial
    | true =>
      cases command with
      | file command => exact .quiet trivial
      | _ => exact absurd hremoval (by simp [Command.isRemoval])

theorem IsPlaced.run (h : before.IsPlaced) (events : List Event) :
    (before.run events).2.IsPlaced :=
  run_induction (fun event _ current hcurrent =>
    hcurrent.becomes (becomes_take_of_any event current)) h

end Workspace

end ChunkStore
