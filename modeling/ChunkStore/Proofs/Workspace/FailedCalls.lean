import ChunkStore.Proofs.Workspace.Runs

/-!
# Calls that fail leave no trace

An insertion or a deletion that fails, whether it is refused or the disk fails while its changes are
staged or committed, leaves the workspace as it was: engine, disk and all.  So every run goes on as
if the call had never been made.
-/

set_option autoImplicit false

namespace ChunkStore.Workspace

variable {workspace : Workspace}

/-- A change that fails leaves the workspace as it was. -/
theorem step_of_isError (h : workspace.IsIdle) {name : String} {change : HandleCommand}
    {answer : Answer} (hchange : change.isChange = true)
    (hanswer : (workspace.step (.on name change)).1 = answer) (hfails : answer.IsError)
    (hids : ¬answer.IsOutOfIds) : workspace.step (.on name change) = (answer, workspace) := by
  unfold step at hanswer ⊢
  dsimp only at hanswer ⊢
  cases hfind : workspace.handles.find? name with
  | none =>
    rw [hfind] at hanswer
    rw [← hanswer] at hfails
    exact hfails.elim
  | some handle =>
    simp only [hfind] at hanswer ⊢
    cases hrun : handle.run workspace.disk change with
    | mk answer' state =>
      obtain ⟨engine, disk⟩ := state
      simp only [hrun] at hanswer ⊢
      subst hanswer
      rcases Handle.run_change (h name handle hfind) hchange hrun hids with
        ⟨-, rfl, rfl⟩ | ⟨hdone, -⟩
      · have hsame := Dict.insert_eq_self hfind
        cases change with
        | close => exact absurd hchange (by simp [HandleCommand.isChange])
        | _ =>
          show (answer', { workspace with handles := workspace.handles.insert name handle }) = _
          rw [hsame]
      · rw [hdone] at hfails
        exact hfails.elim

/-- A change that fails leaves nothing staged and has no effect on what comes after it: every run
with it answers all other commands as the run without it, and ends in the same workspace. -/
theorem failed_change_leaves_no_trace {start : Workspace} (hstart : start.handles = .empty)
    {before : List Event} (hids : ∀ answer ∈ (start.run before).1, ¬answer.IsOutOfIds)
    {name : String} {change : HandleCommand} {answer : Answer} (hchange : change.isChange = true)
    (hanswer : ((start.run before).2.step (.on name change)).1 = answer)
    (hfails : answer.IsError) (hreturns : ¬answer.IsOutOfIds) :
    (start.run before).2.step (.on name change) = (answer, (start.run before).2) ∧
      (start.run before).2.IsIdle ∧
      ∀ later,
        start.run (before ++ later) =
          ((start.run before).1 ++ ((start.run before).2.run later).1,
            ((start.run before).2.run later).2) ∧
        start.run (before ++ .command (.on name change) :: later) =
          ((start.run before).1 ++ answer :: ((start.run before).2.run later).1,
            ((start.run before).2.run later).2) := by
  have hidle : start.IsIdle := by
    intro other handle hfind
    rw [hstart] at hfind
    exact absurd hfind (by simp)
  have hreached := hidle.run hids
  have hstep := step_of_isError hreached hchange hanswer hfails hreturns
  refine ⟨hstep, hreached, ?_⟩
  intro later
  refine ⟨run_append start before later, ?_⟩
  rw [run_append]
  simp only [run, hstep]

/-- An engine is opened, and then the disk fails after one change. -/
def troubled : List Event := [
  .command (.openEngine "e" "." (some .default)),
  .outside fun disk => { disk with trouble := some 1 }]

theorem step_openEngine_empty :
    empty.step (.openEngine "e" "." (some .default)) =
      (.done, empty.install "e" ⟨.engine, .newEngine .default⟩ Engine.newDisk) := by
  have hopen := Engine.open_empty Settings.opens_default
  simp only [step]
  rw [show empty.disk = Disk.empty from rfl, hopen]

theorem rolled_back_insertion_leaves_no_trace :
    ((empty.run troubled).2.step (.on "e" (.insert ["one", "two"] [.empty, .empty] "a.txt" "a"
        none))) = (.fault .rolledBack, (empty.run troubled).2) := by
  have hrun : (empty.run troubled).1 = [.done] := by
    simp only [troubled, run, step_openEngine_empty]
  have hanswer : ((empty.run troubled).2.step (.on "e" (.insert ["one", "two"] [.empty, .empty]
      "a.txt" "a" none))).1 = .fault .rolledBack := by
    simp only [troubled, run, step_openEngine_empty]
    rfl
  have hids : ∀ answer ∈ (empty.run troubled).1, ¬answer.IsOutOfIds := by
    rw [hrun]
    simp [Answer.IsOutOfIds]
  exact (failed_change_leaves_no_trace rfl hids rfl hanswer trivial
    (by simp [Answer.IsOutOfIds])).1

end ChunkStore.Workspace
