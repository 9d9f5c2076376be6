import ChunkStore.Proofs.Engine.Alike
import ChunkStore.Proofs.Engine.Reachable

/-!
# Closing and opening again cannot be seen

A session is a list of calls in which the engine may be closed and opened again anywhere, under any
settings that can be opened with, while the disk gets into trouble and out of it.  Without the
reopens the same session gives the same answers, versions, ids and chunks, and to queries as well if
all settings have the same stop words.  `session_filter` is the simulation behind this: it is used
with what has to stay the same for the manifest, for the chunks, and for everything.
-/

set_option autoImplicit false

namespace ChunkStore.Engine

open ChunkStore.Index (Manifest)

/-- A step of a session: a call, closing and opening again, or a turn of the disk into trouble or
out of it. -/
inductive Step where
  | call (command : HandleCommand)
  | reopen (settings : Settings)
  | trouble (room : Option Nat)

namespace Step

/-- Whether a step closes and opens the engine. -/
def isReopen : Step → Bool
  | .reopen _ => true
  | _ => false

/-- Whether a step is one that sessions are made of: calls that work on the index, and settings that
it can be opened with. -/
def IsOrdinary : Step → Prop
  | .call command => command.isLocal = true
  | .reopen settings => settings.Opens
  | .trouble _ => True

end Step

/-- What can be seen of a call without a look at the chunks. -/
def Observation.bookkeeping (seen : Observation) : HandleCommand × Option Answer × Manifest :=
  (seen.command, if seen.command.isQuery then none else some seen.answer, seen.manifest)

/-- What can be seen of the calls of a session, unless the engine cannot be opened again. -/
def session : List Step → Engine × Disk → Except EngineFault (List Observation)
  | [], _ => .ok []
  | .call command :: rest, state =>
    (session rest (Handle.runEngine state command).2).map (observe state command :: ·)
  | .reopen settings :: rest, (engine, disk) =>
    match Engine.open engine.path settings (engine.close disk) with
    | (.error fault, _) => .error fault
    | (.ok engine, disk) => session rest (engine, disk)
  | .trouble room :: rest, (engine, disk) =>
    session rest (engine, { disk with trouble := room })

theorem IsStored.reopened {engine : Engine} {disk : Disk} (h : engine.IsStored disk)
    {settings : Settings} (hsettings : settings.Opens) :
    ({ engine with stopWords := settings.stopWords, staged := [] } : Engine).IsStored
      (engine.reheld disk) :=
  isStored_of_open (open_close h hsettings) h.index.writable

theorem exists_session_eq_ok {steps : List Step} (h : ∀ step ∈ steps, step.isReopen = false)
    (state : Engine × Disk) : ∃ seen, session steps state = .ok seen := by
  induction steps generalizing state with
  | nil => exact ⟨[], rfl⟩
  | cons step steps ih =>
    obtain ⟨hstep, hrest⟩ := List.forall_mem_cons.1 h
    cases step with
    | call command =>
      obtain ⟨seen, hseen⟩ := ih hrest (Handle.runEngine state command).2
      refine ⟨observe state command :: seen, ?_⟩
      simp only [session, hseen, Except.map]
    | reopen settings => exact absurd hstep (by simp [Step.isReopen])
    | trouble room => exact ih hrest _

/-- If a relation between states is kept by every call on both sides and by reopening on one side,
and related states look the same, then a session looks the same without its reopens. -/
theorem session_filter {β : Type} (related : Engine × Disk → Engine × Disk → Prop)
    (look : Observation → β) (admits : Observation → Prop) (may : Settings → Prop)
    (hcall : ∀ left right command, related left right → command.isLocal = true →
      admits (observe right command) →
        look (observe left command) = look (observe right command) ∧
          related (Handle.runEngine left command).2 (Handle.runEngine right command).2)
    (hreopen : ∀ left right settings, related left right → settings.Opens → may settings →
      ∃ after, Engine.open left.1.path settings (left.1.close left.2) = (.ok after.1, after.2) ∧
        related after right)
    (htrouble : ∀ left right room, related left right →
      related (left.1, { left.2 with trouble := room }) (right.1, { right.2 with trouble := room }))
    {steps : List Step} (hordinary : ∀ step ∈ steps, step.IsOrdinary)
    (hmay : ∀ settings, .reopen settings ∈ steps → may settings) {left right : Engine × Disk}
    (h : related left right) {seen : List Observation}
    (hseen : session (steps.filter fun step => !step.isReopen) right = .ok seen)
    (hadmits : ∀ observation ∈ seen, admits observation) :
    ∃ seen', session steps left = .ok seen' ∧ seen'.map look = seen.map look := by
  induction steps generalizing left right seen with
  | nil =>
    obtain rfl := Except.ok.inj hseen
    exact ⟨[], rfl, rfl⟩
  | cons step steps ih =>
    obtain ⟨hstep, hrest⟩ := List.forall_mem_cons.1 hordinary
    have hmayRest : ∀ settings, .reopen settings ∈ steps → may settings :=
      fun settings hmem => hmay settings (List.mem_cons_of_mem step hmem)
    cases step with
    | call command =>
      rw [List.filter_cons_of_pos rfl] at hseen
      unfold session at hseen
      cases hafter : session (steps.filter fun step => !step.isReopen)
          (Handle.runEngine right command).2 with
      | error fault => simp [hafter, Except.map] at hseen
      | ok later =>
        rw [hafter] at hseen
        obtain rfl := Except.ok.inj hseen
        obtain ⟨hfirst, hlater⟩ := List.forall_mem_cons.1 hadmits
        obtain ⟨hlook, hrelated⟩ := hcall left right command h hstep hfirst
        obtain ⟨later', hsession, hmap⟩ := ih hrest hmayRest hrelated hafter hlater
        refine ⟨observe left command :: later', ?_, ?_⟩
        · simp only [session, hsession, Except.map]
        · rw [List.map_cons, List.map_cons, hlook, hmap]
    | reopen settings =>
      -- Only the side with the reopens makes this step, so the other has to stay related to it.
      rw [List.filter_cons_of_neg (by simp [Step.isReopen])] at hseen
      obtain ⟨after, hopen, hrelated⟩ :=
        hreopen left right settings h hstep (hmay settings List.mem_cons_self)
      obtain ⟨seen', hsession, hmap⟩ := ih hrest hmayRest hrelated hseen hadmits
      refine ⟨seen', ?_, hmap⟩
      simp only [session, hopen, hsession]
    | trouble room =>
      rw [List.filter_cons_of_pos rfl] at hseen
      exact ih hrest hmayRest (htrouble left right room h) hseen hadmits

theorem BothStored.reopened {left right : Engine × Disk}
    (h : BothStored left.1 left.2 right.1 right.2) {settings : Settings}
    (hsettings : settings.Opens) :
    BothStored { left.1 with stopWords := settings.stopWords, staged := [] }
      (left.1.reheld left.2) right.1 right.2 :=
  ⟨h.left.reopened hsettings, h.right, h.trouble⟩

section

variable {steps : List Step} {engine : Engine} {disk : Disk} {seen : List Observation}

theorem session_bookkeeping (h : engine.IsStored disk)
    (hordinary : ∀ step ∈ steps, step.IsOrdinary)
    (hseen : session (steps.filter fun step => !step.isReopen) (engine, disk) = .ok seen) :
    ∃ seen', session steps (engine, disk) = .ok seen' ∧
      seen'.map Observation.bookkeeping = seen.map Observation.bookkeeping := by
  refine session_filter
    (fun left right => BothStored left.1 left.2 right.1 right.2 ∧
      right.1.manifest = left.1.manifest)
    Observation.bookkeeping (fun _ => True) (fun _ => True) ?_ ?_ ?_ hordinary
    (fun _ _ => trivial) ⟨⟨h, h, rfl⟩, rfl⟩ hseen (fun _ _ => trivial)
  · rintro left right command ⟨hboth, hmanifest⟩ hlocal -
    obtain ⟨hanswer, hafter⟩ := manifest_runEngine hboth hmanifest hlocal
    refine ⟨?_, hboth.runEngine hlocal, hafter⟩
    unfold Observation.bookkeeping observe
    dsimp only
    rw [hafter]
    cases hquery : command.isQuery with
    | true => rfl
    | false => rw [hanswer hquery]
  · rintro left right settings ⟨hboth, hmanifest⟩ hsettings -
    exact ⟨(_, _), open_close hboth.left hsettings, hboth.reopened hsettings, hmanifest⟩
  · rintro left right room ⟨hboth, hmanifest⟩
    exact ⟨hboth.troubled room, hmanifest⟩

theorem session_chunks (h : engine.IsStored disk) (hidle : engine.staged = [])
    (hordinary : ∀ step ∈ steps, step.IsOrdinary)
    (hseen : session (steps.filter fun step => !step.isReopen) (engine, disk) = .ok seen)
    (hids : ∀ observation ∈ seen, observation.answer ≠ .fault .idsExhausted) :
    ∃ seen', session steps (engine, disk) = .ok seen' ∧
      seen'.map Observation.chunks = seen.map Observation.chunks := by
  refine session_filter
    (fun left right => BothStored left.1 left.2 right.1 right.2 ∧ left.1.staged = [] ∧
      right.1.staged = [] ∧ left.1.contents.SameRecords right.1.contents)
    Observation.chunks (fun observation => observation.answer ≠ .fault .idsExhausted)
    (fun _ => True) ?_ ?_ ?_ hordinary (fun _ _ => trivial)
    ⟨⟨h, h, rfl⟩, hidle, hidle, rfl, rfl⟩ hseen hids
  · rintro left right command ⟨hboth, hleft, hright, hsame⟩ hlocal hreturns
    obtain ⟨hleft', hright', hsame'⟩ :=
      sameRecords_runEngine hboth hleft hright hsame hlocal hreturns
    exact ⟨hsame'.chunks.symm, hboth.runEngine hlocal, hleft', hright', hsame'⟩
  · rintro left right settings ⟨hboth, -, hright, hsame⟩ hsettings -
    exact ⟨(_, _), open_close hboth.left hsettings, hboth.reopened hsettings, rfl, hright, hsame⟩
  · rintro left right room ⟨hboth, hrest⟩
    exact ⟨hboth.troubled room, hrest⟩

theorem session_everything (h : engine.IsStored disk) (hidle : engine.staged = [])
    (hordinary : ∀ step ∈ steps, step.IsOrdinary)
    (hstopWords : ∀ settings, .reopen settings ∈ steps → settings.stopWords = engine.stopWords)
    (hseen : session (steps.filter fun step => !step.isReopen) (engine, disk) = .ok seen)
    (hids : ∀ observation ∈ seen, observation.answer ≠ .fault .idsExhausted) :
    session steps (engine, disk) = .ok seen := by
  have hfilter := session_filter
    (fun left right => BothStored left.1 left.2 right.1 right.2 ∧ left.1.staged = [] ∧
      left.1.stopWords = engine.stopWords ∧ Alike left.1 right.1)
    id (fun observation => observation.answer ≠ .fault .idsExhausted)
    (fun settings => settings.stopWords = engine.stopWords) ?_ ?_ ?_ hordinary hstopWords
    ⟨⟨h, h, rfl⟩, hidle, rfl, Alike.refl engine⟩ hseen hids
  · obtain ⟨seen', hsession, hsame⟩ := hfilter
    rw [List.map_id, List.map_id] at hsame
    rw [hsession, hsame]
  · rintro ⟨left, disk⟩ right command ⟨hboth, hleft, hwords, halike⟩ hlocal hreturns
    obtain ⟨hanswer, halike'⟩ := halike.runEngine hboth hlocal
    have hopen : command ≠ .close := by
      rintro rfl
      exact absurd hlocal (by simp [HandleCommand.isLocal])
    have hreturns' : (Handle.runEngine (left, disk) command).1 ≠ .fault .idsExhausted := by
      rw [← hanswer]
      exact hreturns
    obtain ⟨-, hleft', -, hwords', -⟩ := runEngine_inv hboth.left hleft rfl hopen hreturns'
    exact ⟨(halike.observe_eq hboth hlocal).symm, hboth.runEngine hlocal, hleft',
      hwords'.trans hwords, halike'⟩
  · rintro left right settings ⟨hboth, hleft, hwords, halike⟩ hsettings hsame
    refine ⟨(_, _), open_close hboth.left hsettings, hboth.reopened hsettings, rfl, hsame, ?_⟩
    exact ⟨halike.stopWords.trans (hwords.trans hsame.symm), halike.manifest, halike.segments,
      halike.staged.trans hleft⟩
  · rintro left right room ⟨hboth, hrest⟩
    exact ⟨hboth.troubled room, hrest⟩

end

/-- A session on an index that was made where none was looks the same without its reopens.  The
engine opens again every time; all calls but queries have the same answers, with the same versions
and ids given; and unless the chunk ids run out, the chunks are the same and, if all settings have
the same stop words, so is everything, the hits of queries and their scores included. -/
theorem reopening_is_transparent {path : String} {settings : Settings} {before disk : Disk}
    {engine : Engine} (hopen : Engine.open path settings before = (.ok engine, disk))
    (hfresh : before.nodes (descriptionOf engine.home) = none) {steps : List Step}
    (hordinary : ∀ step ∈ steps, step.IsOrdinary) :
    ∃ seen seen', session (steps.filter fun step => !step.isReopen) (engine, disk) = .ok seen ∧
      session steps (engine, disk) = .ok seen' ∧
      seen'.map Observation.bookkeeping = seen.map Observation.bookkeeping ∧
      ((∀ observation ∈ seen, observation.answer ≠ .fault .idsExhausted) →
        seen'.map Observation.chunks = seen.map Observation.chunks ∧
          ((∀ settings', .reopen settings' ∈ steps → settings'.stopWords = settings.stopWords) →
            seen' = seen)) := by
  have hstored := (isStored_of_open_fresh hopen hfresh).1
  have hwords := stopWords_of_open hopen
  have hidle := staged_of_open hopen
  have hkept : ∀ step ∈ steps.filter fun step => !step.isReopen, step.isReopen = false := by
    intro step hstep
    simpa using (List.mem_filter.1 hstep).2
  obtain ⟨seen, hseen⟩ := exists_session_eq_ok hkept (engine, disk)
  obtain ⟨seen', hseen', hbookkeeping⟩ := session_bookkeeping hstored hordinary hseen
  refine ⟨seen, seen', hseen, hseen', hbookkeeping, ?_⟩
  intro hids
  refine ⟨?_, ?_⟩
  · obtain ⟨seen'', hsession, hchunks⟩ := session_chunks hstored hidle hordinary hseen hids
    rw [hseen'] at hsession
    rw [Except.ok.inj hsession, hchunks]
  · intro hstopWords
    rw [← hwords] at hstopWords
    have hsession := session_everything hstored hidle hordinary hstopWords hseen hids
    rw [hseen'] at hsession
    exact Except.ok.inj hsession

/-- A session with a reopen between an insertion and a look at the sources. -/
def reopenedOnce : List Step := [
  .call (.insert ["one", "two"] [.empty, .empty] "a.txt" "a" none),
  .reopen .default,
  .call .sources]

theorem reopenedOnce_is_transparent :
    session reopenedOnce (newEngine .default, newDisk) =
      session (reopenedOnce.filter fun step => !step.isReopen) (newEngine .default, newDisk) := by
  have hordinary : ∀ step ∈ reopenedOnce, step.IsOrdinary := by
    simp [reopenedOnce, Step.IsOrdinary, HandleCommand.isLocal, Settings.opens_default]
  obtain ⟨seen, seen', hseen, hseen', -, hids⟩ :=
    reopening_is_transparent (open_empty Settings.opens_default) rfl hordinary
  have hplain : session (reopenedOnce.filter fun step => !step.isReopen)
      (newEngine .default, newDisk) =
        .ok [observe (newEngine .default, newDisk)
            (.insert ["one", "two"] [.empty, .empty] "a.txt" "a" none),
          observe firstInsertion .sources] := rfl
  have hanswers : seen.map Observation.answer = [.done, .sources [⟨"a.txt", "a", 1⟩]] := by
    rw [Except.ok.inj (hseen.symm.trans hplain)]
    rfl
  have hreturns : ∀ observation ∈ seen, observation.answer ≠ .fault .idsExhausted := by
    intro observation hmem
    have hanswer := List.mem_map_of_mem (f := Observation.answer) hmem
    rw [hanswers] at hanswer
    intro hfault
    simp [hfault] at hanswer
  obtain ⟨-, hsame⟩ := hids hreturns
  have hwords : ∀ settings, .reopen settings ∈ reopenedOnce →
      settings.stopWords = Settings.default.stopWords := by
    simp [reopenedOnce]
  rw [hseen', hseen, hsame hwords]

end ChunkStore.Engine
