import ChunkStore.Proofs.Boundary.Arguments
import ChunkStore.Proofs.Boundary.Runs

/-!
# Documents are consumed

A document under construction changes as the plain builder has it, until it is inserted with a
pointer that leads to an engine.  That engine gets what was built so far, and whatever comes of it,
the document is spent: nothing can be built on it any more and no engine gets it again.
-/

set_option autoImplicit false

namespace ChunkStore.Boundary

/-- Whether a call is to build on the document of a name. -/
def Call.buildsOn (name : String) : Call → Bool
  | .addChunk document _ | .setVersion document _ | .setMetadata document _ _ _ =>
    document == some name
  | _ => false

/-- What a call builds on a document. -/
def Call.build (document : Document) : Call → Except Failure Document
  | .addChunk _ text => do
    return document.addChunk (← readText "chunk text" text)
  | .setVersion _ version => return document.setVersion version
  | .setMetadata _ index key value => do
    let key ← readText "metadata key" key
    document.setMetadata index key (← value.read "metadata value")
  | _ => return document

/-- Whether a call releases the document of a name or puts another one in its place. -/
def Call.drops (name : String) : Call → Bool
  | .freeDocument document => document == some name
  | .newDocument target _ _ => target == name
  | _ => false

namespace Step

/-- Whether a step inserts the document of a name with a pointer that leads to an engine. -/
def reaches (name : String) (step : Step) : Bool :=
  match step.call with
  | .insert database document =>
    document == some name && (lookUp database step.before.databases).isSome
  | _ => false

/-- What an engine gets of the document of a name by a step. -/
def handed? (name : String) (step : Step) : Option Document :=
  if step.reaches name then (step.before.documents.find? name).join else none

/-- Whether a step is to build on the document of a name and succeeds. -/
def built (name : String) (step : Step) : Bool :=
  step.call.buildsOn name && step.outcome.isOk

end Step

/-- The calls of a trace that built on the document of a name, one after another, make a document of
a draft. -/
def Built (name : String) (draft : Document) (trace : List Step) (document : Document) : Prop :=
  ((trace.filter (Step.built name)).map Step.call).foldlM Call.build draft = .ok document

/-- What the insertion of a document at a name into an engine does. -/
def insertion (state : State) (name : String) (document : Document) (engineName : String)
    (engine : Engine) : Except Failure Returned × State :=
  let (result, after) := Database.insert document (engine, state.disk)
  (result.map fun _ => .bool true,
    { state with documents := state.documents.insert name none }.putEngine engineName after)

/-- The document of a name is under construction: calls build on it as on the plain document, and an
insertion hands it to the engine if the pointer leads to one, or else leaves it. -/
structure Underway (state : State) (name : String) (document : Document) : Prop where
  held : state.documents.find? name = some (some document)
  builds : ∀ call : Call, call.buildsOn name = true → perform state call =
    settle state (.bool true) ((call.build document).map (state.putDocument name))
  size : perform state (.documentSize (some name)) = (.ok (.number document.size), state)
  inserts : ∀ database engineName engine, state.database database = .ok (engineName, engine) →
    perform state (.insert database (some name)) = insertion state name document engineName engine
  refuses : ∀ database, ¬Leads database state.databases → ∃ description,
    perform state (.insert database (some name)) = (.error (.invalidArgument description), state)

/-- The document of a name is spent: whatever is called is refused, and it is empty. -/
structure Spent (state : State) (name : String) : Prop where
  held : state.documents.find? name = some none
  builds : ∀ call : Call, call.buildsOn name = true →
    ∃ description, perform state call = (.error (.invalidArgument description), state)
  size : perform state (.documentSize (some name)) = (.ok (.number 0), state)
  refuses : ∀ database, ∃ description,
    perform state (.insert database (some name)) = (.error (.invalidArgument description), state)

/-- How the document of a name, a draft at first, stands after a trace. -/
inductive Standing (name : String) (draft : Document) (trace : List Step) (state : State) : Prop
  | underway (document : Document) (hidle : ∀ step ∈ trace, step.reaches name = false)
      (hbuilt : Built name draft trace document) (hunderway : Underway state name document)
      (hhanded : trace.filterMap (Step.handed? name) = [])
  | spent (earlier later : List Step) (step : Step) (document : Document)
      (htrace : trace = earlier ++ step :: later)
      (hidle : ∀ other ∈ earlier, other.reaches name = false) (hreaches : step.reaches name = true)
      (hbuilt : Built name draft earlier document)
      (hinsertion : ∃ engineName engine, step.before.databases.find? engineName = some engine ∧
        (step.outcome, step.after) = insertion step.before name document engineName engine)
      (hspent : Spent state name) (hhanded : trace.filterMap (Step.handed? name) = [document])

variable {state : State} {name : String} {document draft : Document} {call : Call}

/-! ### A document under construction -/

theorem document_of_find? (h : state.documents.find? name = some (some document)) :
    state.document (some name) = .ok (name, document) :=
  document_eq_ok_iff.2 ⟨rfl, h⟩

theorem changeDocument_of_find? (h : state.documents.find? name = some (some document))
    (change : Document → Except Failure Document) :
    changeDocument state (some name) change = (change document).map (state.putDocument name) := by
  unfold changeDocument
  rw [document_of_find? h]
  cases hchange : change document with
  | error failure =>
    simp only [bind, Except.bind, hchange]
    rfl
  | ok changed =>
    simp only [bind, Except.bind, hchange]
    rfl

theorem underway_of_find? (h : state.documents.find? name = some (some document)) :
    Underway state name document where
  held := h
  builds := by
    intro call hbuilds
    cases call with
    | addChunk pointer text | setVersion pointer version | setMetadata pointer index key value =>
      obtain rfl := eq_of_beq hbuilds
      exact congrArg (settle state (.bool true)) (changeDocument_of_find? h _)
    | _ => exact absurd hbuilds (by simp [Call.buildsOn])
  size := by
    have hlookUp : lookUp (some name) state.documents = some (some document) := h
    simp only [perform, sizeOf, hlookUp, Option.map_some, Option.getD_some]
  inserts := by
    intro database engineName engine hengine
    simp only [perform, insertDocument, hengine, document_of_find? h, insertion]
  refuses := by
    intro database hnot
    exact refused_of_insert fun hpointers => hnot hpointers.1

theorem spent_of_find? (h : state.documents.find? name = some none) : Spent state name := by
  have hnot : ¬LeadsToDraft (some name) state.documents := by
    rintro ⟨held, hheld⟩
    have hnone : lookUp (some name) state.documents = some none := h
    rw [hnone] at hheld
    exact absurd hheld (by simp)
  refine ⟨h, ?_, ?_, ?_⟩
  · intro call hbuilds
    apply perform_of_not_isInOrder
    intro horder
    have hpointers := horder.pointers
    cases call with
    | addChunk pointer text | setVersion pointer version | setMetadata pointer index key value =>
      obtain rfl := eq_of_beq hbuilds
      exact hnot hpointers
    | _ => exact absurd hbuilds (by simp [Call.buildsOn])
  · have hlookUp : lookUp (some name) state.documents = some none := h
    simp only [perform, sizeOf, hlookUp, Option.map_some, Option.map_none, Option.getD_some,
      Option.getD_none]
    rfl
  · intro database
    exact refused_of_insert fun hpointers => hnot hpointers.2

/-! ### What calls do to a document -/

/-- The pointer to the document that a call may change. -/
def Call.document? : Call → Pointer
  | .insert _ document | .addChunk document _ | .setVersion document _
  | .setMetadata document _ _ _ | .freeDocument document => document
  | .newDocument target _ _ => some target
  | _ => none

theorem Call.cases_of_document? (h : call.document? = some name) :
    call.buildsOn name = true ∨ (∃ database, call = .insert database (some name)) ∨
      call.drops name = true := by
  cases call with
  | addChunk | setVersion | setMetadata => exact .inl (beq_iff_eq.2 h)
  | insert database document => exact .inr (.inl ⟨database, congrArg (Call.insert database) h⟩)
  | freeDocument => exact .inr (.inr (beq_iff_eq.2 h))
  | newDocument => exact .inr (.inr (beq_iff_eq.2 (Option.some.inj h)))
  | _ => exact absurd h (by simp [Call.document?])

/-- The same document is at a name as before. -/
def KeepsDocument (state : State) (name : String) (after : State) : Prop :=
  after.documents.find? name = state.documents.find? name

theorem KeepsDocument.refl (state : State) (name : String) : KeepsDocument state name state :=
  rfl

theorem keepsDocument_of_insert {after : State} {pointer : Pointer} {other : String}
    {held : Option Document} (hafter : after.documents = state.documents.insert other held)
    (hpointer : pointer = some other) (hne : pointer ≠ some name) :
    KeepsDocument state name after := by
  unfold KeepsDocument
  rw [hafter, Dict.find?_insert, if_neg]
  rintro rfl
  exact hne hpointer

/-- A call changes no document but its own. -/
theorem keepsDocument_perform (h : call.document? ≠ some name) :
    KeepsDocument state name (perform state call).2 := by
  cases call with
  | openDatabase target path =>
    unfold perform
    dsimp only
    split
    · exact .refl state name
    · split
      all_goals exact .refl state name
  | closeDatabase database =>
    unfold perform
    dsimp only
    split
    all_goals exact .refl state name
  | insert database document =>
    simp only [perform, insertDocument]
    split
    · exact .refl state name
    · split
      · exact .refl state name
      · next hdocument => exact keepsDocument_of_insert rfl (document_eq_ok_iff.1 hdocument).1 h
  | save | delete =>
    unfold perform
    dsimp only
    split
    all_goals exact .refl state name
  | newDocument target newName docId =>
    apply settle_snd (.refl state name)
    intro after hafter
    obtain ⟨_, -, hafter⟩ := bind_eq_ok_iff.1 hafter
    obtain ⟨_, -, hafter⟩ := bind_eq_ok_iff.1 hafter
    obtain rfl := Except.ok.inj hafter
    exact keepsDocument_of_insert rfl rfl h
  | addChunk | setVersion | setMetadata =>
    apply settle_snd (.refl state name)
    intro after hafter
    obtain ⟨other, _, changed, hpointer, -, -, rfl⟩ := changeDocument_eq_ok_iff.1 hafter
    exact keepsDocument_of_insert rfl hpointer h
  | freeDocument document =>
    cases document with
    | none => exact .refl state name
    | some released =>
      show (state.documents.erase released).find? name = _
      rw [Dict.find?_erase, if_neg]
      rintro rfl
      exact h rfl
  | query target database text topK constraints =>
    apply settle_snd (.refl state name)
    intro after hafter
    obtain ⟨_, -, hafter⟩ := bind_eq_ok_iff.1 hafter
    obtain rfl := Except.ok.inj hafter
    exact .refl state name
  | listSources | resultMetadata =>
    apply settle_snd (.refl state name)
    intro after hafter
    obtain ⟨_, -, hafter⟩ := bind_eq_ok_iff.1 hafter
    obtain ⟨_, -, hafter⟩ := bind_eq_ok_iff.1 hafter
    obtain ⟨_, -, hafter⟩ := bind_eq_ok_iff.1 hafter
    obtain rfl := Except.ok.inj hafter
    exact .refl state name
  | addConstraint constraints key operator value =>
    apply settle_snd (.refl state name)
    intro after hafter
    obtain ⟨_, -, hafter⟩ := bind_eq_ok_iff.1 hafter
    obtain ⟨_, -, hafter⟩ := bind_eq_ok_iff.1 hafter
    dsimp only at hafter
    split at hafter
    · obtain ⟨_, -, hafter⟩ := bind_eq_ok_iff.1 hafter
      obtain ⟨_, -, hafter⟩ := bind_eq_ok_iff.1 hafter
      obtain rfl := Except.ok.inj hafter
      exact .refl state name
    · obtain ⟨_, hthrow, -⟩ := bind_eq_ok_iff.1 hafter
      exact absurd hthrow (by simp [throw, throwThe, MonadExceptOf.throw])
  | _ => exact .refl state name

/-! ### Steps -/

variable {step : Step} {trace : List Step}

theorem Step.exists_of_reaches (h : step.reaches name = true) :
    ∃ database engineName engine, step.call = .insert database (some name) ∧
      step.before.database database = .ok (engineName, engine) := by
  unfold Step.reaches at h
  split at h
  · next database document hcall =>
    obtain ⟨hname, hleads⟩ := Bool.and_eq_true_iff.1 h
    obtain rfl := eq_of_beq hname
    obtain ⟨⟨engineName, engine⟩, hengine⟩ :=
      (checks_object "engine" database step.before.databases).ok_of
        (Option.isSome_iff_exists.1 hleads)
    exact ⟨database, engineName, engine, hcall, hengine⟩
  · exact absurd h (by simp)

theorem Step.not_leads_of_not_reaches {database : Pointer} (h : step.reaches name = false)
    (hcall : step.call = .insert database (some name)) :
    ¬Leads database step.before.databases := by
  intro hleads
  unfold Step.reaches at h
  rw [hcall] at h
  simp only [beq_self_eq_true, Bool.true_and] at h
  rw [Option.isSome_iff_exists.2 hleads] at h
  exact absurd h (by simp)

theorem Step.handed?_of_not_reaches (h : step.reaches name = false) : step.handed? name = none := by
  unfold Step.handed?
  rw [h]
  rfl

theorem Spent.handed? (h : Spent step.before name) : step.handed? name = none := by
  unfold Step.handed?
  split
  · rw [h.held]
    rfl
  · rfl

/-- A step that does not insert the document does what the plain builder does, or nothing. -/
theorem Underway.find?_after (h : Underway step.before name document)
    (hheld : step.call.drops name = false) (hidle : step.reaches name = false) :
    ∃ changed, step.after.documents.find? name = some (some changed) ∧
      (if step.built name = true then step.call.build document else .ok document) =
        .ok changed := by
  unfold Step.after Step.built Step.outcome
  cases hbuilds : step.call.buildsOn name with
  | true =>
    rw [h.builds step.call hbuilds]
    cases hchanged : step.call.build document with
    | error failure => exact ⟨document, h.held, rfl⟩
    | ok changed =>
      refine ⟨changed, ?_, rfl⟩
      show (step.before.documents.insert name (some changed)).find? name = some (some changed)
      rw [Dict.find?_insert, if_pos rfl]
  | false =>
    refine ⟨document, ?_, rfl⟩
    by_cases hown : step.call.document? = some name
    · rcases Call.cases_of_document? hown with hbuilds' | ⟨database, hcall⟩ | hdrops
      · exact absurd hbuilds' (by simp [hbuilds])
      · obtain ⟨description, hrefused⟩ :=
          h.refuses database (Step.not_leads_of_not_reaches hidle hcall)
        rw [hcall, hrefused]
        exact h.held
      · exact absurd hdrops (by simp [hheld])
    · exact (keepsDocument_perform hown).trans h.held

/-- A step that inserts the document hands it over and leaves it spent. -/
theorem Underway.reached (h : Underway step.before name document)
    (hreaches : step.reaches name = true) :
    step.handed? name = some document ∧ Spent step.after name ∧
      ∃ engineName engine, step.before.databases.find? engineName = some engine ∧
        (step.outcome, step.after) = insertion step.before name document engineName engine := by
  obtain ⟨database, engineName, engine, hcall, hengine⟩ := Step.exists_of_reaches hreaches
  have hperform : perform step.before step.call =
      insertion step.before name document engineName engine := by
    rw [hcall]
    exact h.inserts database engineName engine hengine
  refine ⟨?_, ?_, engineName, engine, (object_eq_ok_iff.1 hengine).2, hperform⟩
  · unfold Step.handed?
    rw [if_pos hreaches, h.held]
    rfl
  · apply spent_of_find?
    unfold Step.after
    rw [hperform]
    show (step.before.documents.insert name none).find? name = some none
    rw [Dict.find?_insert, if_pos rfl]

/-- A document that is spent stays so. -/
theorem Spent.after (h : Spent step.before name) (hheld : step.call.drops name = false) :
    Spent step.after name := by
  apply spent_of_find?
  unfold Step.after
  by_cases hown : step.call.document? = some name
  · rcases Call.cases_of_document? hown with hbuilds | ⟨database, hcall⟩ | hdrops
    · obtain ⟨description, hrefused⟩ := h.builds step.call hbuilds
      rw [hrefused]
      exact h.held
    · obtain ⟨description, hrefused⟩ := h.refuses database
      rw [hcall, hrefused]
      exact h.held
    · exact absurd hdrops (by simp [hheld])
  · exact (keepsDocument_perform hown).trans h.held

/-! ### Runs -/

theorem Built.after (h : Built name draft trace document) {changed : Document}
    (hchanged : (if step.built name = true then step.call.build document else .ok document) =
      .ok changed) : Built name draft (trace ++ [step]) changed := by
  unfold Built at h ⊢
  rw [List.filter_append, List.map_append, List.foldlM_append, h]
  by_cases hbuilt : step.built name = true
  · rw [if_pos hbuilt] at hchanged
    rw [List.filter_cons_of_pos hbuilt]
    exact bind_eq_ok_iff.2 ⟨document, rfl, bind_eq_ok_iff.2 ⟨changed, hchanged, rfl⟩⟩
  · rw [if_neg hbuilt] at hchanged
    rw [List.filter_cons_of_neg hbuilt]
    exact hchanged

/-- One more step of a run. -/
theorem Standing.after (h : Standing name draft trace step.before)
    (hheld : step.call.drops name = false) : Standing name draft (trace ++ [step]) step.after := by
  cases h with
  | underway document hidle hbuilt hunderway hhanded =>
    cases hreaches : step.reaches name with
    | false =>
      obtain ⟨changed, hfind, hchanged⟩ := hunderway.find?_after hheld hreaches
      refine .underway changed ?_ (hbuilt.after hchanged) (underway_of_find? hfind) ?_
      · intro other hmem
        rcases List.mem_append.1 hmem with hmem | hmem
        · exact hidle other hmem
        · rw [List.mem_singleton.1 hmem]
          exact hreaches
      · rw [List.filterMap_append, hhanded, List.filterMap_cons_none
          (Step.handed?_of_not_reaches hreaches)]
        rfl
    | true =>
      obtain ⟨hhands, hspent, hinsertion⟩ := hunderway.reached hreaches
      refine .spent trace [] step document rfl hidle hreaches hbuilt hinsertion hspent ?_
      rw [List.filterMap_append, hhanded, List.filterMap_cons_some hhands]
      rfl
  | spent earlier later reaching document htrace hidle hreaches hbuilt hinsertion hspent hhanded =>
    refine .spent earlier (later ++ [step]) reaching document ?_ hidle hreaches hbuilt hinsertion
      (hspent.after hheld) ?_
    · rw [htrace, List.append_assoc]
      rfl
    · rw [List.filterMap_append, hhanded, List.filterMap_cons_none hspent.handed?]
      rfl

theorem Standing.meanwhile (h : Standing name draft trace state) (disk : Disk) :
    Standing name draft trace { state with disk } := by
  cases h with
  | underway document hidle hbuilt hunderway hhanded =>
    exact .underway document hidle hbuilt (underway_of_find? hunderway.held) hhanded
  | spent earlier later reaching document htrace hidle hreaches hbuilt hinsertion hspent hhanded =>
    exact .spent earlier later reaching document htrace hidle hreaches hbuilt hinsertion
      (spent_of_find? hspent.held) hhanded

variable {start : State} {ledger : Ledger}

theorem Run.standing (hrun : Run start trace ledger state)
    (hdraft : start.documents.find? name = some (some draft))
    (hheld : ∀ step ∈ trace, step.call.drops name = false) : Standing name draft trace state := by
  induction hrun with
  | start => exact .underway draft (List.forall_mem_nil _) rfl (underway_of_find? hdraft) rfl
  | call _ call ih =>
    obtain ⟨hearlier, hlast⟩ := List.forall_mem_append.1 hheld
    exact (ih hearlier).after (hlast _ (List.mem_singleton_self _))
  | meanwhile _ disk _ ih => exact (ih hheld).meanwhile disk

/-- What was called before a step of a run is a run by itself. -/
theorem Run.before (hrun : Run start trace ledger state) {earlier later : List Step}
    (htrace : trace = earlier ++ step :: later) : Run start earlier step.ledger step.before := by
  induction hrun generalizing later with
  | start => exact absurd htrace (by simp)
  | @call trace ledger state before call ih =>
    rcases List.eq_nil_or_concat later with rfl | ⟨later, last, rfl⟩
    · obtain ⟨rfl, hlast⟩ := List.append_inj' htrace rfl
      obtain rfl := List.singleton_inj.1 hlast
      exact before
    · have hsplit : trace ++ [⟨ledger, state, call⟩] = (earlier ++ step :: later) ++ [last] := by
        rw [htrace, List.concat_eq_append, List.append_assoc]
        rfl
      exact ih (List.append_inj' hsplit rfl).1
  | meanwhile _ _ _ ih => exact ih htrace

/-- Throughout a run in which a document is neither released nor replaced, whatever is called and
whatever fails, it is either under construction, being what the calls that succeeded have built and
in no engine, or it was handed to an engine once, being what the calls before had built, and is
spent since. -/
theorem document_reaches_an_engine_once (hrun : Run start trace ledger state)
    (hdraft : start.documents.find? name = some (some draft))
    (hheld : ∀ step ∈ trace, step.call.drops name = false) :
    Standing name draft trace state ∧
      ∀ earlier step later, trace = earlier ++ step :: later →
        Standing name draft earlier step.before := by
  refine ⟨hrun.standing hdraft hheld, ?_⟩
  intro earlier step later htrace
  refine (hrun.before htrace).standing hdraft ?_
  intro other hmem
  apply hheld
  rw [htrace]
  exact List.mem_append_left _ hmem

/-- A new document and no database. -/
def firstDraft : State :=
  (perform .empty (.newDocument "draft" (some (bytesOf "a.txt")) (some (bytesOf "a")))).2

/-- Calls on the new document: some fail, one inserts it, and some come too late. -/
def draftCalls : List Call :=
  let text (s : String) : RawText := some (bytesOf s)
  [.addChunk (some "draft") (text "alpha"), .addChunk (some "draft") none,
    .insert none (some "draft"), .setVersion (some "draft") 7,
    .openDatabase "database" (text "index"), .insert (some "database") (some "draft"),
    .addChunk (some "draft") (text "beta"), .insert (some "database") (some "draft")]

theorem firstDraft_reaches_its_engine_once :
    firstDraft.documents.find? "draft" = some (some (.new "a.txt" "a")) ∧
      (∀ step ∈ (replay firstDraft draftCalls).1, step.call.drops "draft" = false) ∧
      (replay firstDraft draftCalls).1.filterMap (Step.handed? "draft") =
        [⟨"a.txt", "a", some 7, ["alpha"], [.empty], rfl⟩] ∧
      Spent (replay firstDraft draftCalls).2.2 "draft" := by
  have hdraft : firstDraft.documents.find? "draft" = some (some (.new "a.txt" "a")) := by
    decide +kernel
  have hheld : ∀ step ∈ (replay firstDraft draftCalls).1, step.call.drops "draft" = false := by
    decide +kernel
  have hhands : (replay firstDraft draftCalls).1.filterMap (Step.handed? "draft") =
      [⟨"a.txt", "a", some 7, ["alpha"], [.empty], rfl⟩] := by
    decide +kernel
  obtain ⟨hstanding, -⟩ :=
    document_reaches_an_engine_once (run_replay firstDraft draftCalls) hdraft hheld
  refine ⟨hdraft, hheld, hhands, ?_⟩
  cases hstanding with
  | underway document hidle hbuilt hunderway hnone =>
    rw [hnone] at hhands
    exact absurd hhands (by simp)
  | spent earlier later step document htrace hidle hreaches hbuilt hinsertion hspent =>
    exact hspent

end ChunkStore.Boundary
