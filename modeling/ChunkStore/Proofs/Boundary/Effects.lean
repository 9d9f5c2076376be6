import ChunkStore.Boundary.Call

/-!
# What calls leave alone

Each object behind the boundary is changed by a few calls only.  Documents are changed where they
are staged and given up where they are inserted or released; databases and the disk are changed by
the calls to a database; results come from queries.
-/

set_option autoImplicit false

namespace ChunkStore.Boundary

variable {state : State}

theorem object_eq_ok_iff {α : Type} {kind : String} {pointer : Pointer} {objects : Dict String α}
    {name : String} {found : α} :
    object kind pointer objects = .ok (name, found) ↔
      pointer = some name ∧ objects.find? name = some found := by
  unfold object
  cases pointer with
  | none => simp
  | some other =>
    dsimp only
    split
    · next held hfind =>
      constructor
      · intro h
        obtain ⟨rfl, rfl⟩ := Prod.mk.inj (Except.ok.inj h)
        exact ⟨rfl, hfind⟩
      · rintro ⟨heq, hfound⟩
        obtain rfl := Option.some.inj heq
        rw [hfind] at hfound
        rw [Option.some.inj hfound]
    · next hnone =>
      constructor
      · intro h
        exact absurd h (by simp)
      · rintro ⟨heq, hfound⟩
        obtain rfl := Option.some.inj heq
        rw [hnone] at hfound
        exact absurd hfound (by simp)

theorem invalidArgument_of_object {α : Type} {kind : String} {pointer : Pointer}
    {objects : Dict String α} {failure : Failure}
    (h : object kind pointer objects = .error failure) :
    ∃ description, failure = .invalidArgument description := by
  unfold object at h
  split at h
  · exact ⟨_, (Except.error.inj h).symm⟩
  · split at h
    · exact absurd h (by simp)
    · exact ⟨_, (Except.error.inj h).symm⟩

theorem document_eq_ok_iff {pointer : Pointer} {name : String} {document : Document} :
    state.document pointer = .ok (name, document) ↔
      pointer = some name ∧ state.documents.find? name = some (some document) := by
  unfold State.document
  rw [bind_eq_ok_iff]
  constructor
  · rintro ⟨⟨other, staged⟩, hobject, hstaged⟩
    cases staged with
    | none => exact absurd hstaged (by simp [throw, throwThe, MonadExceptOf.throw])
    | some held =>
      obtain ⟨rfl, rfl⟩ := Prod.mk.inj (Except.ok.inj hstaged)
      exact object_eq_ok_iff.1 hobject
  · intro h
    exact ⟨(name, some document), object_eq_ok_iff.2 h, rfl⟩

theorem changeDocument_eq_ok_iff {pointer : Pointer} {change : Document → Except Failure Document}
    {after : State} :
    changeDocument state pointer change = .ok after ↔
      ∃ name document changed, pointer = some name ∧
        state.documents.find? name = some (some document) ∧ change document = .ok changed ∧
        after = state.putDocument name changed := by
  unfold changeDocument
  rw [bind_eq_ok_iff]
  constructor
  · rintro ⟨⟨name, document⟩, hdocument, hchange⟩
    obtain ⟨changed, hchanged, hafter⟩ := bind_eq_ok_iff.1 hchange
    obtain ⟨hpointer, hfind⟩ := document_eq_ok_iff.1 hdocument
    exact ⟨name, document, changed, hpointer, hfind, hchanged, (Except.ok.inj hafter).symm⟩
  · rintro ⟨name, document, changed, hpointer, hfind, hchanged, rfl⟩
    exact ⟨(name, document), document_eq_ok_iff.2 ⟨hpointer, hfind⟩,
      bind_eq_ok_iff.2 ⟨changed, hchanged, rfl⟩⟩

/-- What holds of the state after a change that may fail. -/
theorem settle_snd {returned : Returned} {result : Except Failure State} {motive : State → Prop}
    (hsame : motive state) (hafter : ∀ after, result = .ok after → motive after) :
    motive (settle state returned result).2 := by
  cases result with
  | error failure => exact hsame
  | ok after => exact hafter after rfl

theorem settle_eq_error_iff {returned : Returned} {result : Except Failure State}
    {failure : Failure} :
    (settle state returned result).1 = .error failure ↔ result = .error failure := by
  cases result <;> simp [settle]

/-- Whether a call is to change a document under construction. -/
def Call.stages : Call → Bool
  | .newDocument .. | .addChunk .. | .setVersion .. | .setMetadata .. => true
  | _ => false

/-- Whether a call may change a database or the disk. -/
def Call.works : Call → Bool
  | .openDatabase .. | .closeDatabase .. | .insert .. | .save .. | .delete .. => true
  | _ => false

/-- Whether a call may change which results there are. -/
def Call.ranks : Call → Bool
  | .query .. | .freeResults .. => true
  | _ => false

/-- What a call leaves alone. -/
structure Keeps (state : State) (call : Call) (after : State) : Prop where
  disk : call.works = false → after.disk = state.disk
  databases : call.works = false → after.databases = state.databases
  documents : call.stages = false → ∀ name document,
    after.documents.find? name = some (some document) →
      state.documents.find? name = some (some document)
  results : call.ranks = false → after.results = state.results

variable {call : Call} {after : State}

theorem keeps_of_eq (hdisk : after.disk = state.disk)
    (hdatabases : after.databases = state.databases)
    (hdocuments : after.documents = state.documents) (hresults : after.results = state.results) :
    Keeps state call after where
  disk := fun _ => hdisk
  databases := fun _ => hdatabases
  documents := by
    intro _ name document hfind
    rw [hdocuments] at hfind
    exact hfind
  results := fun _ => hresults

theorem Keeps.refl (state : State) (call : Call) : Keeps state call state :=
  keeps_of_eq rfl rfl rfl rfl

theorem keeps_of_works (hworks : call.works = true) (hdocuments : after.documents = state.documents)
    (hresults : after.results = state.results) : Keeps state call after where
  disk := fun h => absurd hworks (by simp [h])
  databases := fun h => absurd hworks (by simp [h])
  documents := by
    intro _ name document hfind
    rw [hdocuments] at hfind
    exact hfind
  results := fun _ => hresults

theorem keeps_insertDocument (state : State) (database document : Pointer) :
    Keeps state (.insert database document) (insertDocument state database document).2 := by
  unfold insertDocument
  split
  · exact .refl state _
  · split
    · exact .refl state _
    · refine ⟨fun h => absurd h (by simp [Call.works]), fun h => absurd h (by simp [Call.works]),
        ?_, fun _ => rfl⟩
      intro _ name document hfind
      simp only [State.putEngine, Dict.find?_insert] at hfind
      split at hfind
      · exact absurd hfind (by simp)
      · exact hfind

theorem keeps_perform (state : State) (call : Call) :
    Keeps state call (perform state call).2 := by
  cases call with
  | openDatabase target path =>
    unfold perform
    dsimp only
    split
    · exact .refl state _
    · split
      all_goals exact keeps_of_works rfl rfl rfl
  | closeDatabase database =>
    unfold perform
    dsimp only
    split
    · exact .refl state _
    · exact keeps_of_works rfl rfl rfl
  | insert database document => exact keeps_insertDocument state database document
  | save database path =>
    unfold perform
    dsimp only
    split
    · exact .refl state _
    · exact .refl state _
    · exact keeps_of_works rfl rfl rfl
  | delete database docId keepLatest =>
    unfold perform
    dsimp only
    split
    · exact .refl state _
    · exact .refl state _
    · exact keeps_of_works rfl rfl rfl
  | query target database text topK constraints =>
    apply settle_snd (.refl state _)
    intro after h
    obtain ⟨results, -, h⟩ := bind_eq_ok_iff.1 h
    obtain rfl := Except.ok.inj h
    exact ⟨fun _ => rfl, fun _ => rfl, fun _ _ _ hfind => hfind,
      fun h => absurd h (by simp [Call.ranks])⟩
  | listSources target database =>
    apply settle_snd (.refl state _)
    intro after h
    obtain ⟨found, -, h⟩ := bind_eq_ok_iff.1 h
    obtain ⟨sources, -, h⟩ := bind_eq_ok_iff.1 h
    obtain ⟨listing, -, h⟩ := bind_eq_ok_iff.1 h
    obtain rfl := Except.ok.inj h
    exact keeps_of_eq rfl rfl rfl rfl
  | newDocument target name docId =>
    apply settle_snd (.refl state _)
    intro after h
    obtain ⟨name, -, h⟩ := bind_eq_ok_iff.1 h
    obtain ⟨docId, -, h⟩ := bind_eq_ok_iff.1 h
    obtain rfl := Except.ok.inj h
    exact ⟨fun _ => rfl, fun _ => rfl, fun h => absurd h (by simp [Call.stages]), fun _ => rfl⟩
  | addChunk | setVersion | setMetadata =>
    apply settle_snd (.refl state _)
    intro after h
    obtain ⟨name, document, changed, -, -, -, rfl⟩ := changeDocument_eq_ok_iff.1 h
    exact ⟨fun _ => rfl, fun _ => rfl, fun h => absurd h (by simp [Call.stages]), fun _ => rfl⟩
  | freeDocument document =>
    refine ⟨fun _ => rfl, fun _ => rfl, ?_, fun _ => rfl⟩
    intro _ name draft hfind
    cases document with
    | none => exact hfind
    | some released =>
      simp only [perform, releaseFrom, Dict.find?_erase] at hfind
      split at hfind
      · exact absurd hfind (by simp)
      · exact hfind
  | addConstraint constraints key operator value =>
    apply settle_snd (.refl state _)
    intro after h
    obtain ⟨found, -, h⟩ := bind_eq_ok_iff.1 h
    obtain ⟨key, -, h⟩ := bind_eq_ok_iff.1 h
    dsimp only at h
    split at h
    · obtain ⟨operator, -, h⟩ := bind_eq_ok_iff.1 h
      obtain ⟨value, -, h⟩ := bind_eq_ok_iff.1 h
      obtain rfl := Except.ok.inj h
      exact keeps_of_eq rfl rfl rfl rfl
    · obtain ⟨operator, hthrow, -⟩ := bind_eq_ok_iff.1 h
      exact absurd hthrow (by simp [throw, throwThe, MonadExceptOf.throw])
  | resultMetadata target results index =>
    apply settle_snd (.refl state _)
    intro after h
    obtain ⟨found, -, h⟩ := bind_eq_ok_iff.1 h
    obtain ⟨metadata, -, h⟩ := bind_eq_ok_iff.1 h
    obtain ⟨checked, -, h⟩ := bind_eq_ok_iff.1 h
    obtain rfl := Except.ok.inj h
    exact keeps_of_eq rfl rfl rfl rfl
  | freeResults results =>
    exact ⟨fun _ => rfl, fun _ => rfl, fun _ _ _ hfind => hfind,
      fun h => absurd h (by simp [Call.ranks])⟩
  | newConstraints | freeConstraints | freeMetadata | freeListing =>
    exact keeps_of_eq rfl rfl rfl rfl
  | documentSize | resultsSize | resultField | metadataSize | metadataKey | metadataKind
  | metadataValue | listingSize | sourceField => exact .refl state _

/-! ### Constraint sets and metadata lists -/

/-- Whether a call may change which constraint sets there are, or what they hold. -/
def Call.restricts : Call → Bool
  | .newConstraints .. | .addConstraint .. | .freeConstraints .. => true
  | _ => false

/-- Whether a call may change which metadata lists there are. -/
def Call.snapshots : Call → Bool
  | .resultMetadata .. | .freeMetadata .. => true
  | _ => false

/-- Constraint sets and metadata lists that a call leaves alone. -/
structure Spares (state : State) (call : Call) (after : State) : Prop where
  constraintSets : call.restricts = false → after.constraintSets = state.constraintSets
  metadataLists : call.snapshots = false → after.metadataLists = state.metadataLists

theorem spares_of_eq (hsets : after.constraintSets = state.constraintSets)
    (hlists : after.metadataLists = state.metadataLists) : Spares state call after :=
  ⟨fun _ => hsets, fun _ => hlists⟩

theorem Spares.refl (state : State) (call : Call) : Spares state call state :=
  spares_of_eq rfl rfl

theorem spares_perform (state : State) (call : Call) :
    Spares state call (perform state call).2 := by
  cases call with
  | openDatabase target path =>
    unfold perform
    dsimp only
    split
    · exact .refl state _
    · split
      all_goals exact spares_of_eq rfl rfl
  | closeDatabase | save | delete =>
    unfold perform
    dsimp only
    split
    all_goals exact spares_of_eq rfl rfl
  | insert database document =>
    simp only [perform, insertDocument]
    split
    · exact .refl state _
    · split
      all_goals exact spares_of_eq rfl rfl
  | addChunk | setVersion | setMetadata =>
    apply settle_snd (.refl state _)
    intro after h
    obtain ⟨name, document, changed, -, -, -, rfl⟩ := changeDocument_eq_ok_iff.1 h
    exact spares_of_eq rfl rfl
  | newDocument target name docId =>
    apply settle_snd (.refl state _)
    intro after h
    obtain ⟨name, -, h⟩ := bind_eq_ok_iff.1 h
    obtain ⟨docId, -, h⟩ := bind_eq_ok_iff.1 h
    obtain rfl := Except.ok.inj h
    exact spares_of_eq rfl rfl
  | query target database text topK constraints =>
    apply settle_snd (.refl state _)
    intro after h
    obtain ⟨results, -, h⟩ := bind_eq_ok_iff.1 h
    obtain rfl := Except.ok.inj h
    exact spares_of_eq rfl rfl
  | listSources target database =>
    apply settle_snd (.refl state _)
    intro after h
    obtain ⟨found, -, h⟩ := bind_eq_ok_iff.1 h
    obtain ⟨sources, -, h⟩ := bind_eq_ok_iff.1 h
    obtain ⟨listing, -, h⟩ := bind_eq_ok_iff.1 h
    obtain rfl := Except.ok.inj h
    exact spares_of_eq rfl rfl
  | resultMetadata target results index =>
    apply settle_snd (.refl state _)
    intro after h
    obtain ⟨found, -, h⟩ := bind_eq_ok_iff.1 h
    obtain ⟨metadata, -, h⟩ := bind_eq_ok_iff.1 h
    obtain ⟨checked, -, h⟩ := bind_eq_ok_iff.1 h
    obtain rfl := Except.ok.inj h
    exact ⟨fun _ => rfl, fun h => absurd h (by simp [Call.snapshots])⟩
  | addConstraint constraints key operator value =>
    refine ⟨fun h => absurd h (by simp [Call.restricts]), fun _ => ?_⟩
    apply settle_snd (motive := fun after => after.metadataLists = state.metadataLists) rfl
    intro after h
    obtain ⟨found, -, h⟩ := bind_eq_ok_iff.1 h
    obtain ⟨key, -, h⟩ := bind_eq_ok_iff.1 h
    dsimp only at h
    split at h
    · obtain ⟨operator, -, h⟩ := bind_eq_ok_iff.1 h
      obtain ⟨value, -, h⟩ := bind_eq_ok_iff.1 h
      obtain rfl := Except.ok.inj h
      rfl
    · obtain ⟨operator, hthrow, -⟩ := bind_eq_ok_iff.1 h
      exact absurd hthrow (by simp [throw, throwThe, MonadExceptOf.throw])
  | newConstraints | freeConstraints =>
    exact ⟨fun h => absurd h (by simp [Call.restricts]), fun _ => rfl⟩
  | freeMetadata => exact ⟨fun _ => rfl, fun h => absurd h (by simp [Call.snapshots])⟩
  | freeDocument | freeResults | freeListing => exact spares_of_eq rfl rfl
  | documentSize | resultsSize | resultField | metadataSize | metadataKey | metadataKind
  | metadataValue | listingSize | sourceField => exact .refl state _

end ChunkStore.Boundary
