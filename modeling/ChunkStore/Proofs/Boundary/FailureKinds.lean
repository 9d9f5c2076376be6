import ChunkStore.Proofs.Boundary.Fidelity
import ChunkStore.Proofs.Boundary.Messages

/-!
# The failures of calls to a database

A call to a database gives each failure its own kind, unless an argument is not in order.  There is
one exception.  Whether a text can be handed out is decided in the same way for every call, and the
failure is always that of a query: so a listing fails as if it were one when a document's name or id
has a null character in it.
-/

set_option autoImplicit false

namespace ChunkStore

/-- A failure that was given its kind has that kind. -/
theorem exists_of_mapError_eq_error {ε ε' α : Type} {f : ε → ε'} {result : Except ε α}
    {failure : ε'} (h : result.mapError f = .error failure) : ∃ fault, failure = f fault := by
  cases result with
  | ok value => exact absurd h (by simp [Except.mapError])
  | error fault => exact ⟨fault, (Except.error.inj h).symm⟩

theorem map_eq_error_iff {ε α β : Type} {result : Except ε α} {f : α → β} {failure : ε} :
    result.map f = .error failure ↔ result = .error failure := by
  cases result <;> simp [Except.map]

namespace Database

variable {failure : Failure}

theorem kind_of_open {path : String} {environment : List (String × String)} {disk : Disk}
    (h : (Database.open path environment disk).1 = .error failure) :
    failure.kind = .construction := by
  obtain ⟨fault, rfl⟩ := exists_of_mapError_eq_error h
  rfl

variable {σ : Type} [Retrieval σ] {state : σ}

theorem kind_of_insert {document : Document}
    (h : (Database.insert document state).1 = .error failure) : failure.kind = .insert := by
  obtain ⟨fault, rfl⟩ := exists_of_mapError_eq_error h
  rfl

theorem kind_of_delete {docId : String} {keepLatest : Bool}
    (h : (Database.delete docId keepLatest state).1 = .error failure) : failure.kind = .delete := by
  obtain ⟨fault, rfl⟩ := exists_of_mapError_eq_error h
  rfl

theorem kind_of_save {path : String} (h : (Database.save path state).1 = .error failure) :
    failure.kind = .save := by
  obtain ⟨fault, rfl⟩ := exists_of_mapError_eq_error h
  rfl

theorem kind_of_best {topK : Nat} {hits : List Hit} (h : Results.best topK hits = .error failure) :
    failure.kind = .query := by
  unfold Results.best at h
  split at h
  · obtain rfl := Except.error.inj h
    rfl
  · exact absurd h (by simp)

theorem kind_of_query {text : String} {topK : Nat} {constraints : Constraints}
    (h : (Database.query text topK constraints state).1 = .error failure) :
    failure.kind = .query := by
  unfold Database.query at h
  split at h
  · exact absurd h (by simp)
  · split at h
    · obtain rfl := Except.error.inj h
      rfl
    · exact kind_of_best h

end Database

namespace Boundary

/-- The kind of a call to a database. -/
def Call.ownKind? : Call → Option FailureKind
  | .openDatabase .. => some .construction
  | .insert .. => some .insert
  | .query .. => some .query
  | .save .. => some .save
  | .delete .. => some .delete
  | .listSources .. => some .sources
  | _ => none

/-- Whether a source has a null character in a text that is handed out with it. -/
def HasNull (source : Source) : Prop :=
  '\x00' ∈ source.document.toList ∨ '\x00' ∈ source.docId.toList

/-- Whether a call is to list sources of which one has a null character in a text. -/
def Call.MeetsNull (state : State) : Call → Prop
  | .listSources _ database => ∃ name engine, state.database database = .ok (name, engine) ∧
    ∃ source ∈ engine.sources, HasNull source
  | _ => False

variable {state after : State} {call : Call} {failure : Failure}

/-! ### Handing out texts -/

theorem IsNullByteFailure.kind_eq (h : IsNullByteFailure failure) : failure.kind = .query := by
  obtain ⟨what, rfl⟩ := h
  rfl

theorem writeText_eq_error {what text : String} (h : writeText what text = .error failure) :
    IsNullByteFailure failure := by
  unfold writeText at h
  split at h
  · exact ⟨what, (Except.error.inj h).symm⟩
  · exact absurd h (by simp)

theorem exists_of_forM_eq_error {α : Type} {f : α → Except Failure Unit} {list : List α}
    (h : list.forM f = .error failure) : ∃ a ∈ list, f a = .error failure := by
  induction list with
  | nil => exact absurd h (by simp [pure, Except.pure])
  | cons a list ih =>
    have hcons : (f a >>= fun _ => list.forM f) = .error failure := h
    rcases bind_eq_error_iff.1 hcons with hhead | ⟨_, -, htail⟩
    · exact ⟨a, List.mem_cons_self, hhead⟩
    · obtain ⟨b, hmem, hb⟩ := ih htail
      exact ⟨b, List.mem_cons_of_mem a hmem, hb⟩

theorem checkResults_eq_error {results : Results} (h : checkResults results = .error failure) :
    IsNullByteFailure failure := by
  rcases bind_eq_error_iff.1 h with hforM | ⟨_, -, hreturn⟩
  · obtain ⟨hit, -, hhit⟩ := exists_of_forM_eq_error hforM
    rcases bind_eq_error_iff.1 hhit with htext | ⟨_, -, hhit⟩
    · exact writeText_eq_error htext
    · rcases bind_eq_error_iff.1 hhit with hname | ⟨_, -, hhit⟩
      · exact writeText_eq_error hname
      · rcases bind_eq_error_iff.1 hhit with hdocId | ⟨_, -, hhit⟩
        · exact writeText_eq_error hdocId
        · exact absurd hhit (by simp [pure, Except.pure])
  · exact absurd hreturn (by simp [pure, Except.pure])

theorem checkListing_eq_error {listing : List Source} (h : checkListing listing = .error failure) :
    IsNullByteFailure failure := by
  rcases bind_eq_error_iff.1 h with hforM | ⟨_, -, hreturn⟩
  · obtain ⟨source, -, hsource⟩ := exists_of_forM_eq_error hforM
    rcases bind_eq_error_iff.1 hsource with hname | ⟨_, -, hsource⟩
    · exact writeText_eq_error hname
    · rcases bind_eq_error_iff.1 hsource with hdocId | ⟨_, -, hsource⟩
      · exact writeText_eq_error hdocId
      · exact absurd hsource (by simp [pure, Except.pure])
  · exact absurd hreturn (by simp [pure, Except.pure])

/-! ### Calls whose arguments are in order -/

theorem database_of_leads {database : Pointer} (h : Leads database state.databases) :
    ∃ name engine, state.database database = .ok (name, engine) := by
  obtain ⟨⟨name, engine⟩, hobject⟩ := (checks_object "engine" database state.databases).ok_of h
  exact ⟨name, engine, hobject⟩

/-- What a listing does whose arguments are in order. -/
theorem perform_listSources {target : String} {database : Pointer} {name : String} {engine : Engine}
    (hengine : state.database database = .ok (name, engine)) :
    perform state (.listSources target database) =
      settle state .handle ((checkListing (Source.sort engine.sources)).map fun listing =>
        { state with listings := state.listings.insert target listing }) := by
  simp only [perform, hengine, bind, Except.bind]
  have hsources : (Database.sources (engine, state.disk)).1 = .ok (Source.sort engine.sources) :=
    rfl
  simp only [hsources]
  cases checkListing (Source.sort engine.sources) <;> rfl

theorem Call.MeetsNull.isNullByteFailure (h : call.MeetsNull state)
    (hfails : (perform state call).1 = .error failure) : IsNullByteFailure failure := by
  cases call with
  | listSources target database =>
    obtain ⟨name, engine, hengine, -⟩ := h
    rw [perform_listSources hengine, settle_eq_error_iff, map_eq_error_iff] at hfails
    exact checkListing_eq_error hfails
  | _ => exact absurd h (by simp [Call.MeetsNull])

/-- A call to a database fails under its own kind, unless an argument is not in order or a listing
meets a null character. -/
theorem Call.IsInOrder.kind_eq {kind : FailureKind} (h : call.IsInOrder state)
    (hkind : call.ownKind? = some kind) (hnull : ¬call.MeetsNull state)
    (hfails : (perform state call).1 = .error failure) : failure.kind = kind := by
  cases call with
  | openDatabase target path =>
    obtain rfl := Option.some.inj hkind
    obtain ⟨text, hread⟩ :=
      (checks_readText "path" path).ok_of (h.texts path (List.mem_singleton_self path))
    cases hopen : Database.open text state.environment state.disk with
    | mk result disk =>
      simp only [perform, hread, hopen] at hfails
      cases result with
      | ok engine => exact absurd hfails (by simp)
      | error fault =>
        obtain rfl := Except.error.inj hfails
        exact Database.kind_of_open (congrArg Prod.fst hopen)
  | insert database document =>
    obtain rfl := Option.some.inj hkind
    obtain ⟨name, engine, hengine⟩ := database_of_leads h.pointers.1
    obtain ⟨⟨draftName, draft⟩, hdraft⟩ := (checks_document state document).ok_of h.pointers.2
    simp only [perform, insertDocument, hengine, hdraft, map_eq_error_iff] at hfails
    exact Database.kind_of_insert hfails
  | query target database text topK constraints =>
    obtain rfl := Option.some.inj hkind
    obtain ⟨name, engine, hengine⟩ := database_of_leads h.pointers
    obtain ⟨query, hread⟩ :=
      (checks_readText "query" text).ok_of (h.texts text (List.mem_singleton_self text))
    rcases bind_eq_error_iff.1 (settle_eq_error_iff.1 hfails) with hfails | ⟨_, -, hreturn⟩
    · simp only [queryDatabase, hengine, hread, bind, Except.bind] at hfails
      split at hfails
      · next hquery =>
        obtain rfl := Except.error.inj hfails
        exact Database.kind_of_query hquery
      · exact (checkResults_eq_error hfails).kind_eq
    · exact absurd hreturn (by simp [pure, Except.pure])
  | save database path =>
    obtain rfl := Option.some.inj hkind
    obtain ⟨name, engine, hengine⟩ := database_of_leads h.pointers
    obtain ⟨text, hread⟩ :=
      (checks_readText "path" path).ok_of (h.texts path (List.mem_singleton_self path))
    simp only [perform, hengine, hread, map_eq_error_iff] at hfails
    exact Database.kind_of_save hfails
  | delete database docId keepLatest =>
    obtain rfl := Option.some.inj hkind
    obtain ⟨name, engine, hengine⟩ := database_of_leads h.pointers
    obtain ⟨text, hread⟩ :=
      (checks_readText "doc_id" docId).ok_of (h.texts docId (List.mem_singleton_self docId))
    simp only [perform, hengine, hread, map_eq_error_iff] at hfails
    exact Database.kind_of_delete hfails
  | listSources target database =>
    obtain ⟨name, engine, hengine⟩ := database_of_leads h.pointers
    rw [perform_listSources hengine, settle_eq_error_iff, map_eq_error_iff] at hfails
    have hcheck : checkListing (Source.sort engine.sources) = .ok (Source.sort engine.sources) := by
      apply checkListing_eq_ok
      intro source hmem
      apply not_or.1
      intro hsource
      exact hnull ⟨name, engine, hengine, source, List.mem_mergeSort.1 hmem, hsource⟩
    rw [hcheck] at hfails
    exact absurd hfails (by simp)
  | _ => exact absurd hkind (by simp [Call.ownKind?])

theorem Call.ownKind?_ne_invalidArgument : call.ownKind? ≠ some .invalidArgument := by
  cases call <;> simp [Call.ownKind?]

/-- A call to a database that fails leaves the message of a failure.  It is the failure of an
argument exactly if an argument is not in order.  Otherwise it is one of the call's own kind, except
that a listing which meets a null character fails as a query.  And no message is the message of
failures of two kinds. -/
theorem database_failures_are_of_their_own_kind {kind : FailureKind}
    (hkind : call.ownKind? = some kind) (hfails : perform state call = (.error failure, after))
    (held : Option String) :
    invoke state (some held) call = (call.noResult, some (some (errorText failure)), after) ∧
      (failure.kind = .invalidArgument ↔ ¬call.IsInOrder state) ∧
      (call.IsInOrder state → ¬call.MeetsNull state → failure.kind = kind) ∧
      (call.MeetsNull state → IsNullByteFailure failure) ∧
      ∀ other, errorText other = errorText failure → other.kind = failure.kind := by
  have houtcome : (perform state call).1 = .error failure := congrArg Prod.fst hfails
  have hnull : call.MeetsNull state → IsNullByteFailure failure := fun hmeets =>
    hmeets.isNullByteFailure houtcome
  have hown : call.IsInOrder state → ¬call.MeetsNull state → failure.kind = kind :=
    fun horder hnot => horder.kind_eq hkind hnot houtcome
  refine ⟨?_, ⟨?_, ?_⟩, hown, hnull, fun other => kind_eq_of_errorText_eq⟩
  · unfold invoke
    rw [hfails]
    rfl
  · intro hargument horder
    by_cases hmeets : call.MeetsNull state
    · rw [(hnull hmeets).kind_eq] at hargument
      exact absurd hargument (by decide)
    · rw [hown horder hmeets] at hargument
      rw [hargument] at hkind
      exact Call.ownKind?_ne_invalidArgument hkind
  · intro hnot
    obtain ⟨description, hperform⟩ := perform_of_not_isInOrder hnot
    rw [hperform] at houtcome
    rw [← Except.error.inj houtcome]
    rfl

/-- An open database. -/
def firstOpened : State :=
  (perform .empty (.openDatabase "database" (some (bytesOf "index")))).2

theorem second_opening_fails_as_construction :
    let call : Call := .openDatabase "other" (some (bytesOf "index"))
    (perform firstOpened call).1 = .error (.construction EngineFault.busy.message) ∧
      call.IsInOrder firstOpened ∧
      (invoke firstOpened (some none) call).2.1 =
        some (some (errorText (.construction EngineFault.busy.message))) := by
  intro call
  have houtcome : (perform firstOpened call).1 =
      .error (.construction EngineFault.busy.message) := by
    decide +kernel
  have hkind : call.ownKind? = some .construction := rfl
  obtain ⟨hinvoke, hargument, -⟩ :=
    database_failures_are_of_their_own_kind hkind (Prod.ext houtcome rfl) none
  refine ⟨houtcome, ?_, congrArg (·.2.1) hinvoke⟩
  by_contra hnot
  exact absurd (hargument.2 hnot) (by decide)

/-- An open database with a document that has a null character in its name. -/
def nullNamed : State :=
  let document := (Document.new "a\x00b" "i").addChunk "alpha"
  let stored := (insertDirectly .empty "index" document).2
  (perform stored (.openDatabase "database" (some (bytesOf "index")))).2

/-- The listing of a database with a null character in a name has its arguments in order, and yet
its message is neither that of a listing nor that of an argument. -/
theorem listing_of_null_name_fails_as_query :
    let call : Call := .listSources "listing" (some "database")
    call.IsInOrder nullNamed ∧
      (invoke nullNamed (some none) call).2.1 =
        some (some "Query failed: document name contains a NUL byte") ∧
      ∀ failure : Failure, failure.kind = .sources ∨ failure.kind = .invalidArgument →
        (invoke nullNamed (some none) call).2.1 ≠ some (some (errorText failure)) := by
  intro call
  have hmessage : (invoke nullNamed (some none) call).2.1 =
      some (some (errorText (.query "document name contains a NUL byte"))) := by
    decide +kernel
  have hopen : (lookUp (some "database") nullNamed.databases).isSome = true := by
    decide +kernel
  refine ⟨⟨Option.isSome_iff_exists.1 hopen, List.forall_mem_nil _⟩, by rw [hmessage]; decide, ?_⟩
  intro failure hkind hsame
  rw [hmessage] at hsame
  have hquery := kind_eq_of_errorText_eq (Option.some.inj (Option.some.inj hsame))
  rw [← hquery] at hkind
  exact absurd hkind (by decide)

end Boundary

end ChunkStore
