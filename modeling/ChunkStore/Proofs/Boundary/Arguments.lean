import ChunkStore.Proofs.Boundary.Effects
import ChunkStore.Proofs.Boundary.Texts

/-!
# Arguments that are in order

The pointers and the texts of a call are looked at before anything else.  If a pointer that has to
lead to an object is null, or its object was released, or it is a document that was inserted, or if
a text is null or is not UTF-8, then the call is refused as one with an invalid argument, and
nothing changes.
-/

set_option autoImplicit false

namespace ChunkStore.Boundary

open CString

/-- Whether an argument is a text: it is not null, and its bytes up to the first null byte are those
of a text. -/
def IsText (raw : RawText) : Prop :=
  raw.isSome = true ∧ ∃ text, (ofRaw raw).Spells text

/-- Whether a pointer leads to an object. -/
def Leads {α : Type} (pointer : Pointer) (objects : Dict String α) : Prop :=
  ∃ found, lookUp pointer objects = some found

/-- Whether a pointer leads to a document that was not inserted yet. -/
def LeadsToDraft (pointer : Pointer) (documents : Dict String (Option Document)) : Prop :=
  ∃ draft, lookUp pointer documents = some (some draft)

/-- Whether the pointers that a call needs lead to their objects. -/
def Call.PointersLead (state : State) : Call → Prop
  | .insert database document =>
    Leads database state.databases ∧ LeadsToDraft document state.documents
  | .query _ database _ _ _ | .save database _ | .delete database _ _ | .listSources _ database =>
    Leads database state.databases
  | .addChunk document _ | .setVersion document _ | .setMetadata document _ _ _ =>
    LeadsToDraft document state.documents
  | .addConstraint constraints _ _ _ => Leads constraints state.constraintSets
  | .resultField results _ _ | .resultMetadata _ results _ => Leads results state.results
  | .metadataKey list _ | .metadataKind list _ | .metadataValue list _ _ =>
    Leads list state.metadataLists
  | .sourceField listing _ _ => Leads listing state.listings
  | _ => True

/-- The text of a metadata value that is one. -/
def RawValue.texts : RawValue → List RawText
  | .text raw => [raw]
  | .bool _ | .int _ | .float _ => []

/-- The texts that a call is given. -/
def Call.texts : Call → List RawText
  | .openDatabase _ path | .save _ path => [path]
  | .query _ _ text _ _ => [text]
  | .delete _ docId _ => [docId]
  | .newDocument _ name docId => [name, docId]
  | .addChunk _ text => [text]
  | .setMetadata _ _ key value | .addConstraint _ key _ value => key :: value.texts
  | _ => []

/-- Whether the pointers and the texts of a call are ones to work with. -/
structure Call.IsInOrder (state : State) (call : Call) : Prop where
  pointers : call.PointersLead state
  texts : ∀ raw ∈ call.texts, IsText raw

/-- A computation fails for an invalid argument. -/
def Refused {α : Type} (result : Except Failure α) : Prop :=
  ∃ description, result = .error (.invalidArgument description)

/-- A computation gives a value if a condition holds, and otherwise is refused. -/
def Checks {α : Type} (condition : Prop) (result : Except Failure α) : Prop :=
  (∃ value, result = .ok value ∧ condition) ∨ (Refused result ∧ ¬condition)

variable {α β : Type} {condition condition' : Prop} {state : State}

theorem Checks.ok_of {result : Except Failure α} (h : Checks condition result)
    (hcondition : condition) : ∃ value, result = .ok value := by
  rcases h with ⟨value, hvalue, -⟩ | ⟨-, hnot⟩
  · exact ⟨value, hvalue⟩
  · exact absurd hcondition hnot

theorem Refused.bind {first : Except Failure α} (h : Refused first) (next : α → Except Failure β) :
    Refused (first >>= next) := by
  obtain ⟨description, rfl⟩ := h
  exact ⟨description, rfl⟩

/-- After a check that passes, what comes next has to be refused. -/
theorem Checks.refused_bind {first : Except Failure α} {next : α → Except Failure β}
    (h : Checks condition first) (hnext : ∀ value, condition → Refused (next value)) :
    Refused (first >>= next) := by
  rcases h with ⟨value, rfl, hcondition⟩ | ⟨hrefused, -⟩
  · exact hnext value hcondition
  · exact hrefused.bind next

/-- Of two checks made in turn one is refused if not both conditions hold. -/
theorem Checks.refused_of_not_and {first : Except Failure α} {second : Except Failure β}
    (h : Checks condition first) (h' : Checks condition' second)
    (hnot : ¬(condition ∧ condition')) :
    ∃ description, first = .error (.invalidArgument description) ∨
      ∃ value, first = .ok value ∧ second = .error (.invalidArgument description) := by
  rcases h with ⟨value, hvalue, hfirst⟩ | ⟨⟨description, hrefused⟩, -⟩
  · rcases h' with ⟨-, -, hsecond⟩ | ⟨⟨description, hrefused⟩, -⟩
    · exact absurd ⟨hfirst, hsecond⟩ hnot
    · exact ⟨description, .inr ⟨value, hvalue, hrefused⟩⟩
  · exact ⟨description, .inl hrefused⟩

theorem Refused.settle {result : Except Failure State} (h : Refused result) (returned : Returned) :
    ∃ description,
      settle state returned result = (.error (.invalidArgument description), state) := by
  obtain ⟨description, rfl⟩ := h
  exact ⟨description, rfl⟩

/-! ### Reading arguments -/

theorem fromUTF8?_bytesOf (text : String) :
    String.fromUTF8? ⟨(bytesOf text).toArray⟩ = some text := by
  show String.fromUTF8? text.toByteArray = some text
  unfold String.fromUTF8?
  rw [dif_pos text.isValidUTF8]
  rfl

/-- Reading gives a text exactly if the argument is not null and has the bytes of that text. -/
theorem readText_eq_ok_iff {what text : String} {raw : RawText} :
    readText what raw = .ok text ↔ raw.isSome = true ∧ (ofRaw raw).Spells text := by
  constructor
  · intro h
    refine ⟨?_, spells_of_readText h⟩
    cases raw with
    | none => exact absurd h (by simp [readText])
    | some bytes => rfl
  · rintro ⟨hsome, hspells⟩
    obtain ⟨bytes, rfl⟩ := Option.isSome_iff_exists.1 hsome
    have hbytes : bytesOf text = bytes.takeWhile (· ≠ 0) := hspells
    unfold readText
    dsimp only
    rw [← hbytes, fromUTF8?_bytesOf]

theorem checks_readText (what : String) (raw : RawText) :
    Checks (IsText raw) (readText what raw) := by
  cases hread : readText what raw with
  | ok text =>
    obtain ⟨hsome, hspells⟩ := readText_eq_ok_iff.1 hread
    exact .inl ⟨text, rfl, hsome, text, hspells⟩
  | error failure =>
    obtain ⟨description, rfl⟩ := invalidArgument_of_readText hread
    refine .inr ⟨⟨description, rfl⟩, ?_⟩
    rintro ⟨hsome, text, hspells⟩
    rw [readText_eq_ok_iff.2 ⟨hsome, hspells⟩] at hread
    exact absurd hread (by simp)

theorem checks_object (kind : String) (pointer : Pointer) (objects : Dict String α) :
    Checks (Leads pointer objects) (object kind pointer objects) := by
  cases hobject : object kind pointer objects with
  | ok found =>
    obtain ⟨name, held⟩ := found
    obtain ⟨rfl, hfind⟩ := object_eq_ok_iff.1 hobject
    exact .inl ⟨(name, held), rfl, held, hfind⟩
  | error failure =>
    obtain ⟨description, rfl⟩ := invalidArgument_of_object hobject
    refine .inr ⟨⟨description, rfl⟩, ?_⟩
    rintro ⟨held, hlookUp⟩
    obtain ⟨name, rfl, hfind⟩ := Option.bind_eq_some_iff.1 hlookUp
    rw [object_eq_ok_iff.2 ⟨rfl, hfind⟩] at hobject
    exact absurd hobject (by simp)

theorem checks_document (state : State) (pointer : Pointer) :
    Checks (LeadsToDraft pointer state.documents) (state.document pointer) := by
  cases hdocument : state.document pointer with
  | ok found =>
    obtain ⟨name, draft⟩ := found
    obtain ⟨rfl, hfind⟩ := document_eq_ok_iff.1 hdocument
    exact .inl ⟨(name, draft), rfl, draft, hfind⟩
  | error failure =>
    refine .inr ⟨?_, ?_⟩
    · rcases bind_eq_error_iff.1 hdocument with hobject | ⟨⟨name, staged⟩, -, hstaged⟩
      · obtain ⟨description, rfl⟩ := invalidArgument_of_object hobject
        exact ⟨description, rfl⟩
      · cases staged with
        | none => exact ⟨_, congrArg Except.error (Except.error.inj hstaged).symm⟩
        | some draft => exact absurd hstaged (by simp [pure, Except.pure])
    · rintro ⟨draft, hlookUp⟩
      obtain ⟨name, rfl, hfind⟩ := Option.bind_eq_some_iff.1 hlookUp
      rw [document_eq_ok_iff.2 ⟨rfl, hfind⟩] at hdocument
      exact absurd hdocument (by simp)

theorem checks_readValue (what : String) (value : RawValue) :
    Checks (∀ raw ∈ value.texts, IsText raw) (value.read what) := by
  cases value with
  | bool b => exact .inl ⟨.bool b, rfl, List.forall_mem_nil _⟩
  | int n => exact .inl ⟨.int n, rfl, List.forall_mem_nil _⟩
  | float x => exact .inl ⟨.float x, rfl, List.forall_mem_nil _⟩
  | text raw =>
    show Checks (∀ other ∈ [raw], IsText other) ((readText what raw).map Metadata.Value.str)
    rw [List.forall_mem_singleton]
    rcases checks_readText what raw with ⟨text, hread, htext⟩ | ⟨⟨description, hread⟩, hnot⟩
    · rw [hread]
      exact .inl ⟨.str text, rfl, htext⟩
    · rw [hread]
      exact .inr ⟨⟨description, rfl⟩, hnot⟩

/-! ### Calls -/

theorem metadataEntry_refused {list : Pointer} (h : ¬Leads list state.metadataLists) (index : Nat) :
    Refused (metadataEntry state list index) :=
  (checks_object "metadata list" list state.metadataLists).refused_bind
    fun _ hleads => absurd hleads h

theorem changeDocument_refused {document : Pointer} {change : Document → Except Failure Document}
    (h : LeadsToDraft document state.documents → ∀ draft, Refused (change draft)) :
    Refused (changeDocument state document change) :=
  (checks_document state document).refused_bind fun found hleads =>
    (h hleads found.2).bind fun changed => pure (state.putDocument found.1 changed)

theorem refused_of_insert {database document : Pointer}
    (h : ¬(Leads database state.databases ∧ LeadsToDraft document state.documents)) :
    ∃ description, perform state (.insert database document) =
      (.error (.invalidArgument description), state) := by
  obtain ⟨description, hobject | ⟨⟨name, engine⟩, hobject, hdocument⟩⟩ :=
    (checks_object "engine" database state.databases).refused_of_not_and
      (checks_document state document) h
  · refine ⟨description, ?_⟩
    simp only [perform, insertDocument, State.database, hobject, Except.map]
  · refine ⟨description, ?_⟩
    simp only [perform, insertDocument, State.database, hobject, hdocument, Except.map]

/-- A call whose arguments are not in order is refused, and nothing changes. -/
theorem perform_of_not_isInOrder {call : Call} (h : ¬call.IsInOrder state) :
    ∃ description, perform state call = (.error (.invalidArgument description), state) := by
  cases call with
  | openDatabase target path =>
    rcases checks_readText "path" path with ⟨text, -, htext⟩ | ⟨⟨description, hread⟩, -⟩
    · exact absurd ⟨trivial, List.forall_mem_singleton.2 htext⟩ h
    · refine ⟨description, ?_⟩
      simp only [perform, hread]
  | insert database document =>
    exact refused_of_insert fun hpointers => h ⟨hpointers, List.forall_mem_nil _⟩
  | save database path =>
    obtain ⟨description, hobject | ⟨found, hobject, hread⟩⟩ :=
      (checks_object "engine" database state.databases).refused_of_not_and
        (checks_readText "path" path) fun horder =>
          h ⟨horder.1, List.forall_mem_singleton.2 horder.2⟩
    · refine ⟨description, ?_⟩
      simp only [perform, State.database, hobject]
    · refine ⟨description, ?_⟩
      simp only [perform, State.database, hobject, hread]
  | delete database docId keepLatest =>
    obtain ⟨description, hobject | ⟨found, hobject, hread⟩⟩ :=
      (checks_object "engine" database state.databases).refused_of_not_and
        (checks_readText "doc_id" docId) fun horder =>
          h ⟨horder.1, List.forall_mem_singleton.2 horder.2⟩
    · refine ⟨description, ?_⟩
      simp only [perform, State.database, hobject]
    · refine ⟨description, ?_⟩
      simp only [perform, State.database, hobject, hread]
  | query target database text topK constraints =>
    refine Refused.settle (Refused.bind ?_ _) .handle
    refine (checks_object "engine" database state.databases).refused_bind ?_
    intro found hleads
    refine (checks_readText "query" text).refused_bind ?_
    intro query htext
    exact absurd ⟨hleads, List.forall_mem_singleton.2 htext⟩ h
  | listSources target database =>
    refine Refused.settle ?_ .handle
    refine (checks_object "engine" database state.databases).refused_bind ?_
    intro found hleads
    exact absurd ⟨hleads, List.forall_mem_nil _⟩ h
  | newDocument target name docId =>
    refine Refused.settle ?_ .handle
    refine (checks_readText "document" name).refused_bind ?_
    intro nameText hname
    refine (checks_readText "doc_id" docId).refused_bind ?_
    intro docIdText hdocId
    exact absurd ⟨trivial, List.forall_mem_cons.2 ⟨hname, List.forall_mem_singleton.2 hdocId⟩⟩ h
  | addChunk document text =>
    refine Refused.settle (changeDocument_refused ?_) (.bool true)
    intro hleads draft
    refine (checks_readText "chunk text" text).refused_bind ?_
    intro chunkText htext
    exact absurd ⟨hleads, List.forall_mem_singleton.2 htext⟩ h
  | setVersion document version =>
    refine Refused.settle (changeDocument_refused ?_) (.bool true)
    intro hleads draft
    exact absurd ⟨hleads, List.forall_mem_nil _⟩ h
  | setMetadata document index key value =>
    refine Refused.settle (changeDocument_refused ?_) (.bool true)
    intro hleads draft
    refine (checks_readText "metadata key" key).refused_bind ?_
    intro keyText hkey
    refine (checks_readValue "metadata value" value).refused_bind ?_
    intro read hvalue
    exact absurd ⟨hleads, List.forall_mem_cons.2 ⟨hkey, hvalue⟩⟩ h
  | addConstraint constraints key operator value =>
    refine Refused.settle ?_ (.bool true)
    refine (checks_object "constraints" constraints state.constraintSets).refused_bind ?_
    intro found hleads
    refine (checks_readText "constraint key" key).refused_bind ?_
    intro keyText hkey
    dsimp only
    -- An unknown operator is refused before the value is looked at.
    split
    · refine (checks_readValue "constraint value" value).refused_bind ?_
      intro read hvalue
      exact absurd ⟨hleads, List.forall_mem_cons.2 ⟨hkey, hvalue⟩⟩ h
    · exact ⟨_, rfl⟩
  | resultMetadata target results index =>
    refine Refused.settle ?_ .handle
    refine (checks_object "query results" results state.results).refused_bind ?_
    intro found hleads
    exact absurd ⟨hleads, List.forall_mem_nil _⟩ h
  | resultField results index field =>
    have hrefused : Refused (do
        let found ← object "query results" results state.results
        return field.read (← found.2.get index)) :=
      (checks_object "query results" results state.results).refused_bind
        fun found hleads => absurd ⟨hleads, List.forall_mem_nil _⟩ h
    obtain ⟨description, hrefused⟩ := hrefused
    exact ⟨description, Prod.ext hrefused rfl⟩
  | sourceField listing index field =>
    have hrefused : Refused (do
        let found ← object "sources" listing state.listings
        return field.read (← member found.2 index)) :=
      (checks_object "sources" listing state.listings).refused_bind
        fun found hleads => absurd ⟨hleads, List.forall_mem_nil _⟩ h
    obtain ⟨description, hrefused⟩ := hrefused
    exact ⟨description, Prod.ext hrefused rfl⟩
  | metadataKey list index | metadataKind list index | metadataValue list index kind =>
    have hleads : ¬Leads list state.metadataLists := fun hleads =>
      h ⟨hleads, List.forall_mem_nil _⟩
    obtain ⟨description, hentry⟩ := metadataEntry_refused hleads index
    refine ⟨description, ?_⟩
    simp only [perform, hentry, Except.map, Except.bind]
  | _ => exact absurd ⟨trivial, List.forall_mem_nil _⟩ h

end ChunkStore.Boundary
