import ChunkStore.Document

/-!
# Edits of a document

A document is built by edits: chunks are added, versions are asked for, and values are set at the
keys of chunks.  Only an edit of a chunk that is not there fails.  What the document holds can be
told from the edits that succeeded: all the texts in their order, and of versions and of values at
one key the last.
-/

set_option autoImplicit false

namespace ChunkStore

/-- The last value that the members of a list give. -/
def lastOf? {α β : Type} (f : α → Option β) (list : List α) : Option β :=
  (list.filterMap f).getLast?

theorem lastOf?_append {α β : Type} (f : α → Option β) (earlier later : List α) :
    lastOf? f (earlier ++ later) = (lastOf? f later).or (lastOf? f earlier) := by
  unfold lastOf?
  rw [List.filterMap_append, List.getLast?_append]

theorem lastOf?_singleton {α β : Type} (f : α → Option β) (a : α) : lastOf? f [a] = f a := by
  unfold lastOf?
  cases h : f a <;> simp [h]

namespace Document

/-- A change of a document under construction. -/
inductive Edit where
  | addChunk (text : String)
  | setVersion (version : UInt32)
  | setMetadata (index : Nat) (key : String) (value : Metadata.Value)

namespace Edit

/-- The text that an edit adds. -/
def text? : Edit → Option String
  | .addChunk text => some text
  | _ => none

/-- The version that an edit asks for. -/
def version? : Edit → Option UInt32
  | .setVersion version => some version
  | _ => none

/-- The value that an edit sets at a key of a chunk. -/
def value? (index : Nat) (key : String) : Edit → Option Metadata.Value
  | .setMetadata i k value => if i = index ∧ k = key then some value else none
  | _ => none

end Edit

/-- Makes an edit. -/
def edit (document : Document) : Edit → Except Failure Document
  | .addChunk text => .ok (document.addChunk text)
  | .setVersion version => .ok (document.setVersion version)
  | .setMetadata index key value => document.setMetadata index key value

/-- Makes edits one after another, and gives those that succeeded with the document after them. -/
def editAll (document : Document) : List Edit → List Edit × Document
  | [] => ([], document)
  | next :: edits =>
    match document.edit next with
    | .ok changed =>
      let (done, last) := changed.editAll edits
      (next :: done, last)
    | .error _ => document.editAll edits

/-- The value at a key of a chunk. -/
def value? (document : Document) (index : Nat) (key : String) : Option Metadata.Value :=
  document.metadata[index]?.bind (·.find? key)

/-- A document holds what edits of a draft have set, and otherwise what the draft held. -/
structure Reflects (draft : Document) (edits : List Edit) (document : Document) : Prop where
  name : document.name = draft.name
  docId : document.docId = draft.docId
  aligned : document.texts.length = document.size ∧ document.metadata.length = document.size
  texts : document.texts = draft.texts ++ edits.filterMap Edit.text?
  version : document.version = (lastOf? Edit.version? edits).or draft.version
  values : ∀ index key,
    document.value? index key = (lastOf? (Edit.value? index key) edits).or (draft.value? index key)

variable {draft document changed : Document} {edits later : List Edit}

theorem length_texts_and_metadata (document : Document) :
    document.texts.length = document.size ∧ document.metadata.length = document.size :=
  ⟨rfl, document.chunks.aligned⟩

theorem Reflects.refl (document : Document) : Reflects document [] document where
  name := rfl
  docId := rfl
  aligned := document.length_texts_and_metadata
  texts := (List.append_nil _).symm
  version := rfl
  values := fun _ _ => rfl

theorem Reflects.trans (h : Reflects draft edits document) (h' : Reflects document later changed) :
    Reflects draft (edits ++ later) changed where
  name := h'.name.trans h.name
  docId := h'.docId.trans h.docId
  aligned := h'.aligned
  texts := by
    rw [h'.texts, h.texts, List.filterMap_append, List.append_assoc]
  version := by
    rw [h'.version, h.version, lastOf?_append, Option.or_assoc]
  values := by
    intro index key
    rw [h'.values, h.values, lastOf?_append, Option.or_assoc]

/-! ### One edit -/

theorem metadata_addChunk (document : Document) (text : String) :
    (document.addChunk text).metadata = document.metadata ++ [.empty] :=
  rfl

/-- A new chunk has no values, and neither has a chunk that is not there. -/
theorem value?_addChunk (document : Document) (text : String) (index : Nat) (key : String) :
    (document.addChunk text).value? index key = document.value? index key := by
  unfold value?
  rw [metadata_addChunk, List.getElem?_append]
  split
  · rfl
  · next hindex =>
    rw [List.getElem?_eq_none (Nat.le_of_not_lt hindex), List.getElem?_singleton]
    split
    · exact Dict.find?_empty key
    · rfl

theorem setMetadata_eq_ite (document : Document) (index : Nat) (key : String)
    (value : Metadata.Value) :
    document.setMetadata index key value =
      if index < document.size then
        .ok { document with chunks := document.chunks.setValue index key value }
      else .error (.indexOutOfRange index document.size) := by
  unfold setMetadata checkIndex size texts
  split
  · rfl
  · rfl

theorem setMetadata_eq_ok_iff {index : Nat} {key : String} {value : Metadata.Value} :
    document.setMetadata index key value = .ok changed ↔ index < document.size ∧
      changed = { document with chunks := document.chunks.setValue index key value } := by
  rw [setMetadata_eq_ite]
  split
  · next hindex => simp [hindex, eq_comm]
  · next hindex => simp [hindex]

theorem setMetadata_eq_error_iff {index : Nat} {key : String} {value : Metadata.Value}
    {failure : Failure} :
    document.setMetadata index key value = .error failure ↔
      document.size ≤ index ∧ failure = .indexOutOfRange index document.size := by
  rw [setMetadata_eq_ite]
  split
  · next hindex => simp [Nat.not_le.2 hindex]
  · next hindex => simp [Nat.le_of_not_lt hindex, eq_comm]

theorem metadata_setValue (document : Document) (index : Nat) (key : String)
    (value : Metadata.Value) :
    metadata { document with chunks := document.chunks.setValue index key value } =
      document.metadata.modify index fun metadata => metadata.insert key value :=
  rfl

/-- Setting a value changes it at its key of its chunk, and nowhere else: the metadata map at the
place is there, since there are as many as there are texts. -/
theorem value?_of_setMetadata {index : Nat} {key : String} {value : Metadata.Value}
    (h : document.setMetadata index key value = .ok changed) (index' : Nat) (key' : String) :
    changed.value? index' key' =
      if index = index' ∧ key = key' then some value else document.value? index' key' := by
  obtain ⟨hindex, rfl⟩ := setMetadata_eq_ok_iff.1 h
  have hmap : index < document.metadata.length := by
    rw [document.length_texts_and_metadata.2]
    exact hindex
  unfold value?
  rw [metadata_setValue, List.getElem?_modify]
  by_cases heq : index = index'
  · subst heq
    rw [List.getElem?_eq_getElem hmap]
    simp only [if_true, true_and, Option.map_eq_map, Option.map_some, Option.bind_some,
      Dict.find?_insert, eq_comm]
  · simp [heq]

theorem texts_of_setMetadata {index : Nat} {key : String} {value : Metadata.Value}
    (h : document.setMetadata index key value = .ok changed) : changed.texts = document.texts := by
  obtain ⟨-, rfl⟩ := setMetadata_eq_ok_iff.1 h
  rfl

/-- One edit that succeeds. -/
theorem reflects_of_edit {next : Edit} (h : document.edit next = .ok changed) :
    Reflects document [next] changed := by
  cases next with
  | addChunk text =>
    obtain rfl := Except.ok.inj h
    refine ⟨rfl, rfl, length_texts_and_metadata _, rfl, rfl, ?_⟩
    intro index key
    exact value?_addChunk document text index key
  | setVersion version =>
    obtain rfl := Except.ok.inj h
    exact ⟨rfl, rfl, length_texts_and_metadata _, (List.append_nil _).symm, rfl, fun _ _ => rfl⟩
  | setMetadata index key value =>
    have hset : document.setMetadata index key value = .ok changed := h
    obtain ⟨-, hchanged⟩ := setMetadata_eq_ok_iff.1 hset
    refine ⟨?_, ?_, length_texts_and_metadata _, ?_, ?_, ?_⟩
    · rw [hchanged]
    · rw [hchanged]
    · rw [texts_of_setMetadata hset]
      exact (List.append_nil _).symm
    · rw [hchanged]
      rfl
    · intro index' key'
      rw [value?_of_setMetadata hset, lastOf?_singleton]
      dsimp only [Edit.value?]
      split
      · rfl
      · rfl

/-- Only an edit of a chunk that is not there fails. -/
theorem edit_eq_error_iff {next : Edit} {failure : Failure} :
    document.edit next = .error failure ↔ ∃ index key value, next = .setMetadata index key value ∧
      document.size ≤ index ∧ failure = .indexOutOfRange index document.size := by
  cases next with
  | addChunk text | setVersion version => simp [edit]
  | setMetadata index key value =>
    show document.setMetadata index key value = .error failure ↔ _
    rw [setMetadata_eq_error_iff]
    constructor
    · rintro ⟨hindex, hfailure⟩
      exact ⟨index, key, value, rfl, hindex, hfailure⟩
    · rintro ⟨_, _, _, heq, hindex, hfailure⟩
      obtain ⟨rfl, rfl, rfl⟩ := Edit.setMetadata.inj heq
      exact ⟨hindex, hfailure⟩

/-! ### Edits one after another -/

/-- One more edit counts if it succeeds. -/
theorem editAll_concat (draft : Document) (edits : List Edit) (next : Edit) :
    draft.editAll (edits ++ [next]) =
      match (draft.editAll edits).2.edit next with
      | .ok changed => ((draft.editAll edits).1 ++ [next], changed)
      | .error _ => draft.editAll edits := by
  induction edits generalizing draft with
  | nil =>
    show draft.editAll [next] = _
    unfold editAll
    cases draft.edit next <;> rfl
  | cons first edits ih =>
    rw [List.cons_append]
    unfold editAll
    cases draft.edit first with
    | ok changed =>
      dsimp only
      rw [ih changed]
      cases (changed.editAll edits).2.edit next <;> rfl
    | error failure => exact ih draft

theorem reflects_editAll (draft : Document) (edits : List Edit) :
    Reflects draft (draft.editAll edits).1 (draft.editAll edits).2 := by
  induction edits generalizing draft with
  | nil => exact .refl draft
  | cons next edits ih =>
    unfold editAll
    cases hedit : draft.edit next with
    | ok changed => exact (reflects_of_edit hedit).trans (ih changed)
    | error failure => exact ih draft

/-- What edits made one after another come to: the document reflects those that succeeded, only an
edit of a chunk that is not there fails next, and it leaves everything as it was. -/
structure AddsUp (draft : Document) (edits : List Edit) : Prop where
  reflects : draft.Reflects (draft.editAll edits).1 (draft.editAll edits).2
  fails_iff : ∀ next failure, (draft.editAll edits).2.edit next = .error failure ↔
    ∃ index key value, next = .setMetadata index key value ∧
      (draft.editAll edits).2.size ≤ index ∧
      failure = .indexOutOfRange index (draft.editAll edits).2.size
  unharmed : ∀ next failure, (draft.editAll edits).2.edit next = .error failure →
    draft.editAll (edits ++ [next]) = draft.editAll edits

theorem addsUp (draft : Document) (edits : List Edit) : draft.AddsUp edits where
  reflects := reflects_editAll draft edits
  fails_iff := fun _ _ => edit_eq_error_iff
  unharmed := by
    intro next failure hfails
    rw [editAll_concat, hfails]

end Document

end ChunkStore
