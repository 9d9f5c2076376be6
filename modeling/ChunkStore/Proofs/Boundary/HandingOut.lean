import ChunkStore.Proofs.Boundary.Lineage

/-!
# What a caller gets to read

Results and metadata lists are read one field at a time.  Collections whose texts have no null
characters pass the checks at the boundary, and then every field that is read off them is the one
that was staged: texts byte for byte, numbers and truth values equal, floats bit for bit.
-/

set_option autoImplicit false

namespace ChunkStore.Boundary

open CString

/-- A call that gives back something and changes nothing. -/
def Reads (state : State) (call : Call) (returned : Returned) : Prop :=
  perform state call = (.ok returned, state)

/-- A call that gives back a text and changes nothing. -/
def ReadsText (state : State) (call : Call) (text : CString) : Prop :=
  ∃ s, Reads state call (.text s) ∧ text.Spells s

/-- A metadata list gives back a value at an index. -/
def ReadsValue (state : State) (list : Pointer) (index : Nat) : SentValue → Prop
  | .bool b => Reads state (.metadataValue list index .bool) (.bool b)
  | .int n => Reads state (.metadataValue list index .int) (.number n.toInt)
  | .float x => Reads state (.metadataValue list index .float) (.float x)
  | .text s => ReadsText state (.metadataValue list index .str) s

/-- A metadata list gives back a key and its value at an index. -/
structure ReadsEntry (state : State) (list : Pointer) (index : Nat) (entry : CString × SentValue) :
    Prop where
  key : ReadsText state (.metadataKey list index) entry.1
  kind : Reads state (.metadataKind list index) (.number entry.2.kind.tag)
  value : ReadsValue state list index entry.2

/-- A metadata list gives back each of the keys that were set, with its value, and no others. -/
def ReadsMetadata (state : State) (list : Pointer) (sent : SentMetadata) : Prop :=
  ∃ entries : List (CString × SentValue), (entries.map Prod.fst).Nodup ∧
    (∀ name value, (name, value) ∈ entries ↔ sent name = some value) ∧
    Reads state (.metadataSize list) (.number entries.length) ∧
    ∀ index entry, entries[index]? = some entry → ReadsEntry state list index entry

/-- Results give back a chunk at an index.  Its metadata comes as a list, which says the same as
long as it is there. -/
structure ReadsItem (state : State) (results : Pointer) (index id : Nat) (item : Item) : Prop where
  id : Reads state (.resultField results index .id) (.number id)
  text : ReadsText state (.resultField results index .text) item.text
  name : ReadsText state (.resultField results index .document) item.name
  docId : ReadsText state (.resultField results index .docId) item.docId
  version : Reads state (.resultField results index .version) (.number item.version.toNat)
  metadata : ∀ target, ∃ after,
    perform state (.resultMetadata target results index) = (.ok .handle, after) ∧
      ∀ later : State, later.metadataLists.find? target = after.metadataLists.find? target →
        ReadsMetadata later (some target) item.metadata

/-! ### Collections that pass the checks -/

theorem forM_eq_ok {α : Type} {f : α → Except Failure Unit} {list : List α}
    (h : ∀ a ∈ list, f a = .ok ()) : list.forM f = .ok () := by
  induction list with
  | nil => rfl
  | cons a list ih =>
    obtain ⟨hhead, htail⟩ := List.forall_mem_cons.1 h
    exact bind_eq_ok_iff.2 ⟨(), hhead, ih htail⟩

theorem checkResults_eq_ok {results : Results} (h : ∀ hit ∈ results.hits, ∃ item,
    IsItem hit.chunk item) : checkResults results = .ok results := by
  refine bind_eq_ok_iff.2 ⟨(), ?_, rfl⟩
  apply forM_eq_ok
  intro hit hhit
  obtain ⟨item, hitem⟩ := h hit hhit
  rw [writeText_of_not_mem hitem.text.not_mem, writeText_of_not_mem hitem.name.not_mem,
    writeText_of_not_mem hitem.docId.not_mem]
  rfl

theorem IsMetadata.not_mem {metadata : Metadata} {sent : SentMetadata}
    (h : IsMetadata metadata sent) {key : String} {value : Metadata.Value}
    (hfind : metadata.find? key = some value) :
    '\x00' ∉ key.toList ∧ ∀ s, value = .str s → '\x00' ∉ s.toList := by
  obtain ⟨name, sentValue, hname, -, hvalue⟩ := h.sound key value hfind
  refine ⟨hname.not_mem, ?_⟩
  rintro s rfl
  cases hvalue with
  | text hspells => exact hspells.not_mem

theorem checkMetadata_eq_ok {metadata : Metadata} {sent : SentMetadata}
    (h : IsMetadata metadata sent) : checkMetadata metadata = .ok metadata := by
  refine bind_eq_ok_iff.2 ⟨(), ?_, rfl⟩
  apply forM_eq_ok
  rintro ⟨key, value⟩ hentry
  obtain ⟨hkey, hvalue⟩ := h.not_mem (Dict.mem_toList.1 hentry)
  have hwrite := writeText_of_not_mem hkey "metadata key"
  cases value with
  | str s =>
    dsimp only
    rw [writeText_of_not_mem (hvalue s rfl), hwrite]
    rfl
  | bool | int | float =>
    dsimp only
    rw [hwrite]
    rfl

theorem checkListing_eq_ok {listing : List Source}
    (h : ∀ source ∈ listing, '\x00' ∉ source.document.toList ∧ '\x00' ∉ source.docId.toList) :
    checkListing listing = .ok listing := by
  refine bind_eq_ok_iff.2 ⟨(), ?_, rfl⟩
  apply forM_eq_ok
  intro source hsource
  obtain ⟨hdocument, hdocId⟩ := h source hsource
  rw [writeText_of_not_mem hdocument, writeText_of_not_mem hdocId]
  rfl

/-! ### Reading metadata lists -/

theorem sizeOf_of_find? {α : Type} {name : String} {objects : Dict String α} {found : α}
    (hfind : objects.find? name = some found) (size : α → Nat) :
    sizeOf (some name) objects size = .number (size found) := by
  have hlookUp : lookUp (some name) objects = some found := hfind
  unfold sizeOf
  rw [hlookUp]
  rfl

/-- A metadata value as it is handed out. -/
def SentValue.ofValue : Metadata.Value → SentValue
  | .bool b => .bool b
  | .int n => .int n
  | .float x => .float x
  | .str s => .text (.ofText s)

theorem IsValue.eq_ofValue {value : Metadata.Value} {sentValue : SentValue}
    (h : IsValue value sentValue) : sentValue = .ofValue value := by
  cases h with
  | bool | int | float => rfl
  | text hspells => exact congrArg SentValue.text hspells.eq_ofText

theorem kind_ofValue (value : Metadata.Value) : (SentValue.ofValue value).kind = value.kind := by
  cases value <;> rfl

/-- The entries of metadata as they are handed out. -/
def handedOut (metadata : Metadata) : List (CString × SentValue) :=
  metadata.toList.map fun entry => (.ofText entry.1, .ofValue entry.2)

section

variable {metadata : Metadata} {sent : SentMetadata} {state : State} {list : String}

theorem IsMetadata.spells_ofText (h : IsMetadata metadata sent) {key : String}
    {value : Metadata.Value} (hfind : metadata.find? key = some value) :
    (CString.ofText key).Spells key ∧ IsValue value (.ofValue value) ∧
      sent (.ofText key) = some (.ofValue value) := by
  obtain ⟨name, sentValue, hname, hsent, hvalue⟩ := h.sound key value hfind
  rw [hname.eq_ofText, hvalue.eq_ofValue] at hsent
  rw [hvalue.eq_ofValue] at hvalue
  rw [hname.eq_ofText] at hname
  exact ⟨hname, hvalue, hsent⟩

theorem IsMetadata.mem_handedOut_iff (h : IsMetadata metadata sent) (name : CString)
    (value : SentValue) : (name, value) ∈ handedOut metadata ↔ sent name = some value := by
  constructor
  · intro hmem
    obtain ⟨⟨key, found⟩, hentry, heq⟩ := List.mem_map.1 hmem
    obtain ⟨rfl, rfl⟩ := Prod.mk.inj heq
    exact (h.spells_ofText (Dict.mem_toList.1 hentry)).2.2
  · intro hsent
    obtain ⟨key, found, hname, hfind, hvalue⟩ := h.complete name value hsent
    rw [hname.eq_ofText, hvalue.eq_ofValue]
    exact List.mem_map_of_mem (Dict.mem_toList.2 hfind)

theorem IsMetadata.nodup_handedOut (h : IsMetadata metadata sent) :
    ((handedOut metadata).map Prod.fst).Nodup := by
  have hkeys : (handedOut metadata).map Prod.fst = metadata.keys.map CString.ofText := by
    simp [handedOut, Dict.keys, Dict.toList]
  rw [hkeys]
  apply List.Nodup.map_on _ metadata.keys_nodup
  intro key hkey other hother heq
  obtain ⟨value, hfind⟩ := Dict.mem_keys.1 hkey
  obtain ⟨otherValue, hotherFind⟩ := Dict.mem_keys.1 hother
  have hspells := (h.spells_ofText hfind).1
  rw [heq] at hspells
  exact hspells.text_eq (h.spells_ofText hotherFind).1

theorem metadataEntry_eq_ok (hfind : state.metadataLists.find? list = some metadata) {index : Nat}
    {entry : String × Metadata.Value} (hentry : metadata.toList[index]? = some entry) :
    metadataEntry state (some list) index = .ok entry := by
  refine bind_eq_ok_iff.2 ⟨(list, metadata), object_eq_ok_iff.2 ⟨rfl, hfind⟩, ?_⟩
  unfold member
  dsimp only
  rw [hentry]

theorem reads_metadataValue (hfind : state.metadataLists.find? list = some metadata) {index : Nat}
    {entry : String × Metadata.Value} (hentry : metadata.toList[index]? = some entry)
    {kind : Metadata.Kind} {returned : Returned} (hvalue : readValue entry.2 kind = .ok returned) :
    Reads state (.metadataValue (some list) index kind) returned := by
  have hread : (metadataEntry state (some list) index).bind
      (fun entry => readValue entry.2 kind) = .ok returned :=
    bind_eq_ok_iff.2 ⟨entry, metadataEntry_eq_ok hfind hentry, hvalue⟩
  exact Prod.ext hread rfl

theorem readsValue_of_isValue (hfind : state.metadataLists.find? list = some metadata) {index : Nat}
    {entry : String × Metadata.Value} (hentry : metadata.toList[index]? = some entry)
    {sentValue : SentValue} (h : IsValue entry.2 sentValue) :
    ReadsValue state (some list) index sentValue := by
  obtain ⟨key, value⟩ := entry
  cases h with
  | bool | int | float => exact reads_metadataValue hfind hentry rfl
  | text hspells => exact ⟨_, reads_metadataValue hfind hentry rfl, hspells⟩

/-- A metadata list that is metadata as it was staged gives back what was staged. -/
theorem IsMetadata.reads (h : IsMetadata metadata sent)
    (hfind : state.metadataLists.find? list = some metadata) :
    ReadsMetadata state (some list) sent := by
  refine ⟨handedOut metadata, h.nodup_handedOut, h.mem_handedOut_iff, ?_, ?_⟩
  · have hlength : (handedOut metadata).length = metadata.size := List.length_map ..
    rw [hlength]
    exact Prod.ext (congrArg Except.ok (sizeOf_of_find? hfind Dict.size)) rfl
  · intro index entry hentry
    unfold handedOut at hentry
    rw [List.getElem?_map, Option.map_eq_some_iff] at hentry
    obtain ⟨⟨key, value⟩, hmem, rfl⟩ := hentry
    have hread := metadataEntry_eq_ok hfind hmem
    obtain ⟨hkey, hvalue, -⟩ := h.spells_ofText (Dict.mem_toList.1 (List.mem_of_getElem? hmem))
    refine ⟨⟨key, ?_, hkey⟩, ?_, readsValue_of_isValue hfind hmem hvalue⟩
    · exact Prod.ext (map_eq_ok_iff.2 ⟨_, hread, rfl⟩) rfl
    · rw [kind_ofValue]
      exact Prod.ext (map_eq_ok_iff.2 ⟨_, hread, rfl⟩) rfl

end

/-! ### Reading results -/

section

variable {state : State} {name : String} {found : Results} {index : Nat} {hit : Hit}

theorem get_eq_ok (hhit : found.hits[index]? = some hit) : found.get index = .ok hit := by
  unfold Results.get
  rw [hhit]

theorem reads_resultField (hfind : state.results.find? name = some found)
    (hhit : found.hits[index]? = some hit) (field : ResultField) :
    Reads state (.resultField (some name) index field) (field.read hit) := by
  have hread : (do
      let found ← object "query results" (some name) state.results
      return field.read (← found.2.get index)) = .ok (field.read hit) :=
    bind_eq_ok_iff.2 ⟨(name, found), object_eq_ok_iff.2 ⟨rfl, hfind⟩,
      bind_eq_ok_iff.2 ⟨hit, get_eq_ok hhit, rfl⟩⟩
  exact Prod.ext hread rfl

/-- The metadata of a result, as far as its texts can be handed out. -/
theorem perform_resultMetadata (hfind : state.results.find? name = some found)
    (hhit : found.hits[index]? = some hit)
    (hcheck : checkMetadata hit.chunk.metadata = .ok hit.chunk.metadata) (target : String) :
    perform state (.resultMetadata target (some name) index) = (.ok .handle,
      { state with
        metadataLists := state.metadataLists.insert target hit.chunk.metadata }) := by
  have hmetadata : found.metadataOf index = .ok hit.chunk.metadata :=
    map_eq_ok_iff.2 ⟨hit, get_eq_ok hhit, rfl⟩
  have hobject : object "query results" (some name) state.results = .ok (name, found) :=
    object_eq_ok_iff.2 ⟨rfl, hfind⟩
  unfold perform
  dsimp only
  rw [hobject]
  simp only [bind, Except.bind, hmetadata, hcheck]
  rfl

/-- Results give back what was staged for their chunks. -/
theorem IsItem.reads {item : Item} (h : IsItem hit.chunk item)
    (hfind : state.results.find? name = some found) (hhit : found.hits[index]? = some hit) :
    ReadsItem state (some name) index hit.chunk.id.toNat item where
  id := reads_resultField hfind hhit .id
  text := ⟨hit.chunk.text, reads_resultField hfind hhit .text, h.text⟩
  name := ⟨hit.chunk.document, reads_resultField hfind hhit .document, h.name⟩
  docId := ⟨hit.chunk.docId, reads_resultField hfind hhit .docId, h.docId⟩
  version := by
    rw [← h.version]
    exact reads_resultField hfind hhit .version
  metadata := by
    intro target
    refine ⟨_, perform_resultMetadata hfind hhit (checkMetadata_eq_ok h.metadata) target, ?_⟩
    intro later hlater
    apply h.metadata.reads
    rw [hlater]
    show (state.metadataLists.insert target hit.chunk.metadata).find? target = _
    rw [Dict.find?_insert, if_pos rfl]

end

end ChunkStore.Boundary
