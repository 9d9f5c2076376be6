import ChunkStore.Proofs.Boundary.Consumption
import ChunkStore.Proofs.Boundary.ErrorChannel

/-!
# Reading collections

Results and metadata lists are read by accessors, each for one index.  An accessor gives back what
is stored if the index is below the length and, where it is for one kind of values, the value there
is of that kind.  In every other case it fails with the index and the length, or with the two kinds.
The texts that accessors lend out are copies that are made with the collection.  There is a copy for
every text, so that none is looked for in vain, and none of them has a null character.
-/

set_option autoImplicit false

namespace ChunkStore

/-- No text of a hit that is handed out has a null character. -/
def Results.HasNoNull (results : Results) : Prop :=
  ∀ hit ∈ results.hits, '\x00' ∉ hit.chunk.text.toList ∧ '\x00' ∉ hit.chunk.document.toList ∧
    '\x00' ∉ hit.chunk.docId.toList

/-- No key and no string has a null character. -/
def Metadata.HasNoNull (metadata : Metadata) : Prop :=
  ∀ entry ∈ metadata.toList, '\x00' ∉ entry.1.toList ∧ ∀ s, entry.2 = .str s → '\x00' ∉ s.toList

namespace Boundary

open CString

/-! ### What accessors do -/

/-- A call gives back something, leaves its slot alone and changes nothing. -/
def Gives (state : State) (call : Call) (returned : Returned) : Prop :=
  ∀ slot, invoke state slot call = (returned, slot, state)

/-- A call gives back a text that is read as a whole from wherever it stands. -/
def GivesText (state : State) (call : Call) (text : String) : Prop :=
  Gives state call (.text text) ∧
    ∀ what rest, readText what (some (bytesOf text ++ 0 :: rest)) = .ok text

/-- A call gives back a metadata value. -/
def GivesValue (state : State) (call : Call) : Metadata.Value → Prop
  | .bool b => Gives state call (.bool b)
  | .int n => Gives state call (.number n.toInt)
  | .float x => Gives state call (.float x)
  | .str s => GivesText state call s

/-- A call gives back its no-result value, tells a failure and changes nothing. -/
def FailsWith (state : State) (call : Call) (failure : Failure) : Prop :=
  call.noResult.IsNoResult ∧ ∃ message, Tells message failure ∧
    ∀ slot, invoke state slot call = (call.noResult, slot.map fun _ => some message, state)

/-- A call that reads the entry at an index of a metadata list. -/
inductive Call.ReadsEntry (list : Pointer) (index : Nat) : Call → Prop
  | key : ReadsEntry list index (.metadataKey list index)
  | kind : ReadsEntry list index (.metadataKind list index)
  | value (kind : Metadata.Kind) : ReadsEntry list index (.metadataValue list index kind)

/-- A call that reads the hit at an index of results. -/
inductive Call.ReadsHit (results : Pointer) (index : Nat) : Call → Prop
  | field (field : ResultField) : ReadsHit results index (.resultField results index field)
  | metadata (target : String) : ReadsHit results index (.resultMetadata target results index)

/-! ### Copies of texts -/

/-- The texts of a hit that are lent out. -/
structure HitTexts where
  text : String
  document : String
  docId : String

namespace HitTexts

/-- The texts of a hit as they are. -/
def ofHit (hit : Hit) : HitTexts :=
  ⟨hit.chunk.text, hit.chunk.document, hit.chunk.docId⟩

/-- Copies the texts of a hit. -/
def of (hit : Hit) : Except Failure HitTexts := do
  let text ← writeText "chunk text" hit.chunk.text
  let document ← writeText "document name" hit.chunk.document
  let docId ← writeText "document id" hit.chunk.docId
  return ⟨text, document, docId⟩

end HitTexts

/-- Results with copies of the texts beside the hits. -/
structure KeptResults where
  results : Results
  copies : List HitTexts

namespace KeptResults

/-- Makes the copies. -/
def of (results : Results) : Except Failure KeptResults := do
  return ⟨results, ← results.hits.mapM HitTexts.of⟩

/-- Reads a field of a hit, texts off its copies; there is nothing to read if they are missing. -/
def read (kept : KeptResults) (index : Nat) (field : ResultField) :
    Except Failure (Option Returned) := do
  let hit ← kept.results.get index
  return kept.copies[index]?.map fun copy =>
    match field with
    | .id => .number hit.chunk.id.toNat
    | .text => .text copy.text
    | .document => .text copy.document
    | .docId => .text copy.docId
    | .version => .number hit.chunk.version.toNat
    | .score => .score hit.score

end KeptResults

/-- An entry of a metadata list with a copy of its text, if it has one. -/
structure KeptEntry where
  key : String
  value : Metadata.Value
  copy : Option String

namespace KeptEntry

/-- An entry with its text as it is. -/
def ofEntry (entry : String × Metadata.Value) : KeptEntry :=
  ⟨entry.1, entry.2, entry.2.asStr.toOption⟩

/-- Makes the copies. -/
def of (entry : String × Metadata.Value) : Except Failure KeptEntry := do
  let copy ← match entry.2 with
    | .str s => (writeText "metadata value" s).map some
    | _ => .ok none
  let key ← writeText "metadata key" entry.1
  return ⟨key, entry.2, copy⟩

/-- Reads a text off its copy; it is null if there is none. -/
def readStr (kept : List KeptEntry) (index : Nat) : Except Failure Returned := do
  let entry ← member kept index
  let _ ← entry.value.asStr
  return (entry.copy.map Returned.text).getD .null

end KeptEntry

/-! ### What collections give back -/

/-- The accessors of a metadata list give back an entry at an index.  Of those for one kind of
values, only the one for the kind of the entry succeeds. -/
structure GivesEntry (state : State) (list : Pointer) (index : Nat)
    (entry : String × Metadata.Value) : Prop where
  key : GivesText state (.metadataKey list index) entry.1
  kind : Gives state (.metadataKind list index) (.number entry.2.kind.tag)
  value : GivesValue state (.metadataValue list index entry.2.kind) entry.2
  others : ∀ kind, kind ≠ entry.2.kind →
    FailsWith state (.metadataValue list index kind) (.typeMismatch kind entry.2.kind)
  single : ∀ kind, (∃ returned, Gives state (.metadataValue list index kind) returned) ↔
    kind = entry.2.kind

/-- The accessors of a metadata list give back its entries, and texts are read off copies. -/
structure GivesList (state : State) (list : Pointer) (entries : List (String × Metadata.Value)) :
    Prop where
  size : Gives state (.metadataSize list) (.number entries.length)
  inside : ∀ index entry, entries[index]? = some entry → GivesEntry state list index entry
  outside : ∀ index, entries.length ≤ index → ∀ call : Call, call.ReadsEntry list index →
    FailsWith state call (.indexOutOfRange index entries.length)
  copies : ∃ kept, entries.mapM KeptEntry.of = .ok kept ∧
    (∀ entry ∈ kept, entry.copy.isSome ↔ entry.value.kind = .str) ∧
    ∀ index, (perform state (.metadataValue list index .str)).1 = KeptEntry.readStr kept index

/-- Entries are those of metadata: one for each key, and no others. -/
def AreEntries (entries : List (String × Metadata.Value)) (metadata : Metadata) : Prop :=
  (entries.map Prod.fst).Nodup ∧
    ∀ key value, (key, value) ∈ entries ↔ metadata.find? key = some value

/-- A snapshot of metadata is made at a target, and its accessors give back the entries of the
metadata for as long as it is there. -/
def GivesSnapshot (state : State) (call : Call) (target : String) (metadata : Metadata) : Prop :=
  ∃ after entries, (∀ slot, invoke state slot call = (.handle, slot, after)) ∧
    AreEntries entries metadata ∧
    ∀ later : State, later.metadataLists.find? target = after.metadataLists.find? target →
      GivesList later (some target) entries

/-- The accessors of results give back a hit at an index. -/
structure GivesHit (state : State) (results : Pointer) (index : Nat) (hit : Hit) : Prop where
  id : Gives state (.resultField results index .id) (.number hit.chunk.id.toNat)
  text : GivesText state (.resultField results index .text) hit.chunk.text
  document : GivesText state (.resultField results index .document) hit.chunk.document
  docId : GivesText state (.resultField results index .docId) hit.chunk.docId
  version : Gives state (.resultField results index .version) (.number hit.chunk.version.toNat)
  score : Gives state (.resultField results index .score) (.score hit.score)
  metadata : hit.chunk.metadata.HasNoNull → ∀ target,
    GivesSnapshot state (.resultMetadata target results index) target hit.chunk.metadata

/-- The accessors of results give back their hits, and texts are read off copies. -/
structure GivesResults (state : State) (results : Pointer) (found : Results) : Prop where
  size : Gives state (.resultsSize results) (.number found.size)
  inside : ∀ index hit, found.hits[index]? = some hit → GivesHit state results index hit
  outside : ∀ index, found.size ≤ index → ∀ call : Call, call.ReadsHit results index →
    FailsWith state call (.indexOutOfRange index found.size)
  copies : ∃ kept, KeptResults.of found = .ok kept ∧ kept.copies.length = found.size ∧
    ∀ index field, (perform state (.resultField results index field)).1.map some =
      kept.read index field

/-- Something is true of all objects. -/
def ForEach {α : Type} (motive : α → Prop) (objects : Dict String α) : Prop :=
  ∀ name found, objects.find? name = some found → motive found

/-- The collections behind the boundary can be handed out. -/
structure State.IsLendable (state : State) : Prop where
  results : ForEach Results.HasNoNull state.results
  metadataLists : ForEach Metadata.HasNoNull state.metadataLists

variable {state : State} {call : Call} {returned : Returned} {failure : Failure}

theorem Reads.gives (h : Reads state call returned) : Gives state call returned := by
  have hperform : perform state call = (.ok returned, state) := h
  intro slot
  unfold invoke
  rw [hperform]

theorem Reads.givesText {text : String} (h : Reads state call (.text text))
    (hnull : '\x00' ∉ text.toList) : GivesText state call text :=
  ⟨h.gives, readText_of_not_mem hnull⟩

theorem failsWith_of_perform (h : perform state call = (.error failure, state)) :
    FailsWith state call failure := by
  have hslot : call.hasSlot = true := hasSlot_of_perform (congrArg Prod.fst h)
  refine ⟨isNoResult_of_hasSlot hslot, errorText failure, tells_errorText failure, ?_⟩
  intro slot
  unfold invoke
  rw [h]

/-- What fails gives back nothing. -/
theorem FailsWith.not_gives (h : FailsWith state call failure) : ¬Gives state call returned := by
  intro hgives
  obtain ⟨-, message, -, hinvoke⟩ := h
  have hslot := congrArg (·.2.1) ((hgives (some none)).symm.trans (hinvoke (some none)))
  exact absurd hslot (by simp)

/-! ### Making copies -/

theorem writeText_eq_ok_iff {what text copy : String} :
    writeText what text = .ok copy ↔ '\x00' ∉ text.toList ∧ copy = text := by
  unfold writeText
  by_cases hnull : '\x00' ∈ text.toList
  · simp [hnull]
  · simp [hnull, eq_comm]

theorem hitTexts_eq_ok_iff {hit : Hit} {copy : HitTexts} :
    HitTexts.of hit = .ok copy ↔ ('\x00' ∉ hit.chunk.text.toList ∧
      '\x00' ∉ hit.chunk.document.toList ∧ '\x00' ∉ hit.chunk.docId.toList) ∧
        copy = .ofHit hit := by
  constructor
  · intro h
    obtain ⟨text, htext, h⟩ := bind_eq_ok_iff.1 h
    obtain ⟨document, hdocument, h⟩ := bind_eq_ok_iff.1 h
    obtain ⟨docId, hdocId, h⟩ := bind_eq_ok_iff.1 h
    obtain rfl := Except.ok.inj h
    obtain ⟨hnull, rfl⟩ := writeText_eq_ok_iff.1 htext
    obtain ⟨hnull', rfl⟩ := writeText_eq_ok_iff.1 hdocument
    obtain ⟨hnull'', rfl⟩ := writeText_eq_ok_iff.1 hdocId
    exact ⟨⟨hnull, hnull', hnull''⟩, rfl⟩
  · rintro ⟨⟨htext, hdocument, hdocId⟩, rfl⟩
    unfold HitTexts.of
    rw [writeText_of_not_mem htext, writeText_of_not_mem hdocument, writeText_of_not_mem hdocId]
    rfl

theorem keptEntry_eq_ok_iff {entry : String × Metadata.Value} {kept : KeptEntry} :
    KeptEntry.of entry = .ok kept ↔
      ('\x00' ∉ entry.1.toList ∧ ∀ s, entry.2 = .str s → '\x00' ∉ s.toList) ∧
        kept = .ofEntry entry := by
  obtain ⟨key, value⟩ := entry
  unfold KeptEntry.of
  cases value with
  | str s =>
    constructor
    · intro h
      obtain ⟨copy, hcopy, h⟩ := bind_eq_ok_iff.1 h
      obtain ⟨text, hkey, h⟩ := bind_eq_ok_iff.1 h
      obtain rfl := Except.ok.inj h
      obtain ⟨copied, hcopied, rfl⟩ := map_eq_ok_iff.1 hcopy
      obtain ⟨hs, rfl⟩ := writeText_eq_ok_iff.1 hcopied
      obtain ⟨hnull, rfl⟩ := writeText_eq_ok_iff.1 hkey
      refine ⟨⟨hnull, ?_⟩, rfl⟩
      rintro _ ⟨⟩
      exact hs
    · rintro ⟨⟨hkey, hs⟩, rfl⟩
      dsimp only
      rw [writeText_of_not_mem hkey, writeText_of_not_mem (hs s rfl)]
      rfl
  | bool | int | float =>
    constructor
    · intro h
      obtain ⟨copy, hcopy, h⟩ := bind_eq_ok_iff.1 h
      obtain ⟨text, hkey, h⟩ := bind_eq_ok_iff.1 h
      obtain rfl := Except.ok.inj h
      obtain rfl := Except.ok.inj hcopy
      obtain ⟨hnull, rfl⟩ := writeText_eq_ok_iff.1 hkey
      exact ⟨⟨hnull, fun _ h => absurd h (by simp)⟩, rfl⟩
    · rintro ⟨⟨hkey, -⟩, rfl⟩
      dsimp only
      rw [writeText_of_not_mem hkey]
      rfl

/-- A list is gone through successfully exactly if each of its members is. -/
theorem mapM_eq_ok_iff {α β : Type} {f : α → Except Failure β} {list : List α} {results : List β} :
    list.mapM f = .ok results ↔ List.Forall₂ (fun a b => f a = .ok b) list results := by
  induction list generalizing results with
  | nil => cases results <;> simp [pure, Except.pure]
  | cons a list ih =>
    rw [List.mapM_cons, bind_eq_ok_iff]
    constructor
    · rintro ⟨b, ha, h⟩
      obtain ⟨rest, hrest, h⟩ := bind_eq_ok_iff.1 h
      obtain rfl := Except.ok.inj h
      exact .cons ha (ih.1 hrest)
    · rintro ⟨⟩
      next b rest ha hrest =>
      exact ⟨b, ha, bind_eq_ok_iff.2 ⟨rest, ih.2 hrest, rfl⟩⟩

/-- Going through a list for the checks alone. -/
theorem forM_eq_map_mapM {α β : Type} {f : α → Except Failure β} {check : α → Except Failure Unit}
    (h : ∀ a, check a = (f a).map fun _ => ()) (list : List α) :
    list.forM check = (list.mapM f).map fun _ => () := by
  induction list with
  | nil => rfl
  | cons a list ih =>
    have hcons : (a :: list).forM check = (check a >>= fun _ => list.forM check) := rfl
    rw [hcons, List.mapM_cons, h a, ih]
    cases f a with
    | error failure => rfl
    | ok b => cases list.mapM f <;> rfl

/-- Results are let pass as far as copies of their texts can be made. -/
theorem checkResults_eq (results : Results) :
    checkResults results = (KeptResults.of results).map (·.results) := by
  have hhits : ∀ hit : Hit, (do
      let _ ← writeText "chunk text" hit.chunk.text
      let _ ← writeText "document name" hit.chunk.document
      let _ ← writeText "document id" hit.chunk.docId) =
        (HitTexts.of hit).map fun _ => () := by
    intro hit
    unfold HitTexts.of
    cases writeText "chunk text" hit.chunk.text with
    | error failure => rfl
    | ok text =>
      cases writeText "document name" hit.chunk.document with
      | error failure => rfl
      | ok document => cases writeText "document id" hit.chunk.docId <;> rfl
  unfold checkResults KeptResults.of
  rw [forM_eq_map_mapM hhits]
  cases results.hits.mapM HitTexts.of <;> rfl

/-- Metadata is let pass as far as copies of its texts can be made. -/
theorem checkMetadata_eq (metadata : Metadata) :
    checkMetadata metadata = (metadata.toList.mapM KeptEntry.of).map fun _ => metadata := by
  unfold checkMetadata
  rw [forM_eq_map_mapM (f := KeptEntry.of)]
  · cases metadata.toList.mapM KeptEntry.of <;> rfl
  · rintro ⟨key, value⟩
    unfold KeptEntry.of
    cases value with
    | str s =>
      dsimp only
      cases writeText "metadata value" s with
      | error failure => rfl
      | ok copy => cases writeText "metadata key" key <;> rfl
    | bool | int | float =>
      dsimp only
      cases writeText "metadata key" key <;> rfl

theorem exists_of_mem_left {α β : Type} {related : α → β → Prop} {left : List α} {right : List β}
    (h : List.Forall₂ related left right) {a : α} (ha : a ∈ left) : ∃ b, related a b := by
  induction h with
  | nil => exact absurd ha (by simp)
  | cons hhead htail ih =>
    rcases List.mem_cons.1 ha with rfl | ha
    · exact ⟨_, hhead⟩
    · exact ih ha

theorem mapM_hitTexts_of {results : Results} (h : results.HasNoNull) :
    results.hits.mapM HitTexts.of = .ok (results.hits.map .ofHit) := by
  rw [mapM_eq_ok_iff, List.forall₂_map_right_iff, List.forall₂_same]
  exact fun hit hhit => hitTexts_eq_ok_iff.2 ⟨h hit hhit, rfl⟩

theorem mapM_keptEntry_of {metadata : Metadata} (h : metadata.HasNoNull) :
    metadata.toList.mapM KeptEntry.of = .ok (metadata.toList.map .ofEntry) := by
  rw [mapM_eq_ok_iff, List.forall₂_map_right_iff, List.forall₂_same]
  exact fun entry hentry => keptEntry_eq_ok_iff.2 ⟨h entry hentry, rfl⟩

theorem checkMetadata_of_hasNoNull {metadata : Metadata} (h : metadata.HasNoNull) :
    checkMetadata metadata = .ok metadata := by
  rw [checkMetadata_eq, mapM_keptEntry_of h]
  rfl

theorem hasNoNull_of_checkResults {results checked : Results}
    (h : checkResults results = .ok checked) : checked.HasNoNull := by
  rw [checkResults_eq] at h
  obtain ⟨kept, hkept, rfl⟩ := map_eq_ok_iff.1 h
  obtain ⟨copies, hcopies, h⟩ := bind_eq_ok_iff.1 hkept
  obtain rfl := Except.ok.inj h
  intro hit hhit
  obtain ⟨copy, hcopy⟩ := exists_of_mem_left (mapM_eq_ok_iff.1 hcopies) hhit
  exact (hitTexts_eq_ok_iff.1 hcopy).1

theorem hasNoNull_of_checkMetadata {metadata checked : Metadata}
    (h : checkMetadata metadata = .ok checked) : checked.HasNoNull := by
  rw [checkMetadata_eq] at h
  obtain ⟨kept, hkept, rfl⟩ := map_eq_ok_iff.1 h
  intro entry hentry
  obtain ⟨copy, hcopy⟩ := exists_of_mem_left (mapM_eq_ok_iff.1 hkept) hentry
  exact (keptEntry_eq_ok_iff.1 hcopy).1

/-! ### Metadata lists -/

section

variable {metadata : Metadata} {list : String} {index : Nat} {entry : String × Metadata.Value}

theorem areEntries_toList (metadata : Metadata) : AreEntries metadata.toList metadata :=
  ⟨metadata.keys_nodup, fun _ _ => Dict.mem_toList⟩

theorem member_of_le {α : Type} {members : List α} (h : members.length ≤ index) :
    member members index = .error (.indexOutOfRange index members.length) := by
  unfold member
  rw [List.getElem?_eq_none h]

theorem metadataEntry_of_le (hfind : state.metadataLists.find? list = some metadata)
    (h : metadata.toList.length ≤ index) : metadataEntry state (some list) index =
      .error (.indexOutOfRange index metadata.toList.length) :=
  bind_eq_error_iff.2 (.inr ⟨(list, metadata), object_eq_ok_iff.2 ⟨rfl, hfind⟩, member_of_le h⟩)

/-- A value is read as its own kind, and as no other. -/
theorem readValue_of_ne {value : Metadata.Value} {kind : Metadata.Kind} (h : kind ≠ value.kind) :
    readValue value kind = .error (.typeMismatch kind value.kind) := by
  cases value <;> cases kind <;> simp_all [readValue, Metadata.Value.kind, Metadata.Value.asBool,
    Metadata.Value.asInt, Metadata.Value.asFloat, Metadata.Value.asStr, Except.map]

theorem givesEntry_of_find? (hfind : state.metadataLists.find? list = some metadata)
    (hnull : metadata.HasNoNull) (hentry : metadata.toList[index]? = some entry) :
    GivesEntry state (some list) index entry := by
  obtain ⟨hkey, hstr⟩ := hnull entry (List.mem_of_getElem? hentry)
  have hread := metadataEntry_eq_ok hfind hentry
  have hvalue : GivesValue state (.metadataValue (some list) index entry.2.kind) entry.2 := by
    obtain ⟨key, value⟩ := entry
    cases value with
    | bool | int | float => exact (reads_metadataValue hfind hentry rfl).gives
    | str s => exact (reads_metadataValue hfind hentry rfl).givesText (hstr s rfl)
  have hothers : ∀ kind, kind ≠ entry.2.kind → FailsWith state
      (.metadataValue (some list) index kind) (.typeMismatch kind entry.2.kind) := by
    intro kind hkind
    apply failsWith_of_perform
    have hmismatch : (metadataEntry state (some list) index).bind
        (fun entry => readValue entry.2 kind) = .error (.typeMismatch kind entry.2.kind) :=
      bind_eq_error_iff.2 (.inr ⟨entry, hread, readValue_of_ne hkind⟩)
    exact Prod.ext hmismatch rfl
  refine ⟨?_, ?_, hvalue, hothers, ?_⟩
  · exact Reads.givesText (Prod.ext (map_eq_ok_iff.2 ⟨entry, hread, rfl⟩) rfl) hkey
  · exact Reads.gives (Prod.ext (map_eq_ok_iff.2 ⟨entry, hread, rfl⟩) rfl)
  · intro kind
    constructor
    · rintro ⟨returned, hgives⟩
      by_contra hkind
      exact (hothers kind hkind).not_gives hgives
    · rintro rfl
      generalize entry.2 = value at hvalue
      cases value with
      | bool | int | float => exact ⟨_, hvalue⟩
      | str s => exact ⟨_, hvalue.1⟩

/-- There is a copy of every text, and the typed accessor reads it. -/
theorem readStr_eq (hfind : state.metadataLists.find? list = some metadata) (index : Nat) :
    (perform state (.metadataValue (some list) index .str)).1 =
      KeptEntry.readStr (metadata.toList.map .ofEntry) index := by
  show (metadataEntry state (some list) index).bind _ = _
  unfold KeptEntry.readStr
  cases hentry : metadata.toList[index]? with
  | none =>
    have hindex := List.getElem?_eq_none_iff.1 hentry
    rw [metadataEntry_of_le hfind hindex, member_of_le (by rwa [List.length_map]),
      List.length_map]
    rfl
  | some entry =>
    obtain ⟨key, value⟩ := entry
    have hkept : member (metadata.toList.map KeptEntry.ofEntry) index =
        .ok (.ofEntry (key, value)) := by
      unfold member
      rw [List.getElem?_map, hentry]
      rfl
    rw [metadataEntry_eq_ok hfind hentry, hkept]
    cases value <;> rfl

theorem isSome_copy_iff (entry : String × Metadata.Value) :
    (KeptEntry.ofEntry entry).copy.isSome ↔ (KeptEntry.ofEntry entry).value.kind = .str := by
  obtain ⟨key, value⟩ := entry
  cases value <;> simp [KeptEntry.ofEntry, Metadata.Value.asStr, Metadata.Value.kind,
    Except.toOption]

theorem givesList_of_find? (hfind : state.metadataLists.find? list = some metadata)
    (hnull : metadata.HasNoNull) : GivesList state (some list) metadata.toList where
  size := Reads.gives (Prod.ext (congrArg Except.ok (sizeOf_of_find? hfind Dict.size)) rfl)
  inside := fun _ _ hentry => givesEntry_of_find? hfind hnull hentry
  outside := by
    intro index hindex call hcall
    have hread := metadataEntry_of_le hfind hindex
    apply failsWith_of_perform
    cases hcall with
    | key | kind | value =>
      unfold perform
      dsimp only
      rw [hread]
      rfl
  copies := by
    refine ⟨_, mapM_keptEntry_of hnull, ?_, readStr_eq hfind⟩
    rw [List.forall_mem_map]
    exact fun entry _ => isSome_copy_iff entry

end

/-! ### Results -/

section

variable {found : Results} {name : String} {index : Nat} {hit : Hit}

theorem get_of_le (h : found.size ≤ index) :
    found.get index = .error (.indexOutOfRange index found.size) := by
  unfold Results.get
  rw [List.getElem?_eq_none h]

/-- The snapshot that is made of the metadata of a hit. -/
theorem givesSnapshot_of_find? (hfind : state.results.find? name = some found)
    (hhit : found.hits[index]? = some hit) (hnull : hit.chunk.metadata.HasNoNull)
    (target : String) :
    GivesSnapshot state (.resultMetadata target (some name) index) target hit.chunk.metadata := by
  have hperform := perform_resultMetadata hfind hhit (checkMetadata_of_hasNoNull hnull) target
  refine ⟨(perform state (.resultMetadata target (some name) index)).2, _, ?_,
    areEntries_toList _, ?_⟩
  · intro slot
    unfold invoke
    rw [hperform]
  · intro later hlater
    apply givesList_of_find? _ hnull
    rw [hlater, hperform]
    show (state.metadataLists.insert target hit.chunk.metadata).find? target = _
    rw [Dict.find?_insert, if_pos rfl]

theorem givesHit_of_find? (hfind : state.results.find? name = some found)
    (hnull : found.HasNoNull) (hhit : found.hits[index]? = some hit) :
    GivesHit state (some name) index hit := by
  obtain ⟨htext, hdocument, hdocId⟩ := hnull hit (List.mem_of_getElem? hhit)
  have hreads := reads_resultField hfind hhit
  exact ⟨(hreads .id).gives, (hreads .text).givesText htext,
    (hreads .document).givesText hdocument, (hreads .docId).givesText hdocId,
    (hreads .version).gives, (hreads .score).gives, givesSnapshot_of_find? hfind hhit⟩

/-- There is a copy of every text, and the accessors read it. -/
theorem read_eq (hfind : state.results.find? name = some found) (index : Nat)
    (field : ResultField) : (perform state (.resultField (some name) index field)).1.map some =
      KeptResults.read ⟨found, found.hits.map .ofHit⟩ index field := by
  unfold KeptResults.read
  cases hhit : found.hits[index]? with
  | none =>
    have hget := get_of_le (List.getElem?_eq_none_iff.1 hhit)
    have hread : (perform state (.resultField (some name) index field)).1 =
        .error (.indexOutOfRange index found.size) :=
      bind_eq_error_iff.2 (.inr ⟨(name, found), object_eq_ok_iff.2 ⟨rfl, hfind⟩,
        bind_eq_error_iff.2 (.inl hget)⟩)
    rw [hread, hget]
    rfl
  | some hit =>
    have hread := congrArg Prod.fst (reads_resultField hfind hhit field)
    have hcopy : (found.hits.map HitTexts.ofHit)[index]? = some (.ofHit hit) := by
      rw [List.getElem?_map, hhit]
      rfl
    rw [hread, get_eq_ok hhit]
    simp only [bind, Except.bind, hcopy]
    cases field <;> rfl

theorem givesResults_of_find? (hfind : state.results.find? name = some found)
    (hnull : found.HasNoNull) : GivesResults state (some name) found where
  size := Reads.gives (Prod.ext (congrArg Except.ok (sizeOf_of_find? hfind Results.size)) rfl)
  inside := fun _ _ hhit => givesHit_of_find? hfind hnull hhit
  outside := by
    intro index hindex call hcall
    have hobject : object "query results" (some name) state.results = .ok (name, found) :=
      object_eq_ok_iff.2 ⟨rfl, hfind⟩
    have hget := get_of_le hindex
    apply failsWith_of_perform
    cases hcall with
    | field field =>
      unfold perform
      dsimp only
      rw [hobject]
      simp only [bind, Except.bind, hget]
    | metadata target =>
      unfold perform
      dsimp only
      rw [hobject]
      simp only [bind, Except.bind, Results.metadataOf, hget]
      rfl
  copies := ⟨⟨found, found.hits.map .ofHit⟩, bind_eq_ok_iff.2 ⟨_, mapM_hitTexts_of hnull, rfl⟩,
    List.length_map .., read_eq hfind⟩

end

/-! ### What is held can be handed out -/

section

variable {α : Type} {motive : α → Prop} {objects : Dict String α}

theorem forEach_empty : ForEach motive (.empty : Dict String α) := by
  intro name found hfind
  exact absurd hfind (by simp)

theorem ForEach.insert (h : ForEach motive objects) {found : α} (hfound : motive found)
    (target : String) : ForEach motive (objects.insert target found) := by
  intro name other hfind
  rw [Dict.find?_insert] at hfind
  split at hfind
  · obtain rfl := Option.some.inj hfind
    exact hfound
  · exact h name other hfind

theorem ForEach.releaseFrom (h : ForEach motive objects) (pointer : Pointer) :
    ForEach motive (releaseFrom pointer objects) := by
  cases pointer with
  | none => exact h
  | some released =>
    intro name found hfind
    simp only [Boundary.releaseFrom, Dict.find?_erase] at hfind
    split at hfind
    · exact absurd hfind (by simp)
    · exact h name found hfind

end

theorem State.IsLendable.results_perform (h : state.IsLendable) (call : Call) :
    ForEach Results.HasNoNull (perform state call).2.results := by
  cases hranks : call.ranks with
  | false =>
    rw [(keeps_perform state call).results hranks]
    exact h.results
  | true =>
    cases call with
    | query target database text topK constraints =>
      apply settle_snd (motive := fun after => ForEach Results.HasNoNull after.results) h.results
      intro after hafter
      obtain ⟨results, hquery, hafter⟩ := bind_eq_ok_iff.1 hafter
      obtain rfl := Except.ok.inj hafter
      obtain ⟨found, -, hquery⟩ := bind_eq_ok_iff.1 hquery
      obtain ⟨text, -, hquery⟩ := bind_eq_ok_iff.1 hquery
      obtain ⟨ranked, -, hcheck⟩ := bind_eq_ok_iff.1 hquery
      exact h.results.insert (hasNoNull_of_checkResults hcheck) target
    | freeResults results => exact h.results.releaseFrom results
    | _ => exact absurd hranks (by simp [Call.ranks])

theorem State.IsLendable.metadataLists_perform (h : state.IsLendable) (call : Call) :
    ForEach Metadata.HasNoNull (perform state call).2.metadataLists := by
  cases hsnapshots : call.snapshots with
  | false =>
    rw [(spares_perform state call).metadataLists hsnapshots]
    exact h.metadataLists
  | true =>
    cases call with
    | resultMetadata target results index =>
      apply settle_snd (motive := fun after => ForEach Metadata.HasNoNull after.metadataLists)
        h.metadataLists
      intro after hafter
      obtain ⟨found, -, hafter⟩ := bind_eq_ok_iff.1 hafter
      obtain ⟨metadata, -, hafter⟩ := bind_eq_ok_iff.1 hafter
      obtain ⟨checked, hcheck, hafter⟩ := bind_eq_ok_iff.1 hafter
      obtain rfl := Except.ok.inj hafter
      exact h.metadataLists.insert (hasNoNull_of_checkMetadata hcheck) target
    | freeMetadata list => exact h.metadataLists.releaseFrom list
    | _ => exact absurd hsnapshots (by simp [Call.snapshots])

/-- Whatever is called in a run, only what can be handed out is kept. -/
theorem Run.isLendable {trace : List Step} {ledger : Ledger} {after : State}
    (hrun : Run state trace ledger after) (hstart : state.IsLendable) : after.IsLendable := by
  induction hrun with
  | start => exact hstart
  | call _ call ih => exact ⟨ih.results_perform call, ih.metadataLists_perform call⟩
  | meanwhile _ _ _ ih => exact ⟨ih.results, ih.metadataLists⟩

/-- The accessors give back what is held at an index below the length, of the kind that they are
for, and they fail in every other case.  What can be handed out is all that a run ever holds. -/
theorem accessors_give_back_what_is_held (state : State) :
    (∀ results found, state.results.find? results = some found → found.HasNoNull →
      GivesResults state (some results) found) ∧
    (∀ list metadata, state.metadataLists.find? list = some metadata → metadata.HasNoNull →
      AreEntries metadata.toList metadata ∧ GivesList state (some list) metadata.toList) ∧
    (state.IsLendable → ∀ trace ledger after, Run state trace ledger after →
      after.IsLendable) := by
  refine ⟨?_, ?_, ?_⟩
  · intro results found hfind hnull
    exact givesResults_of_find? hfind hnull
  · intro list metadata hfind hnull
    exact ⟨areEntries_toList metadata, givesList_of_find? hfind hnull⟩
  · intro hlendable trace ledger after hrun
    exact hrun.isLendable hlendable

/-- A chunk with values of three kinds, one of them not a number. -/
def shelvedChunk : Chunk :=
  ⟨3, "alpha", "a.txt", "a", 1, ((Dict.empty.insert "size" (.float ⟨0x7FF8000000000001⟩)).insert
    "color" (.str "blue")).insert "kept" (.bool true)⟩

/-- A hit and the metadata of its chunk. -/
def shelf : State :=
  { State.empty with
    results := Dict.empty.insert "hits" ⟨[⟨shelvedChunk, ⟨0x3F800000⟩⟩]⟩
    metadataLists := Dict.empty.insert "list" shelvedChunk.metadata }

theorem shelf_gives_back_what_it_holds :
    GivesResults shelf (some "hits") ⟨[⟨shelvedChunk, ⟨0x3F800000⟩⟩]⟩ ∧
      GivesList shelf (some "list") shelvedChunk.metadata.toList ∧
      (perform shelf (.freeResults (some "hits"))).2.IsLendable := by
  have hresults : (⟨[⟨shelvedChunk, ⟨0x3F800000⟩⟩]⟩ : Results).HasNoNull := by
    unfold Results.HasNoNull
    decide +kernel
  have hmetadata : shelvedChunk.metadata.HasNoNull := by
    have htexts : ∀ entry ∈ shelvedChunk.metadata.toList, '\x00' ∉ entry.1.toList ∧
        ∀ s ∈ entry.2.asStr.toOption, '\x00' ∉ s.toList := by
      decide +kernel
    intro entry hentry
    obtain ⟨hkey, hstr⟩ := htexts entry hentry
    refine ⟨hkey, ?_⟩
    intro s hs
    apply hstr
    rw [hs]
    rfl
  obtain ⟨hgivesResults, hgivesList, hlendable⟩ := accessors_give_back_what_is_held shelf
  have hrun : Run shelf _ _ (perform shelf (.freeResults (some "hits"))).2 := .call .start _
  exact ⟨hgivesResults "hits" _ rfl hresults, (hgivesList "list" _ rfl hmetadata).2,
    hlendable ⟨forEach_empty.insert hresults "hits", forEach_empty.insert hmetadata "list"⟩
      _ _ _ hrun⟩

end Boundary

end ChunkStore
