import ChunkStore.Proofs.Boundary.Effects
import ChunkStore.Proofs.Boundary.Texts

/-!
# What a caller has staged

A caller can keep a ledger of the documents under construction, from the calls that succeeded and
what was handed over with them: the texts of the chunks in their order, and for each chunk and key
the last value.  Nothing of the objects behind the boundary is needed for it.  The documents behind
the boundary are always what the ledger says.
-/

set_option autoImplicit false

namespace ChunkStore.Boundary

open CString

/-- A metadata value as a caller hands it over. -/
inductive SentValue where
  | bool (b : Bool)
  | int (n : Int64)
  | float (x : Binary64)
  | text (s : CString)

/-- What is handed over with an argument. -/
def RawValue.sent : RawValue → SentValue
  | .bool b => .bool b
  | .int n => .int n
  | .float x => .float x
  | .text raw => .text (.ofRaw raw)

/-- The kind of a value. -/
def SentValue.kind : SentValue → Metadata.Kind
  | .bool _ => .bool
  | .int _ => .int
  | .float _ => .float
  | .text _ => .str

/-- The metadata of a chunk as its caller knows it. -/
abbrev SentMetadata : Type :=
  CString → Option SentValue

/-- A chunk as its caller knows it. -/
structure SentChunk where
  text : CString
  metadata : SentMetadata

/-- A document as its caller knows it. -/
structure SentDocument where
  name : CString
  docId : CString
  version : Option UInt32
  chunks : List SentChunk

/-- The documents under construction, by the names of their pointers. -/
abbrev Ledger : Type :=
  String → SentDocument

namespace Ledger

/-- Takes down a call that succeeded. -/
def note (ledger : Ledger) : Call → Ledger
  | .newDocument target name docId =>
    Function.update ledger target ⟨.ofRaw name, .ofRaw docId, none, []⟩
  | .addChunk (some pointer) text =>
    let document := ledger pointer
    Function.update ledger pointer
      { document with chunks := document.chunks ++ [⟨.ofRaw text, fun _ => none⟩] }
  | .setVersion (some pointer) version =>
    Function.update ledger pointer { ledger pointer with version := some version }
  | .setMetadata (some pointer) index key value =>
    let document := ledger pointer
    Function.update ledger pointer
      { document with
        chunks := document.chunks.modify index fun chunk =>
          { chunk with metadata := Function.update chunk.metadata (.ofRaw key) (some value.sent) } }
  | _ => ledger

/-- Takes down a call with its outcome. -/
def after (ledger : Ledger) (call : Call) : Except Failure Returned → Ledger
  | .ok _ => ledger.note call
  | .error _ => ledger

/-- A ledger with nothing in it. -/
def empty : Ledger :=
  fun _ => ⟨.ofRaw none, .ofRaw none, none, []⟩

end Ledger

/-! ### What the objects behind the boundary are -/

/-- A value is the one that was handed over, bit for bit. -/
inductive IsValue : Metadata.Value → SentValue → Prop where
  | bool (b : Bool) : IsValue (.bool b) (.bool b)
  | int (n : Int64) : IsValue (.int n) (.int n)
  | float (x : Binary64) : IsValue (.float x) (.float x)
  | text {text : String} {s : CString} (h : s.Spells text) : IsValue (.str text) (.text s)

/-- Metadata has the keys and values that were handed over, and no others. -/
structure IsMetadata (metadata : Metadata) (sent : SentMetadata) : Prop where
  sound : ∀ key value, metadata.find? key = some value →
    ∃ name sentValue, name.Spells key ∧ sent name = some sentValue ∧ IsValue value sentValue
  complete : ∀ name sentValue, sent name = some sentValue →
    ∃ key value, name.Spells key ∧ metadata.find? key = some value ∧ IsValue value sentValue

/-- A document is the one that was handed over, with the texts and the metadata of its chunks. -/
structure IsDocument (document : Document) (sent : SentDocument) : Prop where
  name : sent.name.Spells document.name
  docId : sent.docId.Spells document.docId
  version : document.version = sent.version
  texts : List.Forall₂ (fun text chunk => chunk.text.Spells text) document.texts sent.chunks
  metadata : List.Forall₂ (fun metadata chunk => IsMetadata metadata chunk.metadata)
    document.metadata sent.chunks

theorem isMetadata_empty : IsMetadata .empty fun _ => none where
  sound := by
    intro key value hfind
    exact absurd hfind (by simp)
  complete := by
    intro name sentValue hsent
    exact absurd hsent (by simp)

theorem IsMetadata.insert {metadata : Metadata} {sent : SentMetadata} (h : IsMetadata metadata sent)
    {key : String} {name : CString} {value : Metadata.Value} {sentValue : SentValue}
    (hname : name.Spells key) (hvalue : IsValue value sentValue) :
    IsMetadata (metadata.insert key value) (Function.update sent name (some sentValue)) where
  sound := by
    intro other found hfind
    rw [Dict.find?_insert] at hfind
    split at hfind
    · next heq =>
      obtain rfl := Option.some.inj hfind
      refine ⟨name, sentValue, ?_, Function.update_self .., hvalue⟩
      rw [heq]
      exact hname
    · next hne =>
      obtain ⟨otherName, otherValue, hspells, hsent, hother⟩ := h.sound other found hfind
      refine ⟨otherName, otherValue, hspells, ?_, hother⟩
      rw [Function.update_of_ne]
      · exact hsent
      · rintro rfl
        exact hne (hspells.text_eq hname)
  complete := by
    intro otherName otherValue hsent
    by_cases heq : otherName = name
    · subst heq
      rw [Function.update_self] at hsent
      obtain rfl := Option.some.inj hsent
      refine ⟨key, value, hname, ?_, hvalue⟩
      rw [Dict.find?_insert, if_pos rfl]
    · rw [Function.update_of_ne heq] at hsent
      obtain ⟨other, found, hspells, hfind, hother⟩ := h.complete otherName otherValue hsent
      refine ⟨other, found, hspells, ?_, hother⟩
      rw [Dict.find?_insert, if_neg]
      · exact hfind
      · rintro rfl
        exact heq (hspells.name_eq hname)

theorem forall₂_modify {α β : Type} {related : α → β → Prop} {f : α → α} {g : β → β}
    (hstep : ∀ a b, related a b → related (f a) (g b)) {left : List α} {right : List β}
    (h : List.Forall₂ related left right) (index : Nat) :
    List.Forall₂ related (left.modify index f) (right.modify index g) := by
  induction h generalizing index with
  | nil => simp
  | cons hhead htail ih =>
    cases index with
    | zero => exact .cons (hstep _ _ hhead) htail
    | succ index => exact .cons hhead (ih index)

theorem isValue_of_read {what : String} {raw : RawValue} {value : Metadata.Value}
    (h : raw.read what = .ok value) : IsValue value raw.sent := by
  cases raw with
  | bool b =>
    obtain rfl := Except.ok.inj h
    exact .bool b
  | int n =>
    obtain rfl := Except.ok.inj h
    exact .int n
  | float x =>
    obtain rfl := Except.ok.inj h
    exact .float x
  | text raw =>
    obtain ⟨text, hread, rfl⟩ := map_eq_ok_iff.1 h
    exact .text (spells_of_readText hread)

/-! ### What the calls do to them -/

section

variable {document : Document} {sent : SentDocument}

theorem IsDocument.addChunk (h : IsDocument document sent) {text : String} {name : CString}
    (htext : name.Spells text) :
    IsDocument (document.addChunk text)
      { sent with chunks := sent.chunks ++ [⟨name, fun _ => none⟩] } where
  name := h.name
  docId := h.docId
  version := h.version
  texts := List.rel_append h.texts (.cons htext .nil)
  metadata := List.rel_append h.metadata (.cons isMetadata_empty .nil)

theorem IsDocument.setMetadata (h : IsDocument document sent) {changed : Document} {index : Nat}
    {key : String} {name : CString} {value : Metadata.Value} {sentValue : SentValue}
    (hname : name.Spells key) (hvalue : IsValue value sentValue)
    (hset : document.setMetadata index key value = .ok changed) :
    IsDocument changed { sent with
      chunks := sent.chunks.modify index fun chunk =>
        { chunk with metadata := Function.update chunk.metadata name (some sentValue) } } := by
  obtain ⟨-, -, hset⟩ := bind_eq_ok_iff.1 hset
  obtain rfl := Except.ok.inj hset
  refine ⟨h.name, h.docId, h.version, ?_, ?_⟩
  · show List.Forall₂ _ document.texts _
    rw [← List.modify_id index document.texts]
    apply forall₂_modify _ h.texts
    exact fun _ _ htext => htext
  · apply forall₂_modify _ h.metadata
    intro metadata chunk hmetadata
    exact hmetadata.insert hname hvalue

end

/-- The documents behind the boundary are what the ledger says. -/
def Documented (ledger : Ledger) (state : State) : Prop :=
  ∀ name document, state.documents.find? name = some (some document) →
    IsDocument document (ledger name)

section

variable {ledger : Ledger} {state : State}

theorem Documented.putDocument (h : Documented ledger state) {name : String} {document : Document}
    {sent : SentDocument} (hdocument : IsDocument document sent) :
    Documented (Function.update ledger name sent) (state.putDocument name document) := by
  intro other found hfind
  simp only [State.putDocument, Dict.find?_insert] at hfind
  split at hfind
  · next heq =>
    obtain rfl := Option.some.inj (Option.some.inj hfind)
    rw [heq, Function.update_self]
    exact hdocument
  · next hne =>
    rw [Function.update_of_ne hne]
    exact h other found hfind

theorem Ledger.after_of_not_stages {call : Call} (h : call.stages = false)
    (outcome : Except Failure Returned) : ledger.after call outcome = ledger := by
  cases outcome with
  | error failure => rfl
  | ok returned =>
    cases call with
    | newDocument | addChunk | setVersion | setMetadata => exact absurd h (by simp [Call.stages])
    | _ => rfl

/-- What is staged stays what the ledger says if the call does, as far as it succeeds. -/
theorem Documented.settle (h : Documented ledger state) {call : Call} {returned : Returned}
    {result : Except Failure State}
    (hafter : ∀ after, result = .ok after → Documented (ledger.note call) after) :
    Documented (ledger.after call (settle state returned result).1)
      (settle state returned result).2 := by
  cases result with
  | error failure => exact h
  | ok after => exact hafter after rfl

/-- Whatever is called, the documents behind the boundary stay what the ledger says. -/
theorem Documented.perform (h : Documented ledger state) (call : Call) :
    Documented (ledger.after call (perform state call).1) (perform state call).2 := by
  cases hstages : call.stages with
  | false =>
    rw [Ledger.after_of_not_stages hstages]
    intro name document hfind
    exact h name document ((keeps_perform state call).documents hstages name document hfind)
  | true =>
    cases call with
    | newDocument target name docId =>
      apply h.settle
      intro after hresult
      obtain ⟨nameText, hname, hresult⟩ := bind_eq_ok_iff.1 hresult
      obtain ⟨idText, hid, hresult⟩ := bind_eq_ok_iff.1 hresult
      obtain rfl := Except.ok.inj hresult
      exact h.putDocument ⟨spells_of_readText hname, spells_of_readText hid, rfl, .nil, .nil⟩
    | addChunk pointer text =>
      apply h.settle
      intro after hresult
      obtain ⟨name, document, changed, rfl, hfind, hchange, rfl⟩ :=
        changeDocument_eq_ok_iff.1 hresult
      obtain ⟨read, hread, hchange⟩ := bind_eq_ok_iff.1 hchange
      obtain rfl := Except.ok.inj hchange
      exact h.putDocument ((h name document hfind).addChunk (spells_of_readText hread))
    | setVersion pointer version =>
      apply h.settle
      intro after hresult
      obtain ⟨name, document, changed, rfl, hfind, hchange, rfl⟩ :=
        changeDocument_eq_ok_iff.1 hresult
      obtain rfl := Except.ok.inj hchange
      have hbefore := h name document hfind
      exact h.putDocument ⟨hbefore.name, hbefore.docId, rfl, hbefore.texts, hbefore.metadata⟩
    | setMetadata pointer index key value =>
      apply h.settle
      intro after hresult
      obtain ⟨name, document, changed, rfl, hfind, hchange, rfl⟩ :=
        changeDocument_eq_ok_iff.1 hresult
      obtain ⟨keyText, hkey, hchange⟩ := bind_eq_ok_iff.1 hchange
      obtain ⟨read, hread, hchange⟩ := bind_eq_ok_iff.1 hchange
      exact h.putDocument ((h name document hfind).setMetadata (spells_of_readText hkey)
        (isValue_of_read hread) hchange)
    | _ => exact absurd hstages (by simp [Call.stages])

end

end ChunkStore.Boundary
