import ChunkStore.Chunk.Json
import ChunkStore.Proofs.Index.Schemas
import ChunkStore.Proofs.Json.Floats

/-!
# Chunks come back from their public texts, nearly

The public text of a chunk has its floats as numbers.  A float that is no real number has none, and
a text with one in it is refused.  Everything else comes back, and all of it but the other floats as
it was: they come back nearly as they were (`Json.Number.ComesBackAs`).  The entries of the metadata
may stand in any order.
-/

set_option autoImplicit false

namespace ChunkStore

/-- Applying a function to the values is seen by what is found. -/
theorem Dict.find?_map {κ α β : Type} [Ord κ] (f : α → β) (dict : Dict κ α) (key : κ) :
    (dict.map f).find? key = (dict.find? key).map f := by
  obtain ⟨entries, hascending⟩ := dict
  show Entries.find? key (entries.map fun entry => (entry.1, f entry.2)) =
    (Entries.find? key entries).map f
  clear hascending
  induction entries with
  | nil => rfl
  | cons entry rest ih =>
    obtain ⟨k, x⟩ := entry
    simp only [List.map_cons, Entries.find?]
    split
    · rfl
    · exact ih

namespace Metadata

theorem write_public_of_isFinite {x : Binary64} (h : x.isFinite = true) :
    FloatForm.public.write x = .number (.ofFloat x) :=
  if_pos h

namespace Value

/-- Whether a value is no float that stands for no real number. -/
def isReal : Value → Bool
  | .float x => x.isFinite
  | _ => true

/-- What a value comes back as: itself, but a float as a float that is nearly the same. -/
inductive ComesBackAs : Value → Value → Prop
  | bool (b : Bool) : ComesBackAs (.bool b) (.bool b)
  | int (n : Int64) : ComesBackAs (.int n) (.int n)
  | float {x y : Binary64} (h : Json.Number.ComesBackAs x y) : ComesBackAs (.float x) (.float y)
  | str (s : String) : ComesBackAs (.str s) (.str s)

/-- The value that a public text stands for. -/
def ofText? (text : String) : Option Value :=
  (Json.ofString? text).bind (ofJson? .public)

theorem isWritten_toJson_public (value : Value) : (value.toJson .public).IsWritten := by
  apply isWritten_toJson
  intro x _
  show (Json.ofFloat x).IsWritten
  unfold Json.ofFloat
  split
  · next hfinite =>
    by_cases hx : x.magnitude = 0
    · exact .number (Json.Number.isWrittenFor_ofFloat_zero hx).isWritten
    · exact .number (Json.Number.isWrittenFor_ofFloat hx hfinite).isWritten
  · exact .null

/-- A value without NaNs and infinities comes back from its tree. -/
theorem exists_ofJson?_of_isReal {value : Value} (h : value.isReal = true) :
    ∃ value', ofJson? .public (value.toJson .public) = some value' ∧ ComesBackAs value value' := by
  rw [ofJson?_toJson_eq]
  cases value with
  | bool b => exact ⟨_, rfl, .bool b⟩
  | int n => exact ⟨.int n, by simp [contentJson, kind, ofContent?, Json.asInt64?_ofInt], .int n⟩
  | float x =>
    obtain ⟨y, hread, hback⟩ := Json.Number.exists_read?_ofFloat (x := x) h
    refine ⟨.float y, ?_, .float hback⟩
    have hfloat : FloatForm.public.read? (.number (.ofFloat x)) = some y := by
      change Json.asFloat? (.number (.ofFloat x)) = some y
      simp only [Json.asFloat?, hread]
    show (FloatForm.public.read? (FloatForm.public.write x)).map Value.float = _
    rw [write_public_of_isFinite h, hfloat, Option.map_some]
  | str s => exact ⟨.str s, by simp [contentJson, kind, ofContent?, Json.asText?_ofText], .str s⟩

theorem ofJson?_of_not_isReal {value : Value} (h : value.isReal = false) :
    ofJson? .public (value.toJson .public) = none := by
  rw [ofJson?_toJson_eq]
  cases value with
  | float x =>
    have hwrite : FloatForm.public.write x = .null := if_neg (by simpa [isReal] using h)
    show (FloatForm.public.read? (FloatForm.public.write x)).map Value.float = _
    rw [hwrite]
    rfl
  | _ => exact absurd h (by simp [isReal])

/-- What a value without NaNs and infinities comes back as. -/
def readBack (value : Value) : Value :=
  (ofJson? .public (value.toJson .public)).getD value

theorem ofJson?_eq_readBack {value : Value} (h : value.isReal = true) :
    ofJson? .public (value.toJson .public) = some value.readBack ∧
      ComesBackAs value value.readBack := by
  obtain ⟨value', hread, hback⟩ := exists_ofJson?_of_isReal h
  unfold readBack
  rw [hread]
  exact ⟨rfl, hback⟩

/-- A value comes back from its public text nearly as it was, unless it is a NaN or an infinity. -/
theorem ofText?_render (value : Value) :
    ofText? (value.toJson .public).render =
      if value.isReal then some value.readBack else none := by
  unfold ofText?
  rw [Json.ofString?_render value.isWritten_toJson_public, Option.bind_some]
  split
  · next h => exact (ofJson?_eq_readBack h).1
  · next h => exact ofJson?_of_not_isReal (Bool.eq_false_iff.2 h)

end Value

/-- Whether no value is a NaN or an infinity. -/
def isReal (metadata : Metadata) : Bool :=
  metadata.toList.all fun entry => entry.2.isReal

/-- Metadata with the same keys, of which every value is what the one before comes back as. -/
def ComesBackAs (metadata metadata' : Metadata) : Prop :=
  ∀ key, Option.Rel Value.ComesBackAs (metadata.find? key) (metadata'.find? key)

/-- The tree of metadata with its entries in a given order. -/
def entriesJson (entries : List (String × Value)) : Json :=
  Json.ofFields (entries.map fun (key, value) => (key, value.toJson .public))

variable {metadata : Metadata} {entries : List (String × Value)}

theorem isWritten_entriesJson (entries : List (String × Value)) :
    (entriesJson entries).IsWritten := by
  apply Json.isWritten_ofFields
  intro field hfield
  obtain ⟨⟨key, value⟩, -, rfl⟩ := List.mem_map.1 hfield
  exact value.isWritten_toJson_public

theorem comesBackAs_map (h : metadata.isReal = true) :
    ComesBackAs metadata (metadata.map Value.readBack) := by
  intro key
  rw [Dict.find?_map]
  cases hfind : metadata.find? key with
  | none => exact .none
  | some value =>
    have hreal := List.all_eq_true.1 h (key, value) (Dict.mem_toList.2 hfind)
    exact .some (Value.ofJson?_eq_readBack hreal).2

/-- Metadata without NaNs and infinities comes back from its entries in any order. -/
theorem ofJson?_entriesJson_of_isReal (hentries : entries.Perm metadata.toList)
    (h : metadata.isReal = true) :
    ofJson? .public (entriesJson entries) = some (metadata.map Value.readBack) := by
  have hvalue : ∀ entry ∈ entries,
      Value.ofJson? .public (entry.2.toJson .public) = some entry.2.readBack :=
    fun entry hentry =>
      (Value.ofJson?_eq_readBack (List.all_eq_true.1 h entry (hentries.mem_iff.1 hentry))).1
  have hread := Json.asDict?_ofEntries (fun key : String => key)
    (fun value : Value => value.toJson .public) Value.readBack
    (fun entry _ => Json.lexemeText?_encode entry.1) hvalue
  have hkeys : ((entries.map fun entry => (entry.1, entry.2.readBack)).map Prod.fst).Nodup := by
    rw [List.map_map]
    exact ((hentries.map Prod.fst).nodup_iff).2 metadata.keys_nodup
  have hsame : Dict.ofList (entries.map fun entry => (entry.1, entry.2.readBack)) =
      metadata.map Value.readBack :=
    (Dict.ofList_eq_of_perm (hentries.map _) hkeys).trans
      (Dict.ofList_toList (metadata.map Value.readBack))
  rw [← hsame]
  exact hread

theorem ofJson?_entriesJson_of_not_isReal (hentries : entries.Perm metadata.toList)
    (h : metadata.isReal = false) : ofJson? .public (entriesJson entries) = none := by
  obtain ⟨entry, hentry, hvalue⟩ := List.all_eq_false.1 h
  exact Json.asDict?_ofEntries_eq_none (fun key : String => key)
    (fun value : Value => value.toJson .public) (hentries.mem_iff.2 hentry)
    (Value.ofJson?_of_not_isReal (Bool.eq_false_iff.2 hvalue))

end Metadata

namespace Chunk

/-- The tree of a chunk with a given tree of its metadata. -/
def publicJson (chunk : Chunk) (metadata : Json) : Json :=
  Json.ofFields [
    ("id", Json.ofNat chunk.id.toNat),
    ("text", Json.ofText chunk.text),
    ("document", Json.ofText chunk.document),
    ("doc_id", Json.ofText chunk.docId),
    ("doc_version", Json.ofNat chunk.version.toNat),
    ("metadata", metadata)]

/-- The public texts of a chunk: the entries of its metadata come in any order. -/
def IsWrittenAs (chunk : Chunk) (text : String) : Prop :=
  ∃ entries : List (String × Metadata.Value), entries.Perm chunk.metadata.toList ∧
    text = (chunk.publicJson (Metadata.entriesJson entries)).render

theorem isWrittenAs_render_toJson (chunk : Chunk) : chunk.IsWrittenAs chunk.toJson.render :=
  ⟨chunk.metadata.toList, .refl _, rfl⟩

/-- The chunk that a public text stands for. -/
def ofText? (text : String) : Option Chunk :=
  (Json.ofString? text).bind ofJson?

/-- What a chunk comes back as: itself, but for the floats in its metadata. -/
structure ComesBackAs (chunk chunk' : Chunk) : Prop where
  id : chunk'.id = chunk.id
  text : chunk'.text = chunk.text
  document : chunk'.document = chunk.document
  docId : chunk'.docId = chunk.docId
  version : chunk'.version = chunk.version
  metadata : chunk.metadata.ComesBackAs chunk'.metadata

variable {chunk : Chunk} {text : String}

theorem ofJson?_publicJson (chunk : Chunk) (metadata : Json) :
    ofJson? (chunk.publicJson metadata) =
      (Metadata.ofJson? .public metadata).map fun metadata => { chunk with metadata } := by
  have hfields : (chunk.publicJson metadata).asRecord?
      ["id", "text", "document", "doc_id", "doc_version", "metadata"] =
      some [("metadata", metadata), ("doc_version", Json.ofNat chunk.version.toNat),
        ("doc_id", Json.ofText chunk.docId), ("document", Json.ofText chunk.document),
        ("text", Json.ofText chunk.text), ("id", Json.ofNat chunk.id.toNat)] :=
    Json.asRecord?_ofFields _ rfl (by decide)
  cases hmetadata : Metadata.ofJson? .public metadata <;>
    simp [ofJson?, hfields, List.lookup, Json.asText?_ofText, Json.asUInt64?_ofNat,
      Json.asUInt32?_ofNat, hmetadata]

theorem isWritten_publicJson (chunk : Chunk) {metadata : Json} (h : metadata.IsWritten) :
    (chunk.publicJson metadata).IsWritten := by
  apply Json.isWritten_ofFields
  simp only [List.forall_mem_cons]
  exact ⟨Json.isWritten_ofNat _, Json.isWritten_ofText _, Json.isWritten_ofText _,
    Json.isWritten_ofText _, Json.isWritten_ofNat _, h, by simp⟩

/-- What a chunk without NaNs and infinities in its metadata comes back as. -/
def readBack (chunk : Chunk) : Chunk :=
  { chunk with metadata := chunk.metadata.map Metadata.Value.readBack }

/-- A chunk comes back from each of its public texts nearly as it was, unless its metadata has a NaN
or an infinity. -/
theorem ofText?_of_isWrittenAs (h : chunk.IsWrittenAs text) :
    ofText? text = if chunk.metadata.isReal then some chunk.readBack else none := by
  obtain ⟨entries, hentries, rfl⟩ := h
  have hwritten := chunk.isWritten_publicJson (Metadata.isWritten_entriesJson entries)
  unfold ofText?
  rw [Json.ofString?_render hwritten, Option.bind_some, ofJson?_publicJson]
  split
  · next hreal =>
    rw [Metadata.ofJson?_entriesJson_of_isReal hentries hreal, Option.map_some]
    rfl
  · next hreal =>
    rw [Metadata.ofJson?_entriesJson_of_not_isReal hentries (Bool.eq_false_iff.2 hreal),
      Option.map_none]

theorem comesBackAs_readBack (h : chunk.metadata.isReal = true) :
    chunk.ComesBackAs chunk.readBack :=
  ⟨rfl, rfl, rfl, rfl, rfl, Metadata.comesBackAs_map h⟩

end Chunk

/-- A chunk is read from its public texts exactly if its metadata has no NaN and no infinity, and a
value from its text exactly if it is none.  What is read is the chunk or the value itself, but for
floats that have many digits or a large exponent, which may come back up to two patterns away. -/
theorem public_texts_keep_all_but_long_floats {chunk : Chunk} {text : String}
    (h : chunk.IsWrittenAs text) (value : Metadata.Value) :
    ((Chunk.ofText? text).isSome = chunk.metadata.isReal ∧
      ∀ chunk', Chunk.ofText? text = some chunk' → chunk.ComesBackAs chunk') ∧
    (Metadata.Value.ofText? (value.toJson .public).render).isSome = value.isReal ∧
      ∀ value', Metadata.Value.ofText? (value.toJson .public).render = some value' →
        value.ComesBackAs value' := by
  rw [Chunk.ofText?_of_isWrittenAs h, Metadata.Value.ofText?_render]
  refine ⟨⟨?_, fun chunk' hread => ?_⟩, ?_, fun value' hread => ?_⟩
  · cases chunk.metadata.isReal <;> rfl
  · split at hread
    · next hreal =>
      obtain rfl := Option.some.inj hread
      exact Chunk.comesBackAs_readBack hreal
    · exact absurd hread (Option.some_ne_none _).symm
  · cases value.isReal <;> rfl
  · split at hread
    · next hreal =>
      obtain rfl := Option.some.inj hread
      exact (Metadata.Value.ofJson?_eq_readBack hreal).2
    · exact absurd hread (Option.some_ne_none _).symm

/-- A chunk with a float of many digits and a negative zero. -/
def measuredChunk : Chunk where
  id := 7
  text := "alpha"
  document := "one.txt"
  docId := "one"
  version := 1
  metadata := Dict.ofList
    [("offset", .float ⟨0x8000000000000000⟩), ("width", .float ⟨0x431a219967a8a874⟩)]

theorem measuredChunk_comes_back :
    measuredChunk.IsWrittenAs measuredChunk.toJson.render ∧
      ∃ chunk', Chunk.ofText? measuredChunk.toJson.render = some chunk' ∧
        measuredChunk.ComesBackAs chunk' := by
  have hwritten := measuredChunk.isWrittenAs_render_toJson
  obtain ⟨⟨hreal, hback⟩, -⟩ := public_texts_keep_all_but_long_floats hwritten (.bool true)
  obtain ⟨chunk', hread⟩ := Option.isSome_iff_exists.1 (hreal.trans (by decide))
  exact ⟨hwritten, chunk', hread, hback chunk' hread⟩

/-- A float of many digits does not come back as it was. -/
theorem long_float_comes_back_changed :
    ((Metadata.Value.float ⟨0x431a219967a8a874⟩).toJson .public).render =
        "\x7b\"type\":\"float\",\"value\":1838823036824093.0\x7d" ∧
      Metadata.Value.ofText? "\x7b\"type\":\"float\",\"value\":1838823036824093.0\x7d" =
        some (.float ⟨0x431a219967a8a873⟩) := by
  constructor
  · have hshort : Decimal.shortest .toEven ⟨0x431a219967a8a874⟩ = ⟨1838823036824093, 0⟩ := by
      decide +kernel
    have hrow : Decimal.row ⟨1838823036824093, 0⟩ = "1838823036824093".toList := by
      simp [Decimal.row, Numeral.digits]
      decide
    have hleading : Decimal.leading ⟨1838823036824093, 0⟩ = 15 := by
      unfold Decimal.leading
      rw [hrow]
      decide
    have hpositional : Decimal.positional ⟨1838823036824093, 0⟩ =
        ("1838823036824093".toList, []) := by
      unfold Decimal.positional
      rw [hleading, hrow]
      decide
    have hnumber : Json.Number.ofFloat ⟨0x431a219967a8a874⟩ =
        ⟨false, "1838823036824093".toList, ['0'], none⟩ := by
      rw [Json.Number.ofFloat_eq, hshort, hleading, if_pos (by decide), Json.Number.ofPositional,
        hpositional]
      decide
    have hfinite : Binary64.isFinite ⟨0x431a219967a8a874⟩ = true := by decide
    show (Json.ofFields [("type", Json.ofText "float"),
      ("value", Metadata.FloatForm.public.write ⟨0x431a219967a8a874⟩)]).render = _
    rw [Metadata.write_public_of_isFinite hfinite, hnumber]
    decide
  · decide +kernel

end ChunkStore
