import ChunkStore.Boundary.State

/-!
# Calls at the C boundary

Each call either succeeds, and then leaves the error slot alone, or it fails: then it gives its
no-result value and puts the message of the failure into the slot, if there is one.  `perform` is
what a call does, and `invoke` reports its failures; that a slot is missing changes nothing else.
-/

set_option autoImplicit false

namespace ChunkStore.Boundary

/-- A metadata value as an argument. -/
inductive RawValue where
  | bool (b : Bool)
  | int (n : Int64)
  | float (x : Binary64)
  | text (raw : RawText)

/-- The value of an argument. -/
def RawValue.read (name : String) : RawValue → Except Failure Metadata.Value
  | .bool b => .ok (.bool b)
  | .int n => .ok (.int n)
  | .float x => .ok (.float x)
  | .text raw => (readText name raw).map .str

/-- A field of a result. -/
inductive ResultField where
  | id
  | text
  | document
  | docId
  | version
  | score

/-- A field of a listed source. -/
inductive SourceField where
  | document
  | docId
  | version

/-- A call. -/
inductive Call where
  | openDatabase (target : String) (path : RawText)
  | closeDatabase (database : Pointer)
  | insert (database document : Pointer)
  | query (target : String) (database : Pointer) (text : RawText) (topK : Nat)
      (constraints : Pointer)
  | save (database : Pointer) (path : RawText)
  | delete (database : Pointer) (docId : RawText) (keepLatest : Bool)
  | listSources (target : String) (database : Pointer)
  | newDocument (target : String) (name docId : RawText)
  | addChunk (document : Pointer) (text : RawText)
  | setVersion (document : Pointer) (version : UInt32)
  | setMetadata (document : Pointer) (index : Nat) (key : RawText) (value : RawValue)
  | documentSize (document : Pointer)
  | freeDocument (document : Pointer)
  | newConstraints (target : String)
  | addConstraint (constraints : Pointer) (key : RawText) (operator : Int) (value : RawValue)
  | freeConstraints (constraints : Pointer)
  | resultsSize (results : Pointer)
  | resultField (results : Pointer) (index : Nat) (field : ResultField)
  | resultMetadata (target : String) (results : Pointer) (index : Nat)
  | freeResults (results : Pointer)
  | metadataSize (list : Pointer)
  | metadataKey (list : Pointer) (index : Nat)
  | metadataKind (list : Pointer) (index : Nat)
  | metadataValue (list : Pointer) (index : Nat) (kind : Metadata.Kind)
  | freeMetadata (list : Pointer)
  | listingSize (listing : Pointer)
  | sourceField (listing : Pointer) (index : Nat) (field : SourceField)
  | freeListing (listing : Pointer)

/-- What a call gives back. -/
inductive Returned where
  | nothing
  | null
  | handle
  | bool (b : Bool)
  | number (n : Int)
  | score (x : Binary32)
  | float (x : Binary64)
  | text (s : String)
deriving DecidableEq

/-- What a call gives back when it fails. -/
def Call.noResult : Call → Returned
  | .openDatabase .. | .query .. | .listSources .. | .newDocument .. | .resultMetadata .. => .null
  | .insert .. | .save .. | .delete .. | .addChunk .. | .setVersion .. | .setMetadata ..
  | .addConstraint .. => .bool false
  | .resultField _ _ field =>
    match field with
    | .id | .version => .number 0
    | .text | .document | .docId => .null
    | .score => .score ⟨0x7FC00000⟩
  | .metadataKey .. => .null
  | .metadataKind .. => .number (-1)
  | .metadataValue _ _ kind =>
    match kind with
    | .bool => .bool false
    | .int => .number 0
    | .float => .float .nan
    | .str => .null
  | .sourceField _ _ field =>
    match field with
    | .document | .docId => .null
    | .version => .number 0
  | .documentSize .. | .resultsSize .. | .metadataSize .. | .listingSize .. => .number 0
  | .newConstraints .. => .null
  | .closeDatabase .. | .freeDocument .. | .freeConstraints .. | .freeResults .. | .freeMetadata ..
  | .freeListing .. => .nothing

/-! ### Collections that are handed out -/

/-- Results whose texts can all be handed out. -/
def checkResults (results : Results) : Except Failure Results := do
  results.hits.forM fun hit => do
    let _ ← writeText "chunk text" hit.chunk.text
    let _ ← writeText "document name" hit.chunk.document
    let _ ← writeText "document id" hit.chunk.docId
  return results

/-- Metadata whose texts can all be handed out. -/
def checkMetadata (metadata : Metadata) : Except Failure Metadata := do
  metadata.toList.forM fun (key, value) => do
    match value with
    | .str s =>
      let _ ← writeText "metadata value" s
    | _ => pure ()
    let _ ← writeText "metadata key" key
  return metadata

/-- A listing whose texts can all be handed out. -/
def checkListing (listing : List Source) : Except Failure (List Source) := do
  listing.forM fun source => do
    let _ ← writeText "document name" source.document
    let _ ← writeText "document id" source.docId
  return listing

/-- A field of a result as it is handed out. -/
def ResultField.read (hit : Hit) : ResultField → Returned
  | .id => .number hit.chunk.id.toNat
  | .text => .text hit.chunk.text
  | .document => .text hit.chunk.document
  | .docId => .text hit.chunk.docId
  | .version => .number hit.chunk.version.toNat
  | .score => .score hit.score

/-- A field of a source as it is handed out. -/
def SourceField.read (source : Source) : SourceField → Returned
  | .document => .text source.document
  | .docId => .text source.docId
  | .version => .number source.version.toNat

/-- The metadata value of a kind as it is handed out. -/
def readValue (value : Metadata.Value) : Metadata.Kind → Except Failure Returned
  | .bool => value.asBool.map .bool
  | .int => value.asInt.map fun n => .number n.toInt
  | .float => value.asFloat.map .float
  | .str => value.asStr.map .text

/-- The member of a collection at an index. -/
def member {α : Type} (list : List α) (index : Nat) : Except Failure α :=
  match list[index]? with
  | some found => .ok found
  | none => .error (.indexOutOfRange index list.length)

/-- The entry of a metadata list at an index. -/
def metadataEntry (state : State) (list : Pointer) (index : Nat) :
    Except Failure (String × Metadata.Value) := do
  let (_, metadata) ← object "metadata list" list state.metadataLists
  member metadata.toList index

/-- The number of members of a collection; null has none. -/
def sizeOf {α : Type} (pointer : Pointer) (objects : Dict String α) (size : α → Nat) : Returned :=
  .number (((lookUp pointer objects).map size).getD 0)

/-! ### Calls -/

/-- Changes a document and puts it back. -/
def changeDocument (state : State) (pointer : Pointer)
    (change : Document → Except Failure Document) : Except Failure State := do
  let (name, document) ← state.document pointer
  return state.putDocument name (← change document)

/-- Inserts a document, which is empty from then on. -/
def insertDocument (state : State) (database document : Pointer) : Except Failure Unit × State :=
  match state.database database with
  | .error failure => (.error failure, state)
  | .ok (name, engine) =>
    match state.document document with
    | .error failure => (.error failure, state)
    | .ok (docName, staged) =>
      let taken := { state with documents := state.documents.insert docName none }
      let (result, after) := Database.insert staged (engine, taken.disk)
      (result, taken.putEngine name after)

/-- Queries a database for results that can be handed out. -/
def queryDatabase (state : State) (database : Pointer) (text : RawText) (topK : Nat)
    (constraints : Pointer) : Except Failure Results := do
  let (_, engine) ← state.database database
  let text ← readText "query" text
  let constraints := (lookUp constraints state.constraintSets).getD .empty
  checkResults (← (Database.query text topK constraints (engine, state.disk)).1)

/-- The state after a change that may fail, with what the call gives back. -/
def settle (state : State) (returned : Returned) :
    Except Failure State → Except Failure Returned × State
  | .ok after => (.ok returned, after)
  | .error failure => (.error failure, state)

/-- What a call does. -/
def perform (state : State) : Call → Except Failure Returned × State
  | .openDatabase target path =>
    match readText "path" path with
    | .error failure => (.error failure, state)
    | .ok path =>
      match Database.open path state.environment state.disk with
      | (.error failure, disk) => (.error failure, { state with disk })
      | (.ok engine, disk) => (.ok .handle, { state with disk }.installDatabase target engine)
  | .closeDatabase database =>
    match state.database database with
    | .error _ => (.ok .nothing, state)
    | .ok (name, engine) =>
      (.ok .nothing,
        { state with disk := engine.close state.disk, databases := state.databases.erase name })
  | .insert database document =>
    let (result, state) := insertDocument state database document
    (result.map fun _ => .bool true, state)
  | .query target database text topK constraints =>
    settle state .handle do
      let results ← queryDatabase state database text topK constraints
      return { state with results := state.results.insert target results }
  | .save database path =>
    match state.database database, readText "path" path with
    | .error failure, _ => (.error failure, state)
    | .ok _, .error failure => (.error failure, state)
    | .ok (name, engine), .ok path =>
      let (result, after) := Database.save path (engine, state.disk)
      (result.map fun _ => .bool true, state.putEngine name after)
  | .delete database docId keepLatest =>
    match state.database database, readText "doc_id" docId with
    | .error failure, _ => (.error failure, state)
    | .ok _, .error failure => (.error failure, state)
    | .ok (name, engine), .ok docId =>
      let (result, after) := Database.delete docId keepLatest (engine, state.disk)
      (result.map fun _ => .bool true, state.putEngine name after)
  | .listSources target database =>
    settle state .handle do
      let (_, engine) ← state.database database
      let listing ← checkListing (← (Database.sources (engine, state.disk)).1)
      return { state with listings := state.listings.insert target listing }
  | .newDocument target name docId =>
    settle state .handle do
      let name ← readText "document" name
      let docId ← readText "doc_id" docId
      return state.putDocument target (.new name docId)
  | .addChunk document text =>
    settle state (.bool true) (changeDocument state document fun document => do
      return document.addChunk (← readText "chunk text" text))
  | .setVersion document version =>
    settle state (.bool true) (changeDocument state document fun document =>
      return document.setVersion version)
  | .setMetadata document index key value =>
    settle state (.bool true) (changeDocument state document fun document => do
      let key ← readText "metadata key" key
      document.setMetadata index key (← value.read "metadata value"))
  | .documentSize document =>
    (.ok (sizeOf document state.documents fun staged => (staged.map Document.size).getD 0), state)
  | .freeDocument document =>
    (.ok .nothing, { state with documents := releaseFrom document state.documents })
  | .newConstraints target =>
    (.ok .handle, { state with constraintSets := state.constraintSets.insert target .empty })
  | .addConstraint constraints key operator value =>
    settle state (.bool true) do
      let (name, set) ← object "constraints" constraints state.constraintSets
      let key ← readText "constraint key" key
      let operator ← match Metadata.Operator.ofCode? operator with
        | some operator => pure operator
        | none =>
          throw (.invalidArgument ("unknown constraint operator " ++ Numeral.signedText operator))
      let value ← value.read "constraint value"
      return { state with
        constraintSets := state.constraintSets.insert name (set.insert key ⟨operator, value⟩) }
  | .freeConstraints constraints =>
    (.ok .nothing, { state with constraintSets := releaseFrom constraints state.constraintSets })
  | .resultsSize results => (.ok (sizeOf results state.results Results.size), state)
  | .resultField results index field =>
    (do
      let (_, found) ← object "query results" results state.results
      return field.read (← found.get index), state)
  | .resultMetadata target results index =>
    settle state .handle do
      let (_, found) ← object "query results" results state.results
      let metadata ← checkMetadata (← found.metadataOf index)
      return { state with metadataLists := state.metadataLists.insert target metadata }
  | .freeResults results =>
    (.ok .nothing, { state with results := releaseFrom results state.results })
  | .metadataSize list => (.ok (sizeOf list state.metadataLists Dict.size), state)
  | .metadataKey list index =>
    ((metadataEntry state list index).map fun entry => .text entry.1, state)
  | .metadataKind list index =>
    ((metadataEntry state list index).map fun entry => .number entry.2.kind.tag, state)
  | .metadataValue list index kind =>
    ((metadataEntry state list index).bind fun entry => readValue entry.2 kind, state)
  | .freeMetadata list =>
    (.ok .nothing, { state with metadataLists := releaseFrom list state.metadataLists })
  | .listingSize listing => (.ok (sizeOf listing state.listings List.length), state)
  | .sourceField listing index field =>
    (do
      let (_, found) ← object "sources" listing state.listings
      return field.read (← member found index), state)
  | .freeListing listing =>
    (.ok .nothing, { state with listings := releaseFrom listing state.listings })

/-- The error slot of a call: a null pointer, or what the slot holds. -/
abbrev Slot : Type :=
  Option (Option String)

/-- Makes a call and reports its failure. -/
def invoke (state : State) (slot : Slot) (call : Call) : Returned × Slot × State :=
  match perform state call with
  | (.ok returned, after) => (returned, slot, after)
  | (.error failure, after) => (call.noResult, slot.map fun _ => some (errorText failure), after)

/-- Inserts a document into the index at a path without the boundary, so that its texts may have
null characters. -/
def insertDirectly (state : State) (path : String) (document : Document) :
    Except Failure Unit × State :=
  match Database.open path state.environment state.disk with
  | (.error failure, disk) => (.error failure, { state with disk })
  | (.ok engine, disk) =>
    let (result, engine, disk) := Database.insert document (engine, disk)
    (result, { state with disk := engine.close disk })

end ChunkStore.Boundary
