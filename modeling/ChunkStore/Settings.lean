import ChunkStore.Json.Decode

/-!
# Settings of an index

The memory and threads of the writer and the words that are not indexed.
-/

set_option autoImplicit false

namespace ChunkStore

/-- How an index is written and which words it leaves out. -/
structure Settings where
  writerMemoryBytes : UInt64
  writerThreads : UInt64
  stopWords : List String
deriving DecidableEq

/-- Why settings cannot be used. -/
inductive SettingsFault where
  | noThreads
  | tooLittleMemory (memory threads : UInt64)
deriving DecidableEq

namespace Settings

/-- The least memory for each thread of the writer. -/
def leastMemoryPerThread : Nat :=
  15000000

/-- The words that are left out unless others are given. -/
def defaultStopWords : List String := [
  "a", "an", "and", "are", "as", "at", "be", "by", "for", "from", "has", "he", "in", "is", "it",
  "its", "of", "on", "that", "the", "to", "was", "will", "with", "or", "but", "not", "this",
  "these", "they", "them", "their", "there", "then", "than", "so", "if", "when", "where", "why",
  "how", "what", "which", "who", "whom", "whose", "can", "could", "should", "would", "may",
  "might", "must", "shall", "do", "does", "did", "have", "had", "having"]

/-- The settings that hold where none are given. -/
def default : Settings :=
  ⟨50000000, 1, defaultStopWords⟩

instance : Inhabited Settings := ⟨default⟩

/-- Refuses settings without a thread or with too little memory for each. -/
def validate (settings : Settings) : Except SettingsFault Unit :=
  if settings.writerThreads = 0 then .error .noThreads
  else if settings.writerMemoryBytes.toNat / settings.writerThreads.toNat <
      leastMemoryPerThread then
    .error (.tooLittleMemory settings.writerMemoryBytes settings.writerThreads)
  else .ok ()

/-- The names of the fields, in their order. -/
def fieldNames : List String :=
  ["writer_memory_bytes", "writer_threads", "stop_words"]

/-- The settings that a tree stands for; fields that are not there have their default. -/
def ofJson? (json : Json) : Option Settings := do
  let fields ← json.asRecord? fieldNames
  let field {α : Type} (name : String) (decode : Json → Option α) (otherwise : α) : Option α :=
    match fields.lookup name with
    | some value => decode value
    | none => some otherwise
  return {
    writerMemoryBytes := ← field "writer_memory_bytes" Json.asUInt64? default.writerMemoryBytes
    writerThreads := ← field "writer_threads" Json.asUInt64? default.writerThreads
    stopWords := ← field "stop_words" (Json.asList? Json.asText?) default.stopWords }

end Settings

namespace SettingsFault

/-- The message of a fault. -/
def message : SettingsFault → String
  | .noThreads => "engine.writer_threads must be at least 1"
  | .tooLittleMemory memory threads =>
    "engine.writer_memory_bytes must allow " ++ Numeral.text Settings.leastMemoryPerThread ++
      " bytes per writer thread, got " ++ Numeral.text memory.toNat ++ " for " ++
      Numeral.text threads.toNat ++ " threads"

end SettingsFault

end ChunkStore
