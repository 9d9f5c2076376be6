import ChunkStore.Config.Value
import ChunkStore.Settings

/-!
# Typed values from configuration values

Each function takes a value and gives what it stands for, or the mismatch.  Whole numbers stand for
floats as well, but floats never for whole numbers.  A record may be given as a table or as an array
of its fields in their order; other keys and further items are passed over, and fields that are not
given keep their defaults.
-/

set_option autoImplicit false

namespace ChunkStore.Config

/-- Why a value is not of a type: another kind of value, or a number outside the range. -/
inductive Mismatch where
  | kind (found expected : String)
  | range (found expected : String)
deriving DecidableEq

namespace Mismatch

/-- The message of a mismatch. -/
def message : Mismatch → String
  | .kind found expected => "invalid type: found " ++ found ++ ", expected " ++ expected
  | .range found expected => "invalid value " ++ found ++ ", expected " ++ expected

end Mismatch

namespace Value

/-- A truth value. -/
def asBool : Value → Except Mismatch Bool
  | .bool b => .ok b
  | other => .error (.kind other.description "a boolean")

/-- A whole number from `low` up to `high`, under the name of its type. -/
def asInteger (name : String) (low high : Int) (value : Value) : Except Mismatch Int :=
  let within (n : Int) : Except Mismatch Int :=
    if low ≤ n ∧ n ≤ high then .ok n else .error (.range value.description name)
  match value with
  | .signed n => within n.toInt
  | .unsigned n => within n.toNat
  | other => .error (.kind other.description name)

/-- A signed integer of 64 bits. -/
def asInt64 (value : Value) : Except Mismatch Int64 :=
  (value.asInteger "i64" (-0x8000000000000000) 0x7fffffffffffffff).map Int64.ofInt

/-- An unsigned integer of 32 bits. -/
def asUInt32 (value : Value) : Except Mismatch UInt32 :=
  (value.asInteger "u32" 0 0xffffffff).map fun n => UInt32.ofNat n.toNat

/-- A size: an unsigned integer of 64 bits. -/
def asSize (value : Value) : Except Mismatch UInt64 :=
  (value.asInteger "usize" 0 0xffffffffffffffff).map fun n => UInt64.ofNat n.toNat

/-- A float, also one that is given as a whole number. -/
def asFloat : Value → Except Mismatch Binary64
  | .float x => .ok x
  | .signed n => .ok (.ofInt n.toInt)
  | .unsigned n => .ok (.ofNat n.toNat)
  | other => .error (.kind other.description "f64")

/-- A string. -/
def asText : Value → Except Mismatch String
  | .text s => .ok s
  | other => .error (.kind other.description "a string")

/-- A list of strings. -/
def asTexts : Value → Except Mismatch (List String)
  | .array items => items.mapM asText
  | other => .error (.kind other.description "a sequence")

/-- The fields of a record that are given, in the order in which they are read. -/
def asRecord (name : String) (fields : List String) :
    Value → Except Mismatch (List (String × Value))
  | .table entries => .ok (entries.filter fun entry => fields.contains entry.1)
  | .array items => .ok (fields.zip items)
  | other => .error (.kind other.description name)

/-- The settings of an index. -/
def asSettings (value : Value) : Except Mismatch Settings := do
  let given ← value.asRecord "struct EngineConfig" Settings.fieldNames
  given.foldlM (fun settings (name, value) =>
    match name with
    | "writer_memory_bytes" => return { settings with writerMemoryBytes := ← value.asSize }
    | "writer_threads" => return { settings with writerThreads := ← value.asSize }
    | "stop_words" => return { settings with stopWords := ← value.asTexts }
    | _ => return settings) Settings.default

end Value

end ChunkStore.Config
