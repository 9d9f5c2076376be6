import ChunkStore.Dict
import ChunkStore.Failure
import ChunkStore.Number.Binary64

/-!
# Metadata values

A typed value.  Reading a value as another kind than its own is a failure, and two values compare
exactly if they have one kind and neither is a NaN (`compare?_isSome_iff`).
-/

set_option autoImplicit false

namespace ChunkStore.Metadata

/-- A metadata value. -/
inductive Value where
  | bool (b : Bool)
  | int (n : Int64)
  | float (x : Binary64)
  | str (s : String)
deriving DecidableEq

namespace Value

/-- The kind of a value. -/
def kind : Value → Kind
  | .bool _ => .bool
  | .int _ => .int
  | .float _ => .float
  | .str _ => .str

/-- The truth value, of a value of that kind. -/
def asBool : Value → Except Failure Bool
  | .bool b => .ok b
  | other => .error (.typeMismatch .bool other.kind)

/-- The integer, of a value of that kind. -/
def asInt : Value → Except Failure Int64
  | .int n => .ok n
  | other => .error (.typeMismatch .int other.kind)

/-- The float, of a value of that kind. -/
def asFloat : Value → Except Failure Binary64
  | .float x => .ok x
  | other => .error (.typeMismatch .float other.kind)

/-- The string, of a value of that kind. -/
def asStr : Value → Except Failure String
  | .str s => .ok s
  | other => .error (.typeMismatch .str other.kind)

/-- The order of two values of one kind: false before true, numbers by size, strings by code points.
-/
def compare? : Value → Value → Option Ordering
  | .bool a, .bool b => some (compare a b)
  | .int a, .int b => some (compare a.toInt b.toInt)
  | .float a, .float b => a.compare? b
  | .str a, .str b => some (compare a b)
  | _, _ => none

/-- Equality as numbers see it: a NaN differs from itself, and the zeros are equal. -/
def equals : Value → Value → Bool
  | .float a, .float b => a.equals b
  | a, b => a == b

/-- Whether a value is a float that stands for no number. -/
def isNaN : Value → Bool
  | .float x => x.isNaN
  | _ => false

theorem compare?_isSome_iff (a b : Value) :
    (a.compare? b).isSome = true ↔ a.kind = b.kind ∧ a.isNaN = false ∧ b.isNaN = false := by
  cases a <;> cases b <;> simp [compare?, kind, isNaN]
  next x y =>
    unfold Binary64.compare?
    cases x.isNaN <;> cases y.isNaN <;> simp

end Value

end ChunkStore.Metadata

namespace ChunkStore

/-- The metadata of a chunk: a value for each of its keys. -/
abbrev Metadata : Type :=
  Dict String Metadata.Value

end ChunkStore
