/-!
# Kinds of metadata values

A metadata value is a truth value, an integer, a float or a string.
-/

set_option autoImplicit false

namespace ChunkStore.Metadata

/-- The kind of a metadata value. -/
inductive Kind where
  | bool
  | int
  | float
  | str
deriving DecidableEq, Repr

namespace Kind

/-- The name of a kind, in messages and in stored text. -/
def name : Kind → String
  | .bool => "bool"
  | .int => "int"
  | .float => "float"
  | .str => "str"

/-- The number of a kind at the C boundary. -/
def tag : Kind → Nat
  | .bool => 0
  | .int => 1
  | .float => 2
  | .str => 3

/-- The kind with a name. -/
def ofName? : String → Option Kind
  | "bool" => some .bool
  | "int" => some .int
  | "float" => some .float
  | "str" => some .str
  | _ => none

theorem ofName?_name (kind : Kind) : ofName? kind.name = some kind := by
  cases kind <;> decide

end Kind

end ChunkStore.Metadata
