import ChunkStore.Dict
import ChunkStore.Number.Shortest
import ChunkStore.Text.Shown
import ChunkStore.Text.Split

/-!
# Configuration values

A configuration is a table of values, some of which are tables again.  Tables are merged key by key,
and anything else is replaced by what comes later.  A dotted key leads through tables; an empty part
at its front ends it, and other empty parts are passed over.
-/

set_option autoImplicit false

namespace ChunkStore.Config

/-- A configuration value.  Whole numbers remember whether they were read with a sign. -/
inductive Value where
  | bool (b : Bool)
  | signed (n : Int64)
  | unsigned (n : UInt64)
  | float (x : Binary64)
  | text (s : String)
  | array (items : List Value)
  | table (entries : List (String × Value))

/-- Values by their keys, in the order of the keys. -/
abbrev Table : Type :=
  List (String × Value)

namespace Value

mutual

/-- What holds of an older and a newer value at one key. -/
def merge (older : Value) : Value → Value
  | .table newer =>
    match older with
    | .table older => .table (mergeTables older newer)
    | _ => .table newer
  | newer => newer

/-- The older table with the entries of the newer one. -/
def mergeTables (older : List (String × Value)) : List (String × Value) → List (String × Value)
  | [] => older
  | (key, value) :: rest =>
    let merged := match Entries.find? key older with
      | some before => merge before value
      | none => value
    mergeTables (Entries.insert key merged older) rest

end

/-- The value that a row of keys leads to. -/
def find? (value : Value) : List String → Option Value
  | [] => some value
  | key :: rest =>
    match value with
    | .table entries => (Entries.find? key entries).bind (find? · rest)
    | _ => none

/-- The value at the end of a row of keys in otherwise empty tables. -/
def nested (value : Value) : List String → Value
  | [] => value
  | key :: rest => .table [(key, nested value rest)]

/-- What a message calls a value. -/
def description : Value → String
  | .bool b => if b then "bool true" else "bool false"
  | .signed n => "signed int \x60" ++ Numeral.signedText n.toInt ++ "\x60"
  | .unsigned n => "unsigned int \x60" ++ Numeral.text n.toNat ++ "\x60"
  | .float x => "float \x60" ++ x.positionalText ++ "\x60"
  | .text s => "string " ++ Text.shown s
  | .array _ => "sequence"
  | .table _ => "map"

end Value

/-- The keys that a dotted key consists of. -/
def keysOf (key : String) : List String :=
  match Text.split '.' key.toList with
  | [] :: _ => []
  | parts => (parts.filter fun part => !part.isEmpty).map String.ofList

end ChunkStore.Config
