import ChunkStore.Config.Value

/-!
# Tables of a TOML document

The tables of a document are put together from headers and entries.  A table may be given once: by
its own header, by dotted keys, or as a value.  A table that only came about on the way to another
one may still get its header.  Headers of arrays of tables add one table each, and later headers
lead into the last one.
-/

set_option autoImplicit false

namespace ChunkStore.Config.Toml

/-- How a table came about: by its header, on the way to another header, or by dotted keys. -/
inductive Origin where
  | header
  | implied
  | dotted
deriving DecidableEq

/-- What stands at a key while a document is read. -/
inductive Node where
  | value (value : Value)
  | table (origin : Origin) (entries : List (String × Node))
  | tables (items : List (List (String × Node)))

/-- A change of a table with a given origin, unless the document may not change it so. -/
abbrev Change : Type :=
  Origin → List (String × Node) → Option (Origin × List (String × Node))

/-- Changes the table that a row of keys leads to.  Tables on the way are made with the origin
`made`; dotted keys do not lead into tables that have a header. -/
def changeAt (made : Origin) (change : Change) : List String → Change
  | [], origin, entries => change origin entries
  | key :: rest, origin, entries =>
    match Entries.find? key entries with
    | none => do
      let (o, inner) ← changeAt made change rest made []
      return (origin, Entries.insert key (.table o inner) entries)
    | some (.table o inner) =>
      if made = .dotted ∧ o = .header then none
      else do
        let (o, inner) ← changeAt made change rest o inner
        return (origin, Entries.insert key (.table o inner) entries)
    | some (.tables items) => do
      let (_, inner) ← changeAt made change rest .header (items.getLast?.getD [])
      return (origin, Entries.insert key (.tables (items.dropLast ++ [inner])) entries)
    | some (.value _) => none

/-- Puts a value at a new key.  A dotted key needs a table made by dotted keys, another key one that
is not. -/
def putValue (isDotted : Bool) (key : String) (value : Value) : Change := fun origin entries =>
  if isDotted ≠ (origin = .dotted : Bool) then none
  else
    match Entries.find? key entries with
    | none => some (origin, Entries.insert key (.value value) entries)
    | some _ => none

/-- Puts a value at a row of keys below a table. -/
def putEntry (keys : List String) (key : String) (value : Value) : Change :=
  changeAt .dotted (putValue (!keys.isEmpty) key value) keys

/-- Gives a table its header. -/
def openTable (key : String) : Change := fun origin entries =>
  match Entries.find? key entries with
  | none => some (origin, Entries.insert key (.table .header []) entries)
  | some (.table .implied inner) => some (origin, Entries.insert key (.table .header inner) entries)
  | _ => none

/-- Adds a table to an array of tables. -/
def addTable (key : String) : Change := fun origin entries =>
  match Entries.find? key entries with
  | none => some (origin, Entries.insert key (.tables [[]]) entries)
  | some (.tables items) => some (origin, Entries.insert key (.tables (items ++ [[]])) entries)
  | _ => none

mutual

/-- The value of a node. -/
def Node.toValue : Node → Value
  | .value value => value
  | .table _ entries => .table (entriesToValues entries)
  | .tables items => .array (tablesToValues items)

/-- The values of entries. -/
def entriesToValues : List (String × Node) → List (String × Value)
  | [] => []
  | (key, node) :: rest => (key, node.toValue) :: entriesToValues rest

/-- The values of the tables of an array. -/
def tablesToValues : List (List (String × Node)) → List Value
  | [] => []
  | entries :: rest => .table (entriesToValues entries) :: tablesToValues rest

end

end ChunkStore.Config.Toml
