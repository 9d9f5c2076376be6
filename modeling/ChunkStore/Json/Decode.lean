import ChunkStore.Dict
import ChunkStore.Json.Escape
import ChunkStore.Json.Number

/-!
# Typed values from JSON trees

Each function takes a tree and gives the value that it stands for, if it stands for one of that
type.  Integers have no fraction, exponent or negative zero; a float may be written as an integer.
A record is an object with its fields in any order, of which none may be repeated and others are
ignored, or an array of its fields in their order.
-/

set_option autoImplicit false

namespace ChunkStore.Json

variable {α : Type}

/-- The string that a lexeme stands for. -/
def lexemeText? (lexeme : List Char) : Option String :=
  (decode? lexeme).map String.ofList

/-- A truth value. -/
def asBool? : Json → Option Bool
  | .bool b => some b
  | _ => none

/-- A string. -/
def asText? : Json → Option String
  | .string lexeme => lexemeText? lexeme
  | _ => none

/-- A natural number below a limit. -/
def asNatural? (limit : Nat) : Json → Option Nat
  | .number n =>
    match n.read? with
    | some (.natural value) => if value < limit then some value else none
    | _ => none
  | _ => none

/-- An unsigned integer of 64 bits. -/
def asUInt64? (json : Json) : Option UInt64 :=
  (json.asNatural? UInt64.size).map UInt64.ofNat

/-- An unsigned integer of 32 bits. -/
def asUInt32? (json : Json) : Option UInt32 :=
  (json.asNatural? UInt32.size).map UInt32.ofNat

/-- A signed integer of 64 bits. -/
def asInt64? : Json → Option Int64
  | .number n =>
    match n.read? with
    | some (.natural value) => if value < 0x8000000000000000 then some (Int64.ofInt value) else none
    | some (.negative value) => some (Int64.ofInt (-(value : Int)))
    | _ => none
  | _ => none

/-- A float, also one that is written as an integer. -/
def asFloat? : Json → Option Binary64
  | .number n =>
    match n.read? with
    | some (.natural value) => some (.ofNat value)
    | some (.negative value) => some (.ofInt (-(value : Int)))
    | some (.float x) => some x
    | none => none
  | _ => none

/-- A list of values of one type. -/
def asList? (decode : Json → Option α) : Json → Option (List α)
  | .array items => items.mapM decode
  | _ => none

/-- A map whose keys are read from their lexemes; of the values of one key the last stays. -/
def asDict? {κ : Type} [Ord κ] [Std.TransOrd κ] [Std.LawfulEqOrd κ]
    (decodeKey : List Char → Option κ) (decode : Json → Option α) : Json → Option (Dict κ α)
  | .object fields =>
    (fields.mapM fun (lexeme, value) => do
      return (← decodeKey lexeme, ← decode value)).map Dict.ofList
  | _ => none

/-- Adds one field of an object to the fields of a record found so far. -/
def addField? (found : List (String × Json)) (names : List String) (field : List Char × Json) :
    Option (List (String × Json)) := do
  let name ← lexemeText? field.1
  if !names.contains name then some found
  else if (found.lookup name).isSome then none
  else some ((name, field.2) :: found)

/-- The fields of a record by their names. -/
def asRecord? (names : List String) : Json → Option (List (String × Json))
  | .object fields => fields.foldlM (fun found field => addField? found names field) []
  | .array items => if items.length ≤ names.length then some (names.zip items) else none
  | _ => none

end ChunkStore.Json
