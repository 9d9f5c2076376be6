import ChunkStore.Json.Escape
import ChunkStore.Json.Number

/-!
# Writing JSON texts

Trees are written without blanks.  `ofText` and `ofFloat` make the leaves; a float that is no real
number is written `null`.
-/

set_option autoImplicit false

namespace ChunkStore.Json

/-- The leaf of a string. -/
def ofText (text : String) : Json :=
  .string (encode text.toList)

/-- The leaf of a float. -/
def ofFloat (x : Binary64) : Json :=
  if x.isFinite then .number (.ofFloat x) else .null

/-- The leaf of a natural number. -/
def ofNat (n : Nat) : Json :=
  .number (.ofNat n)

/-- The leaf of an integer. -/
def ofInt (n : Int) : Json :=
  .number (.ofInt n)

/-- An object with keys that need no escapes or are escaped here. -/
def ofFields (fields : List (String × Json)) : Json :=
  .object (fields.map fun (key, value) => (encode key.toList, value))

/-- The characters of a number. -/
def Number.toChars (n : Number) : List Char :=
  (if n.negative then ['-'] else []) ++ n.whole ++
    (if n.fraction.isEmpty then [] else '.' :: n.fraction) ++
    match n.exponent with
    | none => []
    | some (down, row) => ['e', if down then '-' else '+'] ++ row

mutual

/-- The text of a tree. -/
def toChars : Json → List Char
  | .null => ['n', 'u', 'l', 'l']
  | .bool true => ['t', 'r', 'u', 'e']
  | .bool false => ['f', 'a', 'l', 's', 'e']
  | .number n => n.toChars
  | .string lexeme => '\"' :: lexeme ++ ['\"']
  | .array items => '[' :: itemsToChars items ++ [']']
  | .object fields => '\x7b' :: fieldsToChars fields ++ ['\x7d']

/-- The text of items with commas between them. -/
def itemsToChars : List Json → List Char
  | [] => []
  | [item] => toChars item
  | item :: rest => toChars item ++ ',' :: itemsToChars rest

/-- The text of fields with commas between them. -/
def fieldsToChars : List (List Char × Json) → List Char
  | [] => []
  | [(key, value)] => '\"' :: key ++ '\"' :: ':' :: toChars value
  | (key, value) :: rest =>
    '\"' :: key ++ '\"' :: ':' :: toChars value ++ ',' :: fieldsToChars rest

end

/-- The text of a tree. -/
def render (json : Json) : String :=
  String.ofList json.toChars

end ChunkStore.Json
