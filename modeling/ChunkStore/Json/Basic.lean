import ChunkStore.Number.Numeral

/-!
# JSON trees

The tree of a JSON text.  Strings and numbers are kept as they are written: a reader that ignores a
part of a text needs it to be well formed only, and decides what a string or a number means only
where it uses it.  Objects keep all their fields in the order of the text, repeated keys included.
-/

set_option autoImplicit false

namespace ChunkStore

/-- A number as it is written: digits before the point, digits after it (none if there is no point)
and the sign and digits of the exponent. -/
structure Json.Number where
  negative : Bool
  whole : List Char
  fraction : List Char
  exponent : Option (Bool × List Char)
deriving DecidableEq, Repr

/-- The tree of a JSON text.  Strings are the characters between the quotes, with their escapes. -/
inductive Json where
  | null
  | bool (b : Bool)
  | number (n : Json.Number)
  | string (lexeme : List Char)
  | array (items : List Json)
  | object (fields : List (List Char × Json))
deriving Repr

namespace Json

/-- Whether a character is a blank between the parts of a text. -/
def isBlank (c : Char) : Bool :=
  c = ' ' || c = '\t' || c = '\n' || c = '\r'

/-- The number of a natural number. -/
def Number.ofNat (n : Nat) : Number :=
  ⟨false, Numeral.digits n, [], none⟩

/-- The number of an integer. -/
def Number.ofInt (n : Int) : Number :=
  ⟨n < 0, Numeral.digits n.natAbs, [], none⟩

end Json

end ChunkStore
