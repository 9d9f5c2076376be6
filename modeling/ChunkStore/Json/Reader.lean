import ChunkStore.Json.Escape

/-!
# Reading JSON texts

A text is one value with blanks around it and nothing else.  Numbers have no leading zeros and at
least one digit after a point and in an exponent.  `fuel` bounds the number of values in each other,
so the length of the text is enough of it.
-/

set_option autoImplicit false

namespace ChunkStore.Json

/-- Drops the blanks at the front. -/
def skipBlanks (text : List Char) : List Char :=
  text.dropWhile isBlank

/-- Splits off the digits at the front. -/
def splitDigits (text : List Char) : List Char × List Char :=
  text.span Numeral.isDigit

/-- Splits off digits, of which there has to be one. -/
def splitDigits? (text : List Char) : Option (List Char × List Char) :=
  let (row, rest) := splitDigits text
  if row.isEmpty then none else some (row, rest)

/-- Splits off the digits after a point, if there is a point. -/
def splitFraction? : List Char → Option (List Char × List Char)
  | '.' :: rest => splitDigits? rest
  | text => some ([], text)

/-- Splits off an exponent, if there is one. -/
def splitExponent? : List Char → Option (Option (Bool × List Char) × List Char)
  | c :: rest =>
    if c = 'e' ∨ c = 'E' then
      let (down, rest) : Bool × List Char :=
        match rest with
        | '+' :: rest => (false, rest)
        | '-' :: rest => (true, rest)
        | _ => (false, rest)
      (splitDigits? rest).map fun (row, rest) => (some (down, row), rest)
    else some (none, c :: rest)
  | [] => some (none, [])

/-- Splits off a number that starts with a digit. -/
def splitUnsigned? (negative : Bool) (text : List Char) : Option (Number × List Char) := do
  let (whole, rest) ← splitDigits? text
  if whole.length ≠ 1 ∧ whole.head? = some '0' then none
  let (fraction, rest) ← splitFraction? rest
  let (exponent, rest) ← splitExponent? rest
  return (⟨negative, whole, fraction, exponent⟩, rest)

/-- Splits off a number. -/
def splitNumber? : List Char → Option (Number × List Char)
  | '-' :: rest => splitUnsigned? true rest
  | text => splitUnsigned? false text

mutual

/-- Splits off a value, after blanks. -/
def splitValue? : Nat → List Char → Option (Json × List Char)
  | 0, _ => none
  | fuel + 1, text =>
    match skipBlanks text with
    | 'n' :: 'u' :: 'l' :: 'l' :: rest => some (.null, rest)
    | 't' :: 'r' :: 'u' :: 'e' :: rest => some (.bool true, rest)
    | 'f' :: 'a' :: 'l' :: 's' :: 'e' :: rest => some (.bool false, rest)
    | '\"' :: rest => (splitLexeme? rest).map fun (lexeme, rest) => (.string lexeme, rest)
    | '[' :: rest =>
      match skipBlanks rest with
      | ']' :: rest => some (.array [], rest)
      | rest => (splitItems? fuel rest).map fun (items, rest) => (.array items, rest)
    | '\x7b' :: rest =>
      match skipBlanks rest with
      | '\x7d' :: rest => some (.object [], rest)
      | rest => (splitFields? fuel rest).map fun (fields, rest) => (.object fields, rest)
    | text => (splitNumber? text).map fun (n, rest) => (.number n, rest)

/-- Splits off the items of an array that is not empty, up to the closing bracket. -/
def splitItems? : Nat → List Char → Option (List Json × List Char)
  | 0, _ => none
  | fuel + 1, text => do
    let (item, rest) ← splitValue? fuel text
    match skipBlanks rest with
    | ']' :: rest => some ([item], rest)
    | ',' :: rest => (splitItems? fuel rest).map fun (items, rest) => (item :: items, rest)
    | _ => none

/-- Splits off the fields of an object that is not empty, up to the closing brace. -/
def splitFields? : Nat → List Char → Option (List (List Char × Json) × List Char)
  | 0, _ => none
  | fuel + 1, text =>
    match skipBlanks text with
    | '\"' :: rest => do
      let (key, rest) ← splitLexeme? rest
      match skipBlanks rest with
      | ':' :: rest =>
        let (value, rest) ← splitValue? fuel rest
        match skipBlanks rest with
        | '\x7d' :: rest => some ([(key, value)], rest)
        | ',' :: rest =>
          (splitFields? fuel rest).map fun (fields, rest) => ((key, value) :: fields, rest)
        | _ => none
      | _ => none
    | _ => none

end

/-- The tree of a text. -/
def ofChars? (text : List Char) : Option Json := do
  let (json, rest) ← splitValue? (text.length + 1) text
  if skipBlanks rest = [] then some json else none

/-- The tree of a text. -/
def ofString? (text : String) : Option Json :=
  ofChars? text.toList

end ChunkStore.Json
