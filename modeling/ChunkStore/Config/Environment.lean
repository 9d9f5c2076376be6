import ChunkStore.Config.Toml.Scalar
import ChunkStore.Config.Value
import ChunkStore.Text.Blank
import ChunkStore.Text.Lowercase
import ChunkStore.Text.Scan

/-!
# Configuration from the environment

A variable whose name starts with `NDB_` gives a value: the rest of its name, in lower case, is a
dotted key in which two underscores stand for a dot.  Its text is read as a truth value, a number,
an array, a table or a quoted string if it is one from its first character to its last, and else
stands for itself.
-/

set_option autoImplicit false

namespace ChunkStore.Config

namespace Environment

/-- The white space of ASCII. -/
def isSpace (c : Char) : Bool :=
  c = ' ' || c = '\t' || c = '\n' || c = '\x0c' || c = '\r'

/-- Drops white space at the front. -/
def skipSpaces (text : List Char) : List Char :=
  text.dropWhile isSpace

/-- Drops characters of a class at both ends. -/
def trim (isDropped : Char → Bool) (text : List Char) : List Char :=
  ((text.dropWhile isDropped).reverse.dropWhile isDropped).reverse

/-- Whether a character may stand in a value without quotes. -/
def isPlain (c : Char) : Bool :=
  !(c = ',' || c = '\x7b' || c = '\x7d' || c = '[' || c = ']')

/-- Whether a character may stand in a key without quotes. -/
def isKeyChar (c : Char) : Bool :=
  ('a' ≤ c && c ≤ 'z') || ('A' ≤ c && c ≤ 'Z') || Numeral.isDigit c || c = '_' || c = '-'

/-- Splits off a string up to its closing quote. -/
def splitQuoted? (text : List Char) : Option (List Char × List Char) :=
  Toml.splitBasic? (text.length + 1) text

/-- A number without sign, or with a plus. -/
def natural? (text : List Char) : Option Nat :=
  let row := match text with
    | '+' :: rest => rest
    | _ => text
  if row.isEmpty || !row.all Numeral.isDigit then none else some (Numeral.ofDigits row)

/-- The digits, point and exponent of a float. -/
def float? (text : List Char) : Option Binary64 := do
  let (negative, row) := match text with
    | '-' :: rest => (true, rest)
    | '+' :: rest => (false, rest)
    | _ => (false, text)
  let (whole, rest) := row.span Numeral.isDigit
  let rest ← Text.after? ['.'] rest
  let (fraction, rest) := rest.span Numeral.isDigit
  if whole.isEmpty && fraction.isEmpty then none
  let exponent : Int ← match rest with
    | [] => some 0
    | c :: rest =>
      if c ≠ 'e' ∧ c ≠ 'E' then none
      else
        match rest with
        | '-' :: row => (natural? row).bind fun n =>
          if row.head? = some '+' then none else some (-(n : Int))
        | _ => (natural? rest).map fun n => (n : Int)
  return .ofDecimal negative (Numeral.ofDigits (whole ++ fraction)) (exponent - fraction.length)

/-- What a text without quotes and brackets stands for. -/
def plainValue (text : List Char) : Value :=
  let asFloat? := if text.contains '.' then float? text else none
  match asFloat? with
  | some x => .float x
  | none =>
    match natural? text with
    | some n =>
      if n < UInt64.size then .unsigned (UInt64.ofNat n) else .text (String.ofList text)
    | none =>
      match text with
      | '-' :: rest =>
        match natural? rest with
        | some n =>
          if n ≤ 0x8000000000000000 ∧ rest.head? ≠ some '+' then .signed (Int64.ofInt (-(n : Int)))
          else .text (String.ofList text)
        | none => .text (String.ofList text)
      | _ => .text (String.ofList text)

/-- Splits off a key. -/
def splitKey? (text : List Char) : Option (String × List Char) :=
  match text with
  | '\"' :: rest => (splitQuoted? rest).map fun (inside, left) => (String.ofList inside, left)
  | _ =>
    match text.span isKeyChar with
    | ([], _) => none
    | (key, rest) => some (String.ofList key, rest)

mutual

/-- Splits off a value with the white space around it. -/
def splitValue? : Nat → List Char → Option (Value × List Char)
  | 0, _ => none
  | fuel + 1, text => do
    let text := skipSpaces text
    let (value, rest) ← match Text.after? ['t', 'r', 'u', 'e'] text with
      | some rest => some (Value.bool true, rest)
      | none =>
        match Text.after? ['f', 'a', 'l', 's', 'e'] text with
        | some rest => some (Value.bool false, rest)
        | none =>
          match text with
          | '\x7b' :: rest =>
            (splitEntries? fuel [] rest).map fun (entries, left) => (Value.table entries, left)
          | '[' :: rest =>
            (splitItems? fuel rest).map fun (items, left) => (Value.array items, left)
          | '\"' :: rest =>
            (splitQuoted? rest).map fun (inside, left) => (Value.text (String.ofList inside), left)
          | '\'' :: c :: '\'' :: rest => some (Value.text (String.singleton c), rest)
          | '\'' :: _ => none
          | _ =>
            let (row, rest) := text.span isPlain
            some (plainValue (trim Text.isSpace row), rest)
    return (value, skipSpaces rest)

/-- Splits off the items of an array up to its closing bracket. -/
def splitItems? : Nat → List Char → Option (List Value × List Char)
  | 0, _ => none
  | fuel + 1, text =>
    match text with
    | ']' :: rest => some ([], rest)
    | _ => do
      let (item, rest) ← splitValue? fuel text
      match rest with
      | ',' :: rest =>
        let (items, rest) ← splitItems? fuel rest
        return (item :: items, rest)
      | ']' :: rest => return ([item], rest)
      | _ => none

/-- Splits off the entries of a table up to its closing brace. -/
def splitEntries? : Nat → Table → List Char → Option (Table × List Char)
  | 0, _, _ => none
  | fuel + 1, found, text =>
    match text with
    | '\x7d' :: rest => some (found, rest)
    | _ => do
      let (key, rest) ← splitKey? (skipSpaces text)
      let rest ← Text.after? ['='] (skipSpaces rest)
      let (value, rest) ← splitValue? fuel rest
      let found := Entries.insert key value found
      match rest with
      | ',' :: rest => splitEntries? fuel found rest
      | '\x7d' :: rest => return (found, rest)
      | _ => none

end

/-- What the text of a variable stands for. -/
def valueOf (text : String) : Value :=
  let chars := trim isSpace text.toList
  match splitValue? (2 * chars.length + 2) chars with
  | some (value, []) => value
  | _ => .text (String.ofList chars)

/-- Puts a dot in the place of two underscores. -/
def withDots : List Char → List Char
  | '_' :: '_' :: rest => '.' :: withDots rest
  | c :: rest => c :: withDots rest
  | [] => []

/-- A name in lower case, as far as it is ASCII. -/
def lowerAscii (text : List Char) : List Char :=
  text.map Char.toLower

/-- The keys that the name of a variable leads to, if it gives a value. -/
def keysOf? (name : String) : Option (List String) := do
  let rest ← Text.after? ['n', 'd', 'b', '_'] (lowerAscii name.toList)
  if rest = ['e', 'n', 'v'] ∨ rest = ['l', 'o', 'g'] then none
  let parts := Text.split '.' (withDots (trim Text.isSpace rest))
  if parts.head? = some [] ∨ parts.getLast? = some [] then none
  return (parts.filter fun part => !part.isEmpty).map String.ofList

/-- Adds what one variable gives. -/
def addVariable (table : Table) (named : String × String) : Table :=
  match keysOf? named.1 with
  | some (key :: keys) => Value.mergeTables table [(key, (valueOf named.2).nested keys)]
  | _ => table

/-- What an environment gives; of two names for one key the later in the order of names counts. -/
def table (named : List (String × String)) : Table :=
  (named.mergeSort fun a b => (compare a.1 b.1).isLE).foldl addVariable []

end Environment

end ChunkStore.Config
