import ChunkStore.Config.Toml.Scalar
import ChunkStore.Config.Toml.Tree

/-!
# Reading TOML documents

A document is a row of lines, each empty, a header or an entry, with a comment behind it or without.
`ofText?` gives its table, or `none` if it is malformed.  Arrays and tables inside values may be
nested fewer than eighty deep, and keys have fewer than eighty parts.
-/

set_option autoImplicit false

namespace ChunkStore.Config.Toml

/-- The nesting and the number of keys that are too many. -/
def depthLimit : Nat :=
  80

/-- Whether a character may stand in a key without quotes. -/
def isBareChar (c : Char) : Bool :=
  Numeral.isDigit c || ('a' ≤ c && c ≤ 'z') || ('A' ≤ c && c ≤ 'Z') || c = '_' || c = '-'

/-- Drops blanks. -/
def skipBlanks (text : List Char) : List Char :=
  text.dropWhile isBlank

/-- Splits off one part of a key. -/
def splitPart? (text : List Char) : Option (String × List Char) :=
  match splitLine? text with
  | some result => some result
  | none =>
    match text.span isBareChar with
    | ([], _) => none
    | (part, rest) => some (String.ofList part, rest)

/-- Splits off a key with the blanks around it. -/
def splitKey? : Nat → List Char → Option (List String × List Char)
  | 0, _ => none
  | fuel + 1, text => do
    let (part, rest) ← splitPart? (skipBlanks text)
    match skipBlanks rest with
    | '.' :: rest =>
      let (parts, rest) ← splitKey? fuel rest
      return (part :: parts, rest)
    | rest => return ([part], rest)

/-- Drops a comment. -/
def skipComment? (text : List Char) : Option (List Char) :=
  match text with
  | '#' :: rest =>
    let rest := rest.dropWhile fun c => !isControl c
    match rest, splitBreak? rest with
    | [], _ => some []
    | _, some _ => some rest
    | _, none => none
  | _ => some text

/-- Drops blanks, line breaks and comments. -/
def skipGaps? : Nat → List Char → Option (List Char)
  | 0, _ => none
  | fuel + 1, text =>
    match skipBlanks text with
    | '#' :: rest => (skipComment? ('#' :: rest)).bind (skipGaps? fuel)
    | rest =>
      match splitBreak? rest with
      | some behind => skipGaps? fuel behind
      | none => some rest

mutual

/-- Splits off a value. -/
def splitValue? : Nat → Nat → List Char → Option (Value × List Char)
  | 0, _, _ => none
  | fuel + 1, depth, text =>
    match text with
    | '[' :: rest =>
      if depthLimit ≤ depth + 1 then none
      else (splitItems? fuel (depth + 1) rest).map fun (items, left) => (Value.array items, left)
    | '\x7b' :: rest =>
      if depthLimit ≤ depth + 1 then none
      else
        match skipBlanks rest with
        | '\x7d' :: left => some (Value.table [], left)
        | rest =>
          (splitFields? fuel (depth + 1) [] rest).map fun (entries, left) =>
            (Value.table (entriesToValues entries), left)
    | c :: _ =>
      if c = '\"' || c = '\'' then
        (splitText? text).map fun (inside, left) => (Value.text inside, left)
      else splitWord? text
    | [] => none

/-- Splits off the items of an array up to its closing bracket. -/
def splitItems? : Nat → Nat → List Char → Option (List Value × List Char)
  | 0, _, _ => none
  | fuel + 1, depth, text => do
    let text ← skipGaps? (text.length + 1) text
    match text with
    | ']' :: rest => return ([], rest)
    | _ =>
      let (item, rest) ← splitValue? fuel depth text
      let rest ← skipGaps? (rest.length + 1) rest
      match rest with
      | ',' :: rest =>
        let (items, rest) ← splitItems? fuel depth rest
        return (item :: items, rest)
      | ']' :: rest => return ([item], rest)
      | _ => none

/-- Splits off the fields of a table on one line up to its closing brace. -/
def splitFields? : Nat → Nat → List (String × Node) → List Char →
    Option (List (String × Node) × List Char)
  | 0, _, _, _ => none
  | fuel + 1, depth, found, text => do
    let (keys, rest) ← splitKey? (depthLimit - 1) text
    let rest ← Text.after? ['='] rest
    let (value, rest) ← splitValue? fuel depth (skipBlanks rest)
    let (_, found) ← putEntry keys.dropLast (keys.getLast?.getD "") value .header found
    match skipBlanks rest with
    | ',' :: rest => splitFields? fuel depth found rest
    | '\x7d' :: rest => return (found, rest)
    | _ => none

end

/-- What has been read of a document: its tables, and the keys of the table that entries go to. -/
structure Progress where
  entries : List (String × Node)
  current : List String

namespace Progress

/-- Makes a change at a row of keys. -/
def change? (progress : Progress) (keys : List String) (change : Change) : Option Progress :=
  (changeAt .implied change keys .header progress.entries).map fun (_, entries) =>
    { progress with entries }

/-- Adds an entry to the current table. -/
def addEntry? (progress : Progress) (keys : List String) (value : Value) : Option Progress :=
  progress.change? progress.current (putEntry keys.dropLast (keys.getLast?.getD "") value)

/-- Takes a header. -/
def addHeader? (progress : Progress) (keys : List String) (isArray : Bool) : Option Progress := do
  let key := keys.getLast?.getD ""
  let progress ← progress.change? keys.dropLast (if isArray then addTable key else openTable key)
  return { progress with current := keys }

end Progress

/-- Reads a line up to its comment. -/
def splitLineContent? (progress : Progress) (text : List Char) : Option (Progress × List Char) :=
  match text with
  | '[' :: '[' :: rest => do
    let (keys, rest) ← splitKey? (depthLimit - 1) rest
    let rest ← Text.after? [']', ']'] rest
    return (← progress.addHeader? keys true, rest)
  | '[' :: rest => do
    let (keys, rest) ← splitKey? (depthLimit - 1) rest
    let rest ← Text.after? [']'] rest
    return (← progress.addHeader? keys false, rest)
  | _ => do
    let (keys, rest) ← splitKey? (depthLimit - 1) text
    let rest ← Text.after? ['='] rest
    let (value, rest) ← splitValue? (2 * text.length + 2) 0 (skipBlanks rest)
    return (← progress.addEntry? keys value, rest)

/-- Reads all lines. -/
def readLines? : Nat → Progress → List Char → Option Progress
  | 0, _, _ => none
  | fuel + 1, progress, text => do
    let text ← skipGaps? (text.length + 1) text
    if text.isEmpty then return progress
    let (progress, rest) ← splitLineContent? progress text
    match ← skipComment? (skipBlanks rest) with
    | [] => return progress
    | rest => readLines? fuel progress (← splitBreak? rest)

/-- The table of a document; a byte order mark at its front is passed over. -/
def ofText? (text : String) : Option Table :=
  let chars := match text.toList with
    | '\ufeff' :: rest => rest
    | chars => chars
  (readLines? (chars.length + 1) ⟨[], []⟩ chars).map fun progress =>
    entriesToValues progress.entries

end ChunkStore.Config.Toml
