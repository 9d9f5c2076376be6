import ChunkStore.Number.Numeral
import ChunkStore.Query.Expression
import ChunkStore.Text.Blank
import ChunkStore.Text.Scan

/-!
# Reading queries

Every text is a query.  What does not fit the grammar is taken as words or left out:

* an expression is a row of items with blanks around them, and ends where an item takes nothing;
* an item is an optional `AND` or `OR`, an optional sign, a leaf and an optional boost `^2.5`;
* a leaf is an expression in parentheses, `*`, `NOT` before a leaf, or a literal;
* a literal is an optional field name with a colon and then an expression in parentheses, `*` alone,
  a range, a set, a quoted phrase or a word.

A closing parenthesis, bracket or quote may be missing.  `fuel` bounds the nesting; three steps for
each character of the text are enough.
-/

set_option autoImplicit false

namespace ChunkStore.Query

open ChunkStore.Text (after? isBlank isSpace)

/-- Drops the blanks at the front. -/
def skipBlanks (text : List Char) : List Char :=
  text.dropWhile isBlank

/-- Splits off a word: characters that are neither white space nor one of `stops`, where a backslash
takes the character after it with it. -/
def splitWord (stops : List Char) : List Char → List Char × List Char
  | [] => ([], [])
  | '\\' :: c :: rest =>
    let (word, left) := splitWord stops rest
    ('\\' :: c :: word, left)
  | c :: rest =>
    if isSpace c || stops.contains c then ([], c :: rest)
    else
      let (word, left) := splitWord stops rest
      (c :: word, left)

/-- Splits off a word after blanks; without a word nothing is taken. -/
def splitWord? (stops : List Char) (text : List Char) : Option String × List Char :=
  match splitWord stops (skipBlanks text) with
  | ([], _) => (none, text)
  | (word, rest) => (some (String.ofList word), rest)

/-- Splits off a text up to a closing quote, which may be missing; a backslash takes the character
after it as it is. -/
def splitQuoted (quote : Char) : List Char → List Char × List Char
  | [] => ([], [])
  | '\\' :: c :: rest =>
    let (inside, left) := splitQuoted quote rest
    (c :: inside, left)
  | c :: rest =>
    if c = quote then ([], rest)
    else
      let (inside, left) := splitQuoted quote rest
      (c :: inside, left)

/-- The characters that a field name has only behind a backslash. -/
def specialChars : List Char :=
  ['+', '^', '\x60', ':', '\x7b', '\x7d', '\"', '\'', '[', ']', '(', ')', '!', '\\', '*', ' ']

/-- The rest of a field name up to its colon. -/
def splitNameRest? : List Char → Option (List Char × List Char)
  | [] => none
  | ':' :: rest => some ([], rest)
  | '\\' :: c :: rest =>
    if specialChars.contains c then
      (splitNameRest? rest).map fun (name, left) => (c :: name, left)
    else (splitNameRest? (c :: rest)).map fun (name, left) => ('\\' :: name, left)
  | c :: rest =>
    if c ≠ '\\' ∧ specialChars.contains c then none
    else (splitNameRest? rest).map fun (name, left) => (c :: name, left)
termination_by text => text.length

/-- Splits off a field name with its colon; a name has at least one character and starts with no
minus sign. -/
def splitName? (text : List Char) : Option (String × List Char) :=
  let found : Option (List Char × List Char) :=
    match text with
    | '\\' :: c :: rest =>
      if specialChars.contains c then
        (splitNameRest? rest).map fun (name, left) => (c :: name, left)
      else none
    | c :: rest =>
      if c = '-' ∨ specialChars.contains c then none
      else (splitNameRest? rest).map fun (name, left) => (c :: name, left)
    | [] => none
  found.map fun (name, left) => (String.ofList name, left)

/-- Splits off the digits at the front. -/
def splitDigits (text : List Char) : List Char × List Char :=
  text.span Numeral.isDigit

/-- What follows a quoted phrase: `*` leaves its end open, `~` and a number of 32 bits allow its
words to be moved. -/
def splitSlop (text : List Char) : Nat × Bool × List Char :=
  match text with
  | '*' :: rest => (0, true, rest)
  | '~' :: rest =>
    let (row, left) := splitDigits rest
    if row.isEmpty || UInt32.size ≤ Numeral.ofDigits row then (0, false, text)
    else (Numeral.ofDigits row, false, left)
  | _ => (0, false, text)

/-- Splits off a boost, if there is one. -/
def splitBoost (text : List Char) : Option Factor × List Char :=
  match text with
  | '^' :: rest =>
    let (whole, left) := splitDigits rest
    if whole.isEmpty then (none, text)
    else
      match left with
      | '.' :: behind =>
        let (fraction, left') := splitDigits behind
        if fraction.isEmpty then (some ⟨Numeral.ofDigits whole, 0⟩, left)
        else (some ⟨Numeral.ofDigits (whole ++ fraction), fraction.length⟩, left')
      | _ => (some ⟨Numeral.ofDigits whole, 0⟩, left)
  | _ => (none, text)

/-! ### Literals -/

/-- The bound of a word: `*` or no word is an open end. -/
def boundOf (bound : String → Bound) : Option String → Bound
  | none => .open
  | some word => if word = "*" then .open else bound word

/-- The range on one side of a word. -/
def splitOneSided (text : List Char) (isLower : Bool) (bound : String → Bound) :
    Literal × List Char :=
  let (word, rest) := splitWord? [')', '^'] text
  if isLower then (.range (boundOf bound word) .open, rest)
  else (.range .open (boundOf bound word), rest)

/-- The range between two words, after its opening bracket. -/
def splitTwoSided (lowerBound : String → Bound) (text : List Char) : Literal × List Char :=
  let stops := [']', '\x7d']
  let (lower, rest) := splitWord? stops (skipBlanks text)
  let rest := skipBlanks rest
  let (hasTo, rest) : Bool × List Char :=
    match rest with
    | ['T', 'O'] => (true, [])
    | 'T' :: 'O' :: c :: behind => if isBlank c then (true, skipBlanks behind) else (false, rest)
    | _ => (false, rest)
  let lower := if lower = some "TO" ∧ !hasTo then none else lower
  let (upper, rest) := splitWord? stops rest
  let (upperBound, rest) : (String → Bound) × List Char :=
    match rest with
    | ']' :: behind => (Bound.inclusive, behind)
    | '\x7d' :: behind => (Bound.exclusive, behind)
    | _ => (Bound.inclusive, rest)
  (.range (boundOf lowerBound lower) (boundOf upperBound upper), rest)

/-- Splits off a range. -/
def splitRange? : List Char → Option (Literal × List Char)
  | '>' :: '=' :: rest => some (splitOneSided rest true .inclusive)
  | '<' :: '=' :: rest => some (splitOneSided rest false .inclusive)
  | '>' :: rest => some (splitOneSided rest true .exclusive)
  | '<' :: rest => some (splitOneSided rest false .exclusive)
  | '[' :: rest => some (splitTwoSided .inclusive rest)
  | '\x7b' :: rest => some (splitTwoSided .exclusive rest)
  | _ => none

/-- Splits off the elements of a set up to its closing bracket, which may be missing. -/
def splitElements : Nat → List Char → List String × List Char
  | 0, text => ([], text)
  | fuel + 1, text =>
    match text with
    | [] => ([], [])
    | ']' :: rest => ([], rest)
    | '\"' :: rest =>
      let (inside, left) := splitQuoted '\"' rest
      let (elements, left) := splitElements fuel (skipBlanks left)
      (String.ofList inside :: elements, left)
    | '\'' :: rest =>
      let (inside, left) := splitQuoted '\'' rest
      let (elements, left) := splitElements fuel (skipBlanks left)
      (String.ofList inside :: elements, left)
    | text =>
      match splitWord? [']'] text with
      | (none, _) =>
        if text.head?.any isBlank then splitElements fuel (skipBlanks text) else ([], text)
      | (some word, left) =>
        let (elements, left) := splitElements fuel (skipBlanks left)
        (word :: elements, left)

/-- Splits off a set. -/
def splitSet? (text : List Char) : Option (Literal × List Char) := do
  let rest ← after? ['I', 'N'] text
  let rest ← after? ['['] (skipBlanks rest)
  let (elements, left) := splitElements (rest.length + 2) rest
  return (.set elements, left)

/-- Splits off a quoted phrase. -/
def splitPhrase? : List Char → Option (Literal × List Char)
  | c :: rest =>
    if c = '\"' ∨ c = '\'' then
      let (inside, left) := splitQuoted c rest
      let (slop, isOpenEnded, left) := splitSlop left
      some (.quoted (String.ofList inside) slop isOpenEnded, left)
    else none
  | [] => none

/-- Splits off a literal behind its field name. -/
def splitLiteral? (text : List Char) : Option (Literal × List Char) :=
  (splitSet? text <|> splitRange? text <|> splitPhrase? text).or <|
    match splitWord? [')', '^'] text with
    | (some word, rest) => some (.word word, rest)
    | (none, _) => none

/-- Whether a `*` behind a field name stands alone. -/
def standsAlone : List Char → Bool
  | [] => true
  | c :: _ =>
    isSpace c ||
      ['^', '\x60', ':', '\x7b', '\x7d', '\"', '\'', '[', ']', '(', ')', '\\'].contains c

/-! ### Expressions -/

/-- Splits off a connective with the blank behind it. -/
def splitConnective (text : List Char) : Option Connective × List Char :=
  match after? ['A', 'N', 'D', ' '] text with
  | some rest => (some .and, rest)
  | none =>
    match after? ['O', 'R', ' '] text with
    | some rest => (some .or, rest)
    | none => (none, text)

/-- Splits off a sign. -/
def splitSign : List Char → Option Sign × List Char
  | '+' :: rest => (some .must, rest)
  | '-' :: rest => (some .mustNot, rest)
  | text => (none, text)

/-- Drops a closing parenthesis, if there is one. -/
def skipClosing : List Char → List Char
  | ')' :: rest => rest
  | text => text

mutual

/-- Splits off an expression with the blanks around it. -/
def splitExpression : Nat → List Char → Expression × List Char
  | 0, text => (.clauses [], text)
  | fuel + 1, text =>
    let (items, rest) := splitItems fuel true (skipBlanks text)
    (Item.combine items, skipBlanks rest)

/-- Splits off items; each but the first has to take something. -/
def splitItems : Nat → Bool → List Char → List Item × List Char
  | 0, _, text => ([], text)
  | fuel + 1, isFirst, text =>
    let start := if isFirst then text else skipBlanks text
    let (connective, rest) := splitConnective start
    let (sign, rest) := splitSign (skipBlanks rest)
    let (leaf, rest) := splitLeaf fuel rest
    let (boost, rest) := splitBoost rest
    if !isFirst && rest.length = start.length then ([], text)
    else
      let item? := leaf.map fun e =>
        let boosted := match boost with
          | some factor => if factor.isOne then e else .boost factor e
          | none => e
        Item.mk connective sign boosted
      let (items, rest) := splitItems fuel false rest
      (item?.toList ++ items, rest)

/-- Splits off a leaf; without one only blanks and a field name are taken. -/
def splitLeaf : Nat → List Char → Option Expression × List Char
  | 0, text => (none, text)
  | fuel + 1, text =>
    match text with
    | '(' :: rest =>
      let (e, left) := splitExpression fuel rest
      (some e, skipClosing left)
    | '*' :: rest => (some .all, rest)
    | 'N' :: 'O' :: 'T' :: ' ' :: rest =>
      let (leaf, left) := splitLeaf fuel (skipBlanks rest)
      (leaf.map fun e => .clauses [(some .mustNot, e)], left)
    | text =>
      match splitName? text with
      | some (name, behind) =>
        let behind := skipBlanks behind
        match behind with
        | '(' :: rest =>
          let (e, left) := splitExpression fuel (skipBlanks rest)
          (some (e.inField name), skipClosing left)
        | _ =>
          let alone? : Option (List Char) :=
            match behind with
            | '*' :: rest => if standsAlone rest then some rest else none
            | _ => none
          match alone? with
          | some rest => (some .nothing, rest)
          | none =>
            match splitLiteral? behind with
            | some (l, rest) => (some (.literal (some name) l), rest)
            | none => (none, behind)
      | none =>
        let behind := skipBlanks text
        match splitLiteral? behind with
        | some (l, rest) => (some (.literal none l), rest)
        | none => (none, behind)

end

/-- Replaces each clause without a sign that is a list of one clause by that clause. -/
def flattenTop : Expression → Expression
  | .clauses list => .clauses (list.map fun
    | (none, .clauses [clause]) => clause
    | clause => clause)
  | e => e

/-- What a query text says; a blank text has no clauses. -/
def parse (text : String) : Expression :=
  let chars := text.toList
  if chars.all isSpace then .clauses []
  else flattenTop (splitExpression (3 * chars.length + 6) chars).1

end ChunkStore.Query
