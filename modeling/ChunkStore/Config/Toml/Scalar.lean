import ChunkStore.Config.Value
import ChunkStore.Text.Scan

/-!
# Scalars of TOML

Strings in their four notations, whole numbers, floats, truth values, and dates and times.  A date
or time is kept as a table with one text, its canonical notation.
-/

set_option autoImplicit false

namespace ChunkStore.Config.Toml

/-- Whether a character is a blank inside a line. -/
def isBlank (c : Char) : Bool :=
  c = ' ' || c = '\t'

/-- Whether a character may not stand in strings and comments. -/
def isControl (c : Char) : Bool :=
  (c.toNat < 32 && c ≠ '\t') || c = '\x7f'

/-- Splits off a line break. -/
def splitBreak? : List Char → Option (List Char)
  | '\n' :: rest => some rest
  | '\r' :: '\n' :: rest => some rest
  | _ => none

/-! ### Strings -/

/-- The value of a hexadecimal digit. -/
def hexValue? (c : Char) : Option Nat :=
  if '0' ≤ c ∧ c ≤ '9' then some (c.toNat - 48)
  else if 'a' ≤ c ∧ c ≤ 'f' then some (c.toNat - 87)
  else if 'A' ≤ c ∧ c ≤ 'F' then some (c.toNat - 55)
  else none

/-- The number that hexadecimal digits write. -/
def ofHex? (row : List Char) : Option Nat :=
  row.foldlM (fun n c => (hexValue? c).map (16 * n + ·)) 0

/-- The character that hexadecimal digits number. -/
def charOfHex? (row : List Char) : Option Char := do
  let n ← ofHex? row
  if n.isValidChar then some (Char.ofNat n) else none

/-- What a letter after a backslash stands for. -/
def escaped? : Char → Option Char
  | 'b' => some '\x08'
  | 't' => some '\t'
  | 'n' => some '\n'
  | 'f' => some '\x0c'
  | 'r' => some '\r'
  | '\"' => some '\"'
  | '\\' => some '\\'
  | _ => none

/-- Splits off what follows a backslash: one escaped character. -/
def splitEscape? : List Char → Option (Char × List Char)
  | 'u' :: a :: b :: c :: d :: rest => (charOfHex? [a, b, c, d]).map (·, rest)
  | 'U' :: a :: b :: c :: d :: e :: f :: g :: h :: rest =>
    (charOfHex? [a, b, c, d, e, f, g, h]).map (·, rest)
  | c :: rest => (escaped? c).map (·, rest)
  | [] => none

/-- Drops blanks and line breaks. -/
def skipWhite : List Char → List Char
  | '\r' :: '\n' :: rest => skipWhite rest
  | c :: rest => if isBlank c || c = '\n' then skipWhite rest else c :: rest
  | [] => []

/-- Splits off a string with escapes up to its closing quote. -/
def splitBasic? : Nat → List Char → Option (List Char × List Char)
  | 0, _ => none
  | fuel + 1, text =>
    match text with
    | [] => none
    | '\"' :: rest => some ([], rest)
    | '\\' :: rest => do
      let (c, rest) ← splitEscape? rest
      let (inside, left) ← splitBasic? fuel rest
      return (c :: inside, left)
    | c :: rest =>
      if isControl c then none
      else (splitBasic? fuel rest).map fun (inside, left) => (c :: inside, left)

/-- Splits off a string without escapes up to its closing quote. -/
def splitLiteral? : List Char → Option (List Char × List Char)
  | [] => none
  | '\'' :: rest => some ([], rest)
  | c :: rest =>
    if isControl c then none
    else (splitLiteral? rest).map fun (inside, left) => (c :: inside, left)

/-- Splits off three closing quotes with up to two quotes before them that belong to the string. -/
def splitClosing? (quote : Char) (text : List Char) : Option (List Char × List Char) :=
  let count := (text.takeWhile fun c => c = quote).length
  if count < 3 then none
  else
    let inside := min (count - 3) 2
    some (List.replicate inside quote, text.drop (inside + 3))

/-- Splits off a string of several lines up to its closing quotes; with escapes, a backslash at the
end of a line joins it to the next character that is no blank. -/
def splitLines? (quote : Char) (hasEscapes : Bool) :
    Nat → List Char → Option (List Char × List Char)
  | 0, _ => none
  | fuel + 1, text =>
    match splitClosing? quote text with
    | some result => some result
    | none =>
      match text with
      | [] => none
      | '\r' :: '\n' :: rest =>
        (splitLines? quote hasEscapes fuel rest).map fun (inside, left) => ('\n' :: inside, left)
      | c :: rest =>
        if c = '\\' && hasEscapes then
          match splitBreak? (rest.dropWhile isBlank) with
          | some behind => splitLines? quote hasEscapes fuel (skipWhite behind)
          | none => do
            let (c, rest) ← splitEscape? rest
            let (inside, left) ← splitLines? quote hasEscapes fuel rest
            return (c :: inside, left)
        else if isControl c && c ≠ '\n' then none
        else (splitLines? quote hasEscapes fuel rest).map fun (inside, left) => (c :: inside, left)

/-- Drops a line break at the front. -/
def skipBreak (text : List Char) : List Char :=
  (splitBreak? text).getD text

/-- Splits off a string on one line. -/
def splitLine? : List Char → Option (String × List Char)
  | '\"' :: rest =>
    (splitBasic? (rest.length + 1) rest).map fun (inside, left) => (String.ofList inside, left)
  | '\'' :: rest => (splitLiteral? rest).map fun (inside, left) => (String.ofList inside, left)
  | _ => none

/-- Splits off a string. -/
def splitText? (text : List Char) : Option (String × List Char) :=
  match text with
  | '\"' :: '\"' :: '\"' :: rest =>
    (splitLines? '\"' true (rest.length + 1) (skipBreak rest)).map fun (inside, left) =>
      (String.ofList inside, left)
  | '\'' :: '\'' :: '\'' :: rest =>
    (splitLines? '\'' false (rest.length + 1) (skipBreak rest)).map fun (inside, left) =>
      (String.ofList inside, left)
  | _ => splitLine? text

/-! ### Numbers -/

/-- Digits with single underscores between them, without the underscores. -/
def digitRow? (isDigit : Char → Bool) : List Char → Option (List Char)
  | [] => none
  | [c] => if isDigit c then some [c] else none
  | c :: '_' :: rest => if isDigit c then (digitRow? isDigit rest).map (c :: ·) else none
  | c :: rest => if isDigit c then (digitRow? isDigit rest).map (c :: ·) else none

/-- Digits without a leading zero. -/
def plainRow? (text : List Char) : Option (List Char) := do
  let row ← digitRow? Numeral.isDigit text
  match row with
  | '0' :: _ :: _ => none
  | _ => some row

/-- A whole number of 64 bits with a sign. -/
def signed? (negative : Bool) (n : Nat) : Option Value :=
  let value : Int := if negative then -(n : Int) else n
  if -0x8000000000000000 ≤ value ∧ value < 0x8000000000000000 then
    some (.signed (Int64.ofInt value))
  else none

/-- The number that digits below a base write. -/
def ofBase? (base : Nat) (text : List Char) : Option Value := do
  let isDigit (c : Char) : Bool := (hexValue? c).any (· < base)
  let row ← digitRow? isDigit text
  signed? false (row.foldl (fun n c => base * n + (hexValue? c).getD 0) 0)

/-- A sign at the front, true for a minus. -/
def splitSign : List Char → Bool × List Char
  | '-' :: rest => (true, rest)
  | '+' :: rest => (false, rest)
  | text => (false, text)

/-- A whole number. -/
def integer? (text : List Char) : Option Value :=
  match text with
  | '0' :: 'x' :: rest => ofBase? 16 rest
  | '0' :: 'o' :: rest => ofBase? 8 rest
  | '0' :: 'b' :: rest => ofBase? 2 rest
  | _ => do
    let (negative, row) := splitSign text
    signed? negative (Numeral.ofDigits (← plainRow? row))

/-- The exponent of a float, with its sign. -/
def exponent? (text : List Char) : Option Int := do
  let (negative, row) := splitSign text
  let n := Numeral.ofDigits (← digitRow? Numeral.isDigit row)
  return if negative then -(n : Int) else n

/-- A float; one above all finite numbers is refused. -/
def float? (text : List Char) : Option Value := do
  let (negative, row) := splitSign text
  if row = ['i', 'n', 'f'] then return .float (.infinity negative)
  if row = ['n', 'a', 'n'] then return .float (if negative then Binary64.nan.negate else .nan)
  let (mantissa, rest) := row.span fun c => c ≠ 'e' && c ≠ 'E'
  let exponent ← match rest with
    | [] => some 0
    | _ :: rest => exponent? rest
  let (whole, rest') := mantissa.span fun c => c ≠ '.'
  let whole ← plainRow? whole
  let fraction ← match rest' with
    | [] => if rest.isEmpty then none else some []
    | _ :: rest' => digitRow? Numeral.isDigit rest'
  let x := Binary64.ofDecimal negative (Numeral.ofDigits (whole ++ fraction))
    (exponent - fraction.length)
  if x = .infinity false then none else some (.float x)

/-! ### Dates and times -/

/-- A number of two digits up to a limit. -/
def twoDigits? (low high : Nat) (a b : Char) : Option Nat :=
  let n := Numeral.ofDigits [a, b]
  if Numeral.isDigit a && Numeral.isDigit b && low ≤ n && n ≤ high then some n else none

/-- The number of days of a month. -/
def daysOf (year month : Nat) : Nat :=
  if month = 2 then if year % 4 = 0 ∧ (year % 100 ≠ 0 ∨ year % 400 = 0) then 29 else 28
  else if month = 4 ∨ month = 6 ∨ month = 9 ∨ month = 11 then 30
  else 31

/-- Splits off a date. -/
def splitDate? : List Char → Option (List Char × List Char)
  | a :: b :: c :: d :: '-' :: e :: f :: '-' :: g :: h :: rest => do
    if !([a, b, c, d].all Numeral.isDigit) then none
    let month ← twoDigits? 1 12 e f
    let _ ← twoDigits? 1 (daysOf (Numeral.ofDigits [a, b, c, d]) month) g h
    return ([a, b, c, d, '-', e, f, '-', g, h], rest)
  | _ => none

/-- Splits off the fraction of a second; nine digits of it count. -/
def splitFraction? (text : List Char) : Option (List Char × List Char) :=
  match text with
  | '.' :: rest =>
    let (row, left) := rest.span Numeral.isDigit
    if row.isEmpty then none
    else
      let kept := ((row.take 9).reverse.dropWhile (· = '0')).reverse
      some (if kept.isEmpty then [] else '.' :: kept, left)
  | _ => some ([], text)

/-- Splits off a time of day. -/
def splitTime? : List Char → Option (List Char × List Char)
  | a :: b :: ':' :: c :: d :: ':' :: e :: f :: rest => do
    let _ ← twoDigits? 0 23 a b
    let _ ← twoDigits? 0 59 c d
    let _ ← twoDigits? 0 60 e f
    let (fraction, left) ← splitFraction? rest
    return ([a, b, ':', c, d, ':', e, f] ++ fraction, left)
  | _ => none

/-- The offset from universal time. -/
def offset? : List Char → Option (List Char)
  | [] => some []
  | ['Z'] => some ['Z']
  | ['z'] => some ['Z']
  | [sign, a, b, ':', c, d] => do
    if sign ≠ '+' ∧ sign ≠ '-' then none
    let hours ← twoDigits? 0 23 a b
    let minutes ← twoDigits? 0 59 c d
    let sign := if hours = 0 ∧ minutes = 0 then '+' else sign
    return [sign, a, b, ':', c, d]
  | _ => none

/-- The value of a date or time in its canonical notation. -/
def moment (row : List Char) : Value :=
  .table [("$__toml_private_datetime", .text (String.ofList row))]

/-- A date, a time, or both. -/
def moment? (text : List Char) : Option Value :=
  match splitDate? text with
  | some (date, []) => some (moment date)
  | some (date, c :: rest) =>
    if c = 'T' ∨ c = 't' ∨ c = ' ' then do
      let (time, left) ← splitTime? rest
      return moment (date ++ 'T' :: time ++ (← offset? left))
    else none
  | none =>
    match splitTime? text with
    | some (time, []) => some (moment time)
    | _ => none

/-! ### All scalars but strings -/

/-- Whether a character may stand in a number, a truth value, a date or a time. -/
def isWordChar (c : Char) : Bool :=
  Numeral.isDigit c || ('a' ≤ c && c ≤ 'z') || ('A' ≤ c && c ≤ 'Z') ||
    ['+', '-', '_', '.', ':'].contains c

/-- What a word stands for. -/
def wordValue? (word : List Char) : Option Value :=
  if word = ['t', 'r', 'u', 'e'] then some (.bool true)
  else if word = ['f', 'a', 'l', 's', 'e'] then some (.bool false)
  else ((moment? word).or (integer? word)).or (float? word)

/-- Splits off a word; a date may have a time behind a blank. -/
def splitWord? (text : List Char) : Option (Value × List Char) :=
  let (word, rest) := text.span isWordChar
  let long? : Option (Value × List Char) :=
    match splitDate? word, rest with
    | some (_, []), ' ' :: behind =>
      let (time, left) := behind.span isWordChar
      if time.isEmpty then none else (moment? (word ++ ' ' :: time)).map (·, left)
    | _, _ => none
  long?.or ((wordValue? word).map (·, rest))

end ChunkStore.Config.Toml
