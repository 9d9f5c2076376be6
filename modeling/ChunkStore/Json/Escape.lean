import ChunkStore.Json.Basic

/-!
# Strings inside quotes

Inside quotes a quote, a backslash and the characters below the blank are written with a backslash,
all others as themselves.  Reading accepts every escape of the grammar; a `\u` escape that is half
of a surrogate pair has to be followed by the other half.  Main statement: what is written reads
back (`decode?_encode`).
-/

set_option autoImplicit false

namespace ChunkStore.Json

/-- The value of a hexadecimal digit. -/
def hexValue? (c : Char) : Option Nat :=
  if '0' ≤ c ∧ c ≤ '9' then some (c.toNat - 48)
  else if 'a' ≤ c ∧ c ≤ 'f' then some (c.toNat - 87)
  else if 'A' ≤ c ∧ c ≤ 'F' then some (c.toNat - 55)
  else none

/-- The hexadecimal digit of a number below sixteen. -/
def hexDigit (n : Nat) : Char :=
  if n < 10 then Char.ofNat (48 + n) else Char.ofNat (87 + n)

/-- The number written by four hexadecimal digits. -/
def hexFour? (a b c d : Char) : Option Nat := do
  return 4096 * (← hexValue? a) + 256 * (← hexValue? b) + 16 * (← hexValue? c) + (← hexValue? d)

/-- The letter after the backslash of a short escape, with what it stands for. -/
def shortEscape? : Char → Option Char
  | '\"' => some '\"'
  | '\\' => some '\\'
  | '/' => some '/'
  | 'b' => some '\x08'
  | 'f' => some '\x0c'
  | 'n' => some '\n'
  | 'r' => some '\r'
  | 't' => some '\t'
  | _ => none

/-- One character as it stands inside quotes. -/
def encodeChar (c : Char) : List Char :=
  if c = '\"' then ['\\', '\"']
  else if c = '\\' then ['\\', '\\']
  else if c = '\x08' then ['\\', 'b']
  else if c = '\x0c' then ['\\', 'f']
  else if c = '\n' then ['\\', 'n']
  else if c = '\r' then ['\\', 'r']
  else if c = '\t' then ['\\', 't']
  else if c.toNat < 32 then ['\\', 'u', '0', '0', hexDigit (c.toNat / 16), hexDigit (c.toNat % 16)]
  else [c]

/-- The characters of a string as they stand inside quotes. -/
def encode (chars : List Char) : List Char :=
  chars.flatMap encodeChar

/-- Splits off the characters up to the closing quote, which is dropped.  Escapes have to be well
formed, but may be halves of surrogate pairs. -/
def splitLexeme? : List Char → Option (List Char × List Char)
  | [] => none
  | '\"' :: rest => some ([], rest)
  | '\\' :: 'u' :: a :: b :: c :: d :: rest =>
    match hexFour? a b c d with
    | some _ => (splitLexeme? rest).map fun (lexeme, after) =>
      ('\\' :: 'u' :: a :: b :: c :: d :: lexeme, after)
    | none => none
  | '\\' :: letter :: rest =>
    match shortEscape? letter with
    | some _ => (splitLexeme? rest).map fun (lexeme, after) => ('\\' :: letter :: lexeme, after)
    | none => none
  | c :: rest =>
    if c = '\\' ∨ c.toNat < 32 then none
    else (splitLexeme? rest).map fun (lexeme, after) => (c :: lexeme, after)

/-- The string that stands inside quotes. -/
def decode? : List Char → Option (List Char)
  | [] => some []
  | '\\' :: 'u' :: a :: b :: c :: d :: rest =>
    match hexFour? a b c d with
    | none => none
    | some unit =>
      if 0xDC00 ≤ unit ∧ unit < 0xE000 then none
      else if 0xD800 ≤ unit ∧ unit < 0xDC00 then
        match rest with
        | '\\' :: 'u' :: a' :: b' :: c' :: d' :: rest' =>
          match hexFour? a' b' c' d' with
          | none => none
          | some low =>
            if 0xDC00 ≤ low ∧ low < 0xE000 then
              (decode? rest').map
                (Char.ofNat (0x10000 + 0x400 * (unit - 0xD800) + (low - 0xDC00)) :: ·)
            else none
        | _ => none
      else (decode? rest).map (Char.ofNat unit :: ·)
  | '\\' :: letter :: rest =>
    match shortEscape? letter with
    | some c => (decode? rest).map (c :: ·)
    | none => none
  | c :: rest => if c = '\\' ∨ c = '\"' ∨ c.toNat < 32 then none else (decode? rest).map (c :: ·)

theorem hexFour?_hexDigit {n : Nat} (h : n < 32) :
    hexFour? '0' '0' (hexDigit (n / 16)) (hexDigit (n % 16)) = some n := by
  have : ∀ n : Fin 32,
      hexFour? '0' '0' (hexDigit (n.val / 16)) (hexDigit (n.val % 16)) = some n.val := by decide
  exact this ⟨n, h⟩

theorem decode?_encodeChar_append (c : Char) (rest : List Char) :
    decode? (encodeChar c ++ rest) = (decode? rest).map (c :: ·) := by
  unfold encodeChar
  repeat' split
  all_goals try (subst_vars; simp [decode?, shortEscape?])
  · next h =>
    have hlow : ¬(0xDC00 ≤ c.toNat ∧ c.toNat < 0xE000) := by omega
    have hhigh : ¬(0xD800 ≤ c.toNat ∧ c.toNat < 0xDC00) := by omega
    simp [hexFour?_hexDigit h, hlow, hhigh]
  · next hquote hslash _ _ _ _ _ hlow =>
    simp [decode?, hquote, hslash, hlow]

/-- A string reads back from what is written for it. -/
theorem decode?_encode (chars : List Char) : decode? (encode chars) = some chars := by
  induction chars with
  | nil => rfl
  | cons c rest ih =>
    have : encode (c :: rest) = encodeChar c ++ encode rest := rfl
    rw [this, decode?_encodeChar_append, ih]
    rfl

end ChunkStore.Json
