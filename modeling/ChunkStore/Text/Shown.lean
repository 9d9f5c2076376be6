import ChunkStore.Number.Numeral
import ChunkStore.Text.Hidden

/-!
# Texts in messages

A text that a message quotes stands between double quotes, with escapes for quotes, backslashes,
line breaks, tabs, the null character and all characters that would not be seen.
-/

set_option autoImplicit false

namespace ChunkStore.Text

/-- The hexadecimal digits of a number. -/
def hexDigits (n : Nat) : List Char :=
  Nat.toDigits 16 n

/-- A character as it stands in a quoted text. -/
def showChar (c : Char) : List Char :=
  if c = '\"' then ['\\', '\"']
  else if c = '\\' then ['\\', '\\']
  else if c = '\n' then ['\\', 'n']
  else if c = '\r' then ['\\', 'r']
  else if c = '\t' then ['\\', 't']
  else if c = '\x00' then ['\\', '0']
  else if isHidden c then ['\\', 'u', '\x7b'] ++ hexDigits c.toNat ++ ['\x7d']
  else [c]

/-- A text between double quotes. -/
def shown (text : String) : String :=
  String.ofList ('\"' :: text.toList.flatMap showChar ++ ['\"'])

end ChunkStore.Text
