import ChunkStore.Json.Basic
import ChunkStore.Number.Shortest

/-!
# What numbers mean

A number without point and exponent is an integer if it fits 64 bits, with or without a sign; every
other number is a float.  A float is read in three steps: as many digits as fit 64 bits are taken as
the significand, the place of the point and the exponent are added up, and the significand, rounded
once, is multiplied with or divided by a power of ten, rounded again.  So a float with few digits
and a small exponent is read exactly, and another may come out one unit in the last place off.

Written floats have the fewest digits that determine them.
-/

set_option autoImplicit false

namespace ChunkStore.Json

/-- What a number means. -/
inductive Reading where
  | natural (n : Nat)
  | negative (n : Nat)
  | float (x : Binary64)
deriving DecidableEq

namespace Number

/-- The first number that no longer fits 64 bits. -/
def wordLimit : Nat :=
  UInt64.size

/-- The first exponent that no longer fits 32 bits with a sign. -/
def exponentLimit : Nat :=
  0x80000000

/-- Takes digits into a significand as long as it fits 64 bits; gives the digits left over. -/
def takeDigits (significand : Nat) : List Char → Nat × List Char
  | [] => (significand, [])
  | c :: rest =>
    let next := 10 * significand + Numeral.digitValue c
    if next < wordLimit then takeDigits next rest else (significand, c :: rest)

/-- The significand with its power of ten: digits that do not fit are dropped, those before the
point count into the exponent. -/
def scaled (n : Number) : Nat × Int :=
  let (significand, dropped) := takeDigits 0 n.whole
  let (significand', rest) := takeDigits significand n.fraction
  (significand', (dropped.length : Int) - (n.fraction.length - rest.length : Nat))

/-- Multiplies a number by a power of ten.  Powers beyond `10 ^ 308` go by steps of that size, of
which three leave nothing of a 64-bit significand; `none` is a number too large. -/
def applyExponent? : Nat → Binary64 → Int → Option Binary64
  | 0, x, _ => some x
  | fuel + 1, x, exponent =>
    if exponent.natAbs ≤ 308 then
      if 0 ≤ exponent then
        let product := x.multiply (.powerOfTen exponent.toNat)
        if product.isFinite then some product else none
      else some (x.divide (.powerOfTen (-exponent).toNat))
    else if x.magnitude = 0 then some x
    else if 0 ≤ exponent then none
    else applyExponent? fuel (x.divide (.powerOfTen 308)) (exponent + 308)

/-- The float of a significand and a power of ten. -/
def ofParts? (negative : Bool) (significand : Nat) (exponent : Int) : Option Binary64 :=
  (applyExponent? 4 (.ofNat significand) exponent).map fun x => if negative then x.negate else x

/-- The float that a number stands for, if it is not too large. -/
def toFloat? (n : Number) : Option Binary64 :=
  let (significand, exponent) := n.scaled
  match n.exponent with
  | none => ofParts? n.negative significand exponent
  | some (down, row) =>
    let size := Numeral.ofDigits row
    if exponentLimit ≤ size then
      if significand ≠ 0 ∧ !down then none else some (.zero n.negative)
    else
      ofParts? n.negative significand (if down then exponent - size else exponent + size)

/-- What a number means, if it is not too large. -/
def read? (n : Number) : Option Reading :=
  if n.fraction.isEmpty && n.exponent.isNone && Numeral.ofDigits n.whole < wordLimit then
    let value := Numeral.ofDigits n.whole
    if !n.negative then some (.natural value)
    else if value = 0 || 0x8000000000000000 < value then some (.float (Binary64.ofNat value).negate)
    else some (.negative value)
  else (n.toFloat?).map .float

/-- The number that is written for a finite float: the shortest digits, positional for exponents
from -5 to 15 and then with a digit after the point, otherwise with an exponent. -/
def ofFloat (x : Binary64) : Number :=
  let d := Decimal.shortest .toEven x
  if -5 ≤ d.leading ∧ d.leading ≤ 15 then
    let (whole, fraction) := d.positional
    ⟨x.isNegative, whole, if fraction.isEmpty then ['0'] else fraction, none⟩
  else
    let (whole, fraction) := d.scientific
    ⟨x.isNegative, whole, fraction, some (d.leading < 0, Numeral.digits d.leading.natAbs)⟩

end Number

end ChunkStore.Json
