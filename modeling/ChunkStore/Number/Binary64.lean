/-!
# Double precision numbers

A `Binary64` is an IEEE-754 double given by its bits, so equality is equality of bits: the two zeros
differ, and so do two NaNs with different payloads.  The numerical comparison is `compare?`, which
is undefined exactly where a NaN takes part (`compare?_eq_none_iff`).

Arithmetic is exact arithmetic on natural numbers followed by one rounding to the nearest double,
ties to the one with the even last bit (`roundRatio`).
-/

set_option autoImplicit false

namespace ChunkStore

/-- A double precision number, as its bits. -/
structure Binary64 where
  bits : UInt64
deriving DecidableEq, Inhabited

namespace Binary64

/-- The bit pattern without its sign. -/
def magnitude (x : Binary64) : Nat :=
  x.bits.toNat % 0x8000000000000000

/-- Whether the sign bit is set. -/
def isNegative (x : Binary64) : Bool :=
  0x8000000000000000 ≤ x.bits.toNat

/-- The magnitude of the infinities; everything above it is a NaN. -/
def infinityMagnitude : Nat :=
  0x7ff0000000000000

/-- Whether the pattern stands for no number. -/
def isNaN (x : Binary64) : Bool :=
  infinityMagnitude < x.magnitude

/-- Whether the pattern stands for a real number. -/
def isFinite (x : Binary64) : Bool :=
  x.magnitude < infinityMagnitude

/-- The number with a given sign and a given pattern below the sign. -/
def ofMagnitude (negative : Bool) (magnitude : Nat) : Binary64 :=
  ⟨UInt64.ofNat (if negative then 0x8000000000000000 + magnitude else magnitude)⟩

/-- The zero with a given sign. -/
def zero (negative : Bool) : Binary64 :=
  ofMagnitude negative 0

/-- The infinity with a given sign. -/
def infinity (negative : Bool) : Binary64 :=
  ofMagnitude negative infinityMagnitude

/-- The NaN that stands for a missing number. -/
def nan : Binary64 :=
  ⟨0x7ff8000000000000⟩

/-- The number with its sign turned. -/
def negate (x : Binary64) : Binary64 :=
  ofMagnitude (!x.isNegative) x.magnitude

/-- The position on the number line: patterns grow with the number, and both zeros stand at zero. -/
def position (x : Binary64) : Int :=
  if x.isNegative then -(x.magnitude : Int) else x.magnitude

/-- The numerical comparison; nothing compares with a NaN. -/
def compare? (x y : Binary64) : Option Ordering :=
  if x.isNaN || y.isNaN then none else some (compare x.position y.position)

/-- Numerical equality: the zeros are equal, and a NaN equals nothing. -/
def equals (x y : Binary64) : Bool :=
  x.compare? y == some .eq

theorem compare?_eq_none_iff (x y : Binary64) :
    x.compare? y = none ↔ x.isNaN = true ∨ y.isNaN = true := by
  unfold compare?
  split <;> simp_all

/-! ### The exact value -/

/-- The integer `m` of the value `m * 2 ^ e` of a finite number. -/
def significand (x : Binary64) : Nat :=
  if x.magnitude / 0x10000000000000 = 0 then x.magnitude
  else 0x10000000000000 + x.magnitude % 0x10000000000000

/-- The exponent `e` of the value `m * 2 ^ e` of a finite number. -/
def exponent (x : Binary64) : Int :=
  (max (x.magnitude / 0x10000000000000) 1 : Nat) - 1075

/-! ### Rounding -/

/-- The quotient of two numbers as an integer, rounded to nearest, ties to even. -/
def divideToEven (num den : Nat) : Nat :=
  let quotient := num / den
  let rest := 2 * (num % den)
  if rest < den then quotient
  else if den < rest then quotient + 1
  else quotient + quotient % 2

/-- The pattern nearest to the positive number `num / den`.

The unit in the last place is `2 ^ e`, where `e` is chosen so that the significand has 53 bits, but
is never below `-1074`; a significand that rounds up to `2 ^ 53` carries into the exponent by
itself. -/
def roundRatio (num den : Nat) : Nat :=
  let scaled (e : Int) : Nat × Nat :=
    if 0 ≤ e then (num, den <<< e.toNat) else (num <<< (-e).toNat, den)
  let low : Int := max (-1074) ((Nat.log2 num : Int) - Nat.log2 den - 53)
  let (n, d) := scaled low
  let e := if n / d < 0x20000000000000 then low else low + 1
  let (n, d) := scaled e
  min infinityMagnitude ((e + 1074).toNat * 0x10000000000000 + divideToEven n d)

/-- The number nearest to a ratio with a given sign. -/
def ofRatio (negative : Bool) (num den : Nat) : Binary64 :=
  if num = 0 then zero negative else ofMagnitude negative (roundRatio num den)

/-- The number nearest to `m * 2 ^ e`. -/
def ofScaled (negative : Bool) (m : Nat) (e : Int) : Binary64 :=
  if 0 ≤ e then ofRatio negative (m <<< e.toNat) 1 else ofRatio negative m (1 <<< (-e).toNat)

/-- The number nearest to a natural number. -/
def ofNat (n : Nat) : Binary64 :=
  ofRatio false n 1

/-- The number nearest to an integer. -/
def ofInt (n : Int) : Binary64 :=
  ofRatio (n < 0) n.natAbs 1

/-- The number nearest to `m * 10 ^ e`.  Exponents that leave the range are decided by the number of
digits, so that no huge power is built. -/
def ofDecimal (negative : Bool) (m : Nat) (e : Int) : Binary64 :=
  if m = 0 then zero negative
  else if 400 < e + (3 * Nat.log2 m / 10 : Nat) then infinity negative
  else if e + (Nat.log2 m : Int) < -400 then zero negative
  else if 0 ≤ e then ofRatio negative (m * Nat.pow 10 e.toNat) 1
  else ofRatio negative m (Nat.pow 10 (-e).toNat)

/-- The product of two finite numbers, rounded. -/
def multiply (x y : Binary64) : Binary64 :=
  ofScaled (x.isNegative != y.isNegative) (x.significand * y.significand) (x.exponent + y.exponent)

/-- The quotient of a finite number by a finite number that is not zero, rounded. -/
def divide (x y : Binary64) : Binary64 :=
  let e := x.exponent - y.exponent
  if 0 ≤ e then
    ofRatio (x.isNegative != y.isNegative) (x.significand <<< e.toNat) y.significand
  else
    ofRatio (x.isNegative != y.isNegative) x.significand (y.significand <<< (-e).toNat)

/-- The number nearest to a power of ten. -/
def powerOfTen (n : Nat) : Binary64 :=
  ofDecimal false 1 n

end Binary64

end ChunkStore
