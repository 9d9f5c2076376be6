import ChunkStore.Number.Binary64
import ChunkStore.Number.Numeral

/-!
# Shortest decimals

`Decimal.shortest` finds, for a finite double, the decimal with the fewest digits that rounds to it,
and among those the nearest; a tie goes as asked.  The search tests on each decimal grid, from one
digit on, the two grid points around the number against the interval of reals that round to it.
Seventeen digits always suffice.

`Decimal.positional` and `Decimal.scientific` write such a decimal.
-/

set_option autoImplicit false

namespace ChunkStore

/-- The number `digits * 10 ^ exponent`. -/
structure Decimal where
  digits : Nat
  exponent : Int
deriving DecidableEq, Repr

namespace Decimal

/-- Where a number that lies midway between two candidates goes. -/
inductive Tie where
  | toEven
  | up
deriving DecidableEq

/-- A positive number with the bounds of the reals that round to it, all over one denominator. -/
structure Interval where
  low : Nat
  value : Nat
  high : Nat
  den : Nat
  closed : Bool

/-- The reals that round to a finite double that is not zero.  The lower bound is nearer where the
next smaller double has a smaller exponent. -/
def interval (x : Binary64) : Interval :=
  let m := x.significand
  let e := x.exponent - 2
  let below := if m = 0x10000000000000 ∧ -1074 < x.exponent then 1 else 2
  let up := 1 <<< e.toNat
  ⟨(4 * m - below) * up, 4 * m * up, (4 * m + 2) * up, 1 <<< (-e).toNat, m % 2 = 0⟩

/-- The number of digits before the point of `num / den`, counted from the first that is not zero:
`10 ^ (n - 1) ≤ num / den < 10 ^ n`. -/
def magnitude (num den : Nat) : Int :=
  let atLeast (n : Int) : Bool := Nat.pow 10 n.toNat * den ≤ num * Nat.pow 10 (-n).toNat
  let guess : Int := ((Nat.log2 num : Int) - Nat.log2 den) * 30103 / 100000 - 1
  if atLeast (guess + 2) then guess + 3
  else if atLeast (guess + 1) then guess + 2
  else if atLeast guess then guess + 1
  else guess

/-- The point of the grid of step `10 ^ exponent` that lies nearest to the number, if one lies in
the interval. -/
def onGrid? (tie : Tie) (r : Interval) (exponent : Int) : Option Decimal :=
  let step := Nat.pow 10 exponent.toNat * r.den
  let scale := Nat.pow 10 (-exponent).toNat
  let inside (d : Nat) : Bool :=
    if r.closed then r.low * scale ≤ d * step && d * step ≤ r.high * scale
    else r.low * scale < d * step && d * step < r.high * scale
  let floor := r.value * scale / step
  let rest := 2 * (r.value * scale % step)
  let nearest :=
    if rest < step then floor
    else if step < rest then floor + 1
    else match tie with
      | .toEven => floor + floor % 2
      | .up => floor + 1
  if nearest ≠ 0 ∧ inside nearest then some ⟨nearest, exponent⟩
  else if floor ≠ 0 ∧ inside floor then some ⟨floor, exponent⟩
  else if inside (floor + 1) then some ⟨floor + 1, exponent⟩
  else none

/-- Moves zeros at the end of the digits into the exponent; `fuel` bounds their number. -/
def trim : Nat → Decimal → Decimal
  | 0, d => d
  | fuel + 1, d => if d.digits % 10 = 0 then trim fuel ⟨d.digits / 10, d.exponent + 1⟩ else d

/-- Tries the grids from a coarse one to finer ones. -/
def search (tie : Tie) (r : Interval) : Nat → Int → Decimal
  | 0, exponent =>
    ⟨r.value * Nat.pow 10 (-exponent).toNat / (Nat.pow 10 exponent.toNat * r.den), exponent⟩
  | fuel + 1, exponent => (onGrid? tie r exponent).getD (search tie r fuel (exponent - 1))

/-- The shortest decimal that rounds to a finite double, without its sign. -/
def shortest (tie : Tie) (x : Binary64) : Decimal :=
  if x.magnitude = 0 then ⟨0, 0⟩
  else
    let r := interval x
    trim 20 (search tie r 17 (magnitude r.value r.den - 1))

/-- The digits of a decimal. -/
def row (d : Decimal) : List Char :=
  Numeral.digits d.digits

/-- The exponent of the leading digit. -/
def leading (d : Decimal) : Int :=
  d.exponent + d.row.length - 1

/-- The digits before and after the point in positional notation; a whole number has none after it.
-/
def positional (d : Decimal) : List Char × List Char :=
  let point := d.leading + 1
  if point ≤ 0 then (['0'], List.replicate (-point).toNat '0' ++ d.row)
  else
    let n := point.toNat
    (d.row.take n ++ List.replicate (n - d.row.length) '0', d.row.drop n)

/-- The leading digit and the digits after it. -/
def scientific (d : Decimal) : List Char × List Char :=
  (d.row.take 1, d.row.drop 1)

end Decimal

/-- The shortest positional text of a double: no point in whole numbers, `NaN` and `inf` by name. -/
def Binary64.positionalText (x : Binary64) : String :=
  let sign := if x.isNegative then "-" else ""
  if x.isNaN then "NaN"
  else if !x.isFinite then sign ++ "inf"
  else
    let (whole, fraction) := (Decimal.shortest .up x).positional
    sign ++ String.ofList whole ++
      (if fraction.isEmpty then "" else "." ++ String.ofList fraction)

end ChunkStore
