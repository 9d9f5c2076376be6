/-!
# Single precision numbers

A `Binary32` is an IEEE-754 single given by its bits.  Scores are of this kind.  `compareTotal`
orders all patterns: first NaNs with the sign bit, then the numbers in their numerical order with
the negative zero before the positive one, then the other NaNs.
-/

set_option autoImplicit false

namespace ChunkStore

/-- A single precision number, as its bits. -/
structure Binary32 where
  bits : UInt32
deriving DecidableEq, Inhabited

namespace Binary32

/-- The bit pattern without its sign. -/
def magnitude (x : Binary32) : Nat :=
  x.bits.toNat % 0x80000000

/-- Whether the sign bit is set. -/
def isNegative (x : Binary32) : Bool :=
  0x80000000 ≤ x.bits.toNat

/-- The magnitude of the infinities; everything above it is a NaN. -/
def infinityMagnitude : Nat :=
  0x7f800000

/-- Whether the pattern stands for no number. -/
def isNaN (x : Binary32) : Bool :=
  infinityMagnitude < x.magnitude

/-- Whether the pattern stands for a real number. -/
def isFinite (x : Binary32) : Bool :=
  x.magnitude < infinityMagnitude

/-- The NaN that stands for a missing number. -/
def nan : Binary32 :=
  ⟨0x7fc00000⟩

/-- The position on the number line: patterns grow with the number, and both zeros stand at zero. -/
def position (x : Binary32) : Int :=
  if x.isNegative then -(x.magnitude : Int) else x.magnitude

/-- The position in the total order of all patterns. -/
def rank (x : Binary32) : Int :=
  if x.isNegative then -(x.magnitude : Int) - 1 else x.magnitude

/-- The total order of all patterns. -/
def compareTotal (x y : Binary32) : Ordering :=
  compare x.rank y.rank

/-- The numerical comparison; nothing compares with a NaN. -/
def compare? (x y : Binary32) : Option Ordering :=
  if x.isNaN || y.isNaN then none else some (compare x.position y.position)

/-- How a number that is not finite is written. -/
def nonFiniteText (x : Binary32) : String :=
  if x.isNaN then "NaN" else if x.isNegative then "-inf" else "inf"

end Binary32

end ChunkStore
