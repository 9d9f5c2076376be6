import ChunkStore.Number.Binary32
import Mathlib

/-!
# The order of scores

A finite number is a whole multiple of the smallest positive one, so its exact value is an integer
in these units.  The numerical comparison compares these values.  The total order of all patterns
compares them as well, and tells two patterns of one value apart only if they are the two zeros: the
negative zero comes before the positive one.
-/

set_option autoImplicit false

namespace ChunkStore

/-- How often a pattern without its sign has the smallest positive number in it, in a format with so
many bits of fraction: with the lowest exponent as often as the fraction says; with a higher one the
fraction has a leading one in front of it, and each further exponent doubles. -/
def unitsOf (width magnitude : Nat) : Nat :=
  if magnitude / 2 ^ width = 0 then magnitude
  else (2 ^ width + magnitude % 2 ^ width) * 2 ^ (magnitude / 2 ^ width - 1)

theorem unitsOf_lt_succ (width magnitude : Nat) :
    unitsOf width magnitude < unitsOf width (magnitude + 1) := by
  have hpositive : 0 < 2 ^ width := Nat.two_pow_pos width
  unfold unitsOf
  generalize 2 ^ width = size at hpositive
  have hsplit := Nat.div_add_mod magnitude size
  have hfraction := Nat.mod_lt magnitude hpositive
  generalize magnitude / size = exponent at hsplit
  generalize magnitude % size = fraction at hsplit hfraction
  by_cases hcarry : fraction + 1 = size
  · -- The fraction is all ones, so that the next pattern has the next exponent.
    have hnext : magnitude + 1 = size * (exponent + 1) := by
      rw [← hsplit, Nat.mul_add, Nat.mul_one, Nat.add_assoc, hcarry]
    rw [hnext, Nat.mul_div_cancel_left _ hpositive, Nat.mul_mod_right, if_neg (Nat.succ_ne_zero _),
      Nat.add_sub_cancel, Nat.add_zero]
    cases exponent with
    | zero =>
      rw [if_pos rfl]
      omega
    | succ below =>
      rw [if_neg (Nat.succ_ne_zero _), Nat.add_sub_cancel, Nat.pow_succ']
      calc (size + fraction) * 2 ^ below < (size * 2) * 2 ^ below :=
            Nat.mul_lt_mul_of_pos_right (by omega) (Nat.two_pow_pos below)
        _ = size * (2 * 2 ^ below) := Nat.mul_assoc size 2 (2 ^ below)
  · have hsmall : fraction + 1 < size := by omega
    have hnext : magnitude + 1 = fraction + 1 + size * exponent := by omega
    rw [hnext, Nat.add_mul_div_left _ _ hpositive, Nat.add_mul_mod_self_left,
      Nat.div_eq_of_lt hsmall, Nat.mod_eq_of_lt hsmall, Nat.zero_add]
    split
    · omega
    · exact Nat.mul_lt_mul_of_pos_right (by omega) (Nat.two_pow_pos _)

theorem unitsOf_le_unitsOf_iff {width magnitude other : Nat} :
    unitsOf width magnitude ≤ unitsOf width other ↔ magnitude ≤ other :=
  (strictMono_nat_of_lt_succ (unitsOf_lt_succ width)).le_iff_le

theorem unitsOf_zero (width : Nat) : unitsOf width 0 = 0 := by
  simp [unitsOf]

/-- With a sign in front, values are in the order of the patterns with that sign in front. -/
theorem signed_unitsOf_le_iff (width : Nat) (negative otherNegative : Bool)
    (magnitude other : Nat) :
    (if negative then -(unitsOf width magnitude : Int) else unitsOf width magnitude) ≤
        (if otherNegative then -(unitsOf width other : Int) else unitsOf width other) ↔
      (if negative then -(magnitude : Int) else magnitude) ≤
        (if otherNegative then -(other : Int) else other) := by
  have hle : unitsOf width magnitude ≤ unitsOf width other ↔ _ := unitsOf_le_unitsOf_iff
  have hge : unitsOf width other ≤ unitsOf width magnitude ↔ _ := unitsOf_le_unitsOf_iff
  have hfirst : unitsOf width magnitude ≤ unitsOf width 0 ↔ _ := unitsOf_le_unitsOf_iff
  have hsecond : unitsOf width other ≤ unitsOf width 0 ↔ _ := unitsOf_le_unitsOf_iff
  rw [unitsOf_zero] at hfirst hsecond
  cases negative <;> cases otherNegative <;>
    simp only [if_true, if_false, Bool.false_eq_true] <;> omega

namespace Binary32

/-- The zero without a sign. -/
def positiveZero : Binary32 :=
  ⟨0⟩

/-- The zero with the sign bit. -/
def negativeZero : Binary32 :=
  ⟨0x80000000⟩

/-- The exact value of a finite number, in units of the smallest positive one. -/
def value (x : Binary32) : Int :=
  if x.isNegative then -(unitsOf 23 x.magnitude : Int) else unitsOf 23 x.magnitude

variable {x y : Binary32}

theorem value_le_value_iff : x.value ≤ y.value ↔ x.position ≤ y.position :=
  signed_unitsOf_le_iff 23 x.isNegative y.isNegative x.magnitude y.magnitude

/-- The numerical comparison of finite numbers compares their values. -/
theorem compare?_eq_compare_value (hx : x.isFinite = true) (hy : y.isFinite = true) :
    x.compare? y = some (compare x.value y.value) := by
  have hnumbers : (x.isNaN || y.isNaN) = false := by
    simp only [isFinite, isNaN, decide_eq_true_eq, Bool.or_eq_false_iff,
      decide_eq_false_iff_not] at *
    omega
  have hsame : compare x.position y.position = compare x.value y.value := by
    have hle := value_le_value_iff (x := x) (y := y)
    have hge := value_le_value_iff (x := y) (y := x)
    rw [Int.compare_eq_ite_le, Int.compare_eq_ite_le]
    simp only [hle, hge]
  unfold compare?
  rw [hnumbers, hsame]
  rfl

/-- The total order of patterns refines the order of values. -/
theorem value_le_of_rank_le (h : x.rank ≤ y.rank) : x.value ≤ y.value := by
  rw [value_le_value_iff]
  unfold rank at h
  unfold position
  cases hx : x.isNegative <;> cases hy : y.isNegative <;>
    simp only [hx, hy, if_true, if_false, Bool.false_eq_true] at h ⊢ <;> omega

/-- Of two patterns of one value the first does not come after the second in the total order, unless
they are the positive zero and the negative one. -/
theorem rank_le_of_value_eq (h : x.value = y.value) :
    x.rank ≤ y.rank ∨ x = positiveZero ∧ y = negativeZero := by
  have hposition : x.position = y.position :=
    le_antisymm (value_le_value_iff.1 h.le) (value_le_value_iff.1 h.ge)
  cases hx : x.isNegative with
  | true =>
    left
    unfold position at hposition
    unfold rank
    cases hy : y.isNegative <;>
      simp only [hx, hy, if_true, if_false, Bool.false_eq_true] at hposition ⊢ <;> omega
  | false =>
    cases hy : y.isNegative with
    | false =>
      left
      simp only [rank, position, hx, hy, if_false, Bool.false_eq_true] at hposition ⊢
      exact hposition.le
    | true =>
      -- Only zeros have one position with both signs.
      right
      have hxbits : x.bits.toNat < 0x80000000 := by simpa [isNegative] using hx
      have hybits : 0x80000000 ≤ y.bits.toNat := by simpa [isNegative] using hy
      have hbound := y.bits.toNat_lt
      simp only [position, hx, hy, if_true, if_false, Bool.false_eq_true, magnitude] at hposition
      have hxzero : x.bits = 0 := UInt32.toNat_inj.1 (by rw [UInt32.toNat_zero]; omega)
      have hyzero : y.bits = 0x80000000 :=
        UInt32.toNat_inj.1 (by show y.bits.toNat = 0x80000000; omega)
      exact ⟨congrArg Binary32.mk hxzero, congrArg Binary32.mk hyzero⟩

end Binary32

end ChunkStore
