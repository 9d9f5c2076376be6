import ChunkStore.Proofs.Number.Rounding

/-!
# Arithmetic with one rounding

Natural numbers, powers of ten, products and quotients come out as the exact result would be
rounded, or as the infinity if that is beyond the largest number (`IsRounded`).
-/

set_option autoImplicit false

namespace ChunkStore.Binary64

variable {x y : Binary64} {magnitude : Nat}

/-! ### Signs and patterns -/

theorem toNat_ofMagnitude (negative : Bool) (h : magnitude < 0x8000000000000000) :
    (ofMagnitude negative magnitude).bits.toNat =
      if negative then 0x8000000000000000 + magnitude else magnitude := by
  unfold ofMagnitude
  rw [UInt64.toNat_ofNat']
  split <;> omega

@[simp]
theorem magnitude_ofMagnitude (negative : Bool) (h : magnitude < 0x8000000000000000) :
    (ofMagnitude negative magnitude).magnitude = magnitude := by
  unfold Binary64.magnitude
  rw [toNat_ofMagnitude negative h]
  split <;> omega

@[simp]
theorem isNegative_ofMagnitude (negative : Bool) (h : magnitude < 0x8000000000000000) :
    (ofMagnitude negative magnitude).isNegative = negative := by
  unfold isNegative
  rw [toNat_ofMagnitude negative h]
  cases negative with
  | false => simpa using h
  | true => simp

theorem magnitude_lt (x : Binary64) : x.magnitude < 0x8000000000000000 :=
  Nat.mod_lt _ (by decide)

@[simp]
theorem magnitude_negate (x : Binary64) : x.negate.magnitude = x.magnitude :=
  magnitude_ofMagnitude _ x.magnitude_lt

@[simp]
theorem isNegative_negate (x : Binary64) : x.negate.isNegative = !x.isNegative :=
  isNegative_ofMagnitude _ x.magnitude_lt

/-- A number is its sign and its pattern below the sign. -/
theorem eq_of_magnitude_eq (hsign : x.isNegative = y.isNegative)
    (hmagnitude : x.magnitude = y.magnitude) : x = y := by
  have hx := x.bits.toNat_lt
  have hy := y.bits.toNat_lt
  unfold isNegative at hsign
  unfold Binary64.magnitude at hmagnitude
  have hsame : x.bits.toNat = y.bits.toNat := by
    rw [decide_eq_decide] at hsign
    omega
  cases x
  cases y
  rw [mk.injEq]
  exact UInt64.toNat_inj.1 hsame

/-- Significand and exponent give the number that a pattern stands for. -/
theorem significand_mul_zpow_exponent (x : Binary64) :
    (x.significand : ℚ) * 2 ^ x.exponent = pointOf x.magnitude :=
  significand_mul_two_zpow x

theorem pointOf_pos (h : magnitude ≠ 0) : 0 < pointOf magnitude := by
  rw [← pointOf_zero]
  exact pointOf_lt_pointOf_iff.2 (Nat.pos_of_ne_zero h)

theorem significand_pos (h : x.magnitude ≠ 0) : 0 < x.significand := by
  unfold significand
  split <;> omega

/-! ### Rounded results -/

/-- A number without a sign that is what a positive number is rounded to. -/
structure IsRounded (x : Binary64) (q : ℚ) : Prop where
  isNegative : x.isNegative = false
  magnitude : ∃ pattern, RoundsTo q pattern ∧ x.magnitude = min infinityMagnitude pattern

namespace IsRounded

variable {q q' : ℚ}

/-- A result that is not beyond some finite number is finite, and its pattern is the one that the
exact result is rounded to. -/
theorem roundsTo (h : IsRounded x q) (hle : q ≤ pointOf magnitude)
    (hfinite : magnitude < infinityMagnitude) :
    RoundsTo q x.magnitude ∧ x.magnitude < infinityMagnitude := by
  obtain ⟨pattern, hrounds, hmagnitude⟩ := h.magnitude
  have hpattern := hrounds.le_of_le_pointOf hle
  rw [hmagnitude, Nat.min_eq_right (by omega)]
  exact ⟨hrounds, by omega⟩

theorem ofRatio {num den : Nat} (hnum : 0 < num) (hden : 0 < den) :
    IsRounded (Binary64.ofRatio false num den) (num / den) := by
  obtain ⟨pattern, hrounds, hmagnitude⟩ := exists_roundsTo_roundRatio hnum hden
  have hlt : roundRatio num den < 0x8000000000000000 := by
    rw [hmagnitude]
    exact Nat.lt_of_le_of_lt (Nat.min_le_left _ _) (by decide)
  unfold Binary64.ofRatio
  rw [if_neg hnum.ne']
  exact ⟨isNegative_ofMagnitude false hlt, pattern, hrounds,
    (magnitude_ofMagnitude false hlt).trans hmagnitude⟩

theorem ofNat {n : Nat} (hn : 0 < n) : IsRounded (Binary64.ofNat n) n := by
  have hrounded := ofRatio hn one_pos
  rwa [Nat.cast_one, div_one] at hrounded

theorem powerOfTen {n : Nat} (hn : n ≤ 308) : IsRounded (Binary64.powerOfTen n) (10 ^ n) := by
  have hpower : Binary64.powerOfTen n = Binary64.ofRatio false (Nat.pow 10 n) 1 := by
    have hlog : Nat.log2 1 = 0 := by decide
    unfold Binary64.powerOfTen ofDecimal
    rw [if_neg one_ne_zero, hlog, if_neg (by omega), if_neg (by omega), if_pos (by omega), one_mul,
      Int.toNat_natCast]
  rw [hpower]
  have hrounded := ofRatio (Nat.pow_pos (by decide) : 0 < 10 ^ n) one_pos
  rw [Nat.cast_one, div_one] at hrounded
  push_cast at hrounded
  exact hrounded

theorem ofScaled {m : Nat} (hm : 0 < m) (e : Int) :
    IsRounded (Binary64.ofScaled false m e) (m * 2 ^ e) := by
  unfold Binary64.ofScaled
  split
  · next he =>
    obtain ⟨k, rfl⟩ := Int.eq_ofNat_of_zero_le he
    rw [Int.toNat_natCast, zpow_natCast, Nat.shiftLeft_eq]
    have hrounded := ofRatio (Nat.mul_pos hm (Nat.pow_pos two_pos) : 0 < m * 2 ^ k) one_pos
    rw [Nat.cast_one, div_one] at hrounded
    push_cast at hrounded
    exact hrounded
  · next he =>
    obtain ⟨k, hk⟩ := Int.eq_ofNat_of_zero_le (by omega : 0 ≤ -e)
    obtain rfl : e = -k := by omega
    rw [neg_neg, Int.toNat_natCast, zpow_neg, zpow_natCast, ← div_eq_mul_inv, Nat.shiftLeft_eq,
      one_mul]
    have hrounded := ofRatio hm (Nat.pow_pos two_pos : 0 < 2 ^ k)
    push_cast at hrounded
    exact hrounded

theorem multiply (hx : x.isNegative = false) (hy : y.isNegative = false) (hx' : x.magnitude ≠ 0)
    (hy' : y.magnitude ≠ 0) :
    IsRounded (x.multiply y) (pointOf x.magnitude * pointOf y.magnitude) := by
  have hrounded := ofScaled (Nat.mul_pos (significand_pos hx') (significand_pos hy'))
    (x.exponent + y.exponent)
  unfold Binary64.multiply
  rw [hx, hy, bne_self_eq_false, ← significand_mul_zpow_exponent, ← significand_mul_zpow_exponent]
  rw [zpow_add₀ two_ne_zero, Nat.cast_mul, mul_mul_mul_comm] at hrounded
  exact hrounded

theorem divide (hx : x.isNegative = false) (hy : y.isNegative = false) (hx' : x.magnitude ≠ 0)
    (hy' : y.magnitude ≠ 0) :
    IsRounded (x.divide y) (pointOf x.magnitude / pointOf y.magnitude) := by
  have hsx := significand_pos hx'
  have hsy := significand_pos hy'
  have hpoints : pointOf x.magnitude / pointOf y.magnitude =
      x.significand * 2 ^ (x.exponent - y.exponent) / y.significand := by
    rw [← significand_mul_zpow_exponent, ← significand_mul_zpow_exponent, zpow_sub₀ two_ne_zero]
    have hpower : (2 : ℚ) ^ y.exponent ≠ 0 := zpow_ne_zero _ two_ne_zero
    field_simp
  unfold Binary64.divide
  rw [hx, hy, bne_self_eq_false, hpoints]
  dsimp only
  split
  · next he =>
    obtain ⟨k, hk⟩ := Int.eq_ofNat_of_zero_le he
    rw [hk, Int.toNat_natCast, zpow_natCast, Nat.shiftLeft_eq]
    have hrounded := ofRatio (Nat.mul_pos hsx (Nat.pow_pos two_pos : 0 < 2 ^ k)) hsy
    push_cast at hrounded
    exact hrounded
  · next he =>
    obtain ⟨k, hk⟩ := Int.eq_ofNat_of_zero_le (by omega : 0 ≤ -(x.exponent - y.exponent))
    rw [hk, Int.toNat_natCast, (by omega : x.exponent - y.exponent = -k), zpow_neg, zpow_natCast,
      Nat.shiftLeft_eq, ← div_eq_mul_inv, div_div, mul_comm ((2 : ℚ) ^ k)]
    have hrounded := ofRatio hsx (Nat.mul_pos hsy (Nat.pow_pos two_pos : 0 < 2 ^ k))
    push_cast at hrounded
    exact hrounded

end IsRounded

end ChunkStore.Binary64
