import ChunkStore.Json.Number
import ChunkStore.Proofs.Number.ShortestDecimal

/-!
# How exactly decimals are read

A significand and a power of ten are read in two roundings and a last one, by one power of ten or,
below `10 ^ -308`, by two.  The first two leave a number that is nearly the one that was written
(`IsNearly`), so what is read is at most two patterns away from the one that the decimal is rounded
to.  With a significand below `2 ^ 53` and a power of ten up to `10 ^ 22` they leave the number
itself.
-/

set_option autoImplicit false

namespace ChunkStore

namespace Binary64

variable {q q' a a' b b' : ℚ} {x : Binary64} {pattern magnitude : Nat}

/-! ### Nearly equal numbers -/

theorem IsHardlyAbove.inv (hq : 0 < q) (hq' : 0 < q') (h : IsHardlyAbove q q') :
    IsHardlyAbove q'⁻¹ q⁻¹ := by
  unfold IsHardlyAbove at h ⊢
  rw [inv_mul_eq_div, inv_mul_eq_div, div_le_div_iff₀ hq' hq]
  linarith

/-- Numbers of which neither is above the other by more than two errors of a rounding. -/
structure IsNearly (q q' : ℚ) : Prop where
  le : q * (2 ^ 53 * 2 ^ 53) ≤ q' * ((2 ^ 53 + 1) * (2 ^ 53 + 1))
  ge : q' * (2 ^ 53 * 2 ^ 53) ≤ q * ((2 ^ 53 + 1) * (2 ^ 53 + 1))

theorem IsHardlyAbove.mul_mul (ha : 0 ≤ a) (hb : 0 ≤ b') (hfirst : IsHardlyAbove a a')
    (hsecond : IsHardlyAbove b b') :
    a * b * (2 ^ 53 * 2 ^ 53) ≤ a' * b' * ((2 ^ 53 + 1) * (2 ^ 53 + 1)) := by
  unfold IsHardlyAbove at hfirst hsecond
  calc a * b * (2 ^ 53 * 2 ^ 53) = a * 2 ^ 53 * (b * 2 ^ 53) := by ring
    _ ≤ a * 2 ^ 53 * (b' * (2 ^ 53 + 1)) := mul_le_mul_of_nonneg_left hsecond (by positivity)
    _ ≤ a' * (2 ^ 53 + 1) * (b' * (2 ^ 53 + 1)) := mul_le_mul_of_nonneg_right hfirst (by positivity)
    _ = a' * b' * ((2 ^ 53 + 1) * (2 ^ 53 + 1)) := by ring

/-- What nearly equal numbers are rounded to is at most two patterns apart. -/
theorem RoundsTo.within_two (h : RoundsTo q pattern) (h' : RoundsTo q' magnitude) (hq : 0 < q)
    (hq' : 0 < q') (hnear : IsNearly q q') : pattern ≤ magnitude + 2 ∧ magnitude ≤ pattern + 2 :=
  ⟨h.le_add_two hq' h' hnear.le, h'.le_add_two hq h hnear.ge⟩

/-! ### Significands and powers of ten -/

/-- A positive number without a sign that is rounded in steps which are not the smallest. -/
structure IsNear (x : Binary64) (q : ℚ) : Prop where
  isNegative : x.isNegative = false
  normal : 2 ^ 52 * 2 ^ lowestExponent ≤ q
  roundsTo : RoundsTo q x.magnitude
  finite : x.magnitude < infinityMagnitude

namespace IsNear

theorem below (h : IsNear x q) : IsHardlyAbove q (pointOf x.magnitude) :=
  (h.roundsTo.isHardlyAbove h.normal).1

theorem above (h : IsNear x q) : IsHardlyAbove (pointOf x.magnitude) q :=
  (h.roundsTo.isHardlyAbove h.normal).2

theorem magnitude_ne_zero (h : IsNear x q) : x.magnitude ≠ 0 := by
  have hunit : (0 : ℚ) < 2 ^ lowestExponent := zpow_pos two_pos _
  have hnormal := h.normal
  refine (h.roundsTo.lt_of_middle_lt ?_).ne'
  rw [pointOf_zero, pointOf_one]
  linarith

end IsNear

theorem normal_of_one_le (hq : 1 ≤ q) : 2 ^ 52 * 2 ^ lowestExponent ≤ q := by
  refine le_trans ?_ hq
  rw [lowestExponent, ← zpow_natCast, ← zpow_add₀ two_ne_zero]
  exact zpow_le_one_of_nonpos₀ one_le_two (by decide)

theorem isNear_ofNat {n : Nat} (hn : 0 < n) (hword : n ≤ 2 ^ 64) : IsNear (ofNat n) n := by
  have hone : (1 : ℚ) ≤ n := by exact_mod_cast hn
  have hpoint : pointOf (1086 * 2 ^ 52 + 2 ^ 52) = (2 ^ 64 : Nat) := by
    rw [pointOf_binade]
    norm_num
  have hle : (n : ℚ) ≤ pointOf (1086 * 2 ^ 52 + 2 ^ 52) := by
    rw [hpoint]
    exact_mod_cast hword
  have hrounded := IsRounded.ofNat hn
  obtain ⟨hrounds, hfinite⟩ := hrounded.roundsTo hle (by decide)
  exact ⟨hrounded.isNegative, normal_of_one_le hone, hrounds, hfinite⟩

/-- A significand with at most 53 binary digits is taken over as it is. -/
theorem pointOf_ofNat {n : Nat} (hn : 0 < n) (hsmall : n < 2 ^ 53) :
    pointOf (ofNat n).magnitude = n := by
  have hnear := isNear_ofNat hn (by omega)
  have hrounds : RoundsTo ((n : ℚ) * 2 ^ (0 : Int)) (ofNat n).magnitude := by
    rw [zpow_zero, mul_one]
    exact hnear.roundsTo
  rw [hrounds.pointOf_eq hsmall (by decide), zpow_zero, mul_one]

/-- The largest power of ten that is used. -/
theorem pointOf_powerOfTen_308 :
    pointOf (powerOfTen 308).magnitude = (0x11ccf385ebc8a0 : Nat) * 2 ^ 971 := by
  have hpattern : (powerOfTen 308).magnitude = 2045 * 2 ^ 52 + 0x11ccf385ebc8a0 := by
    decide +kernel
  rw [hpattern, pointOf_of_steps (.inr (by norm_num)) (by norm_num), lowestExponent,
    ← zpow_natCast, ← zpow_natCast, ← zpow_add₀ two_ne_zero]
  congr 1

theorem ten_pow_308_le : (10 : ℚ) ^ 308 ≤ pointOf (powerOfTen 308).magnitude := by
  have hnat : 10 ^ 308 ≤ 0x11ccf385ebc8a0 * 2 ^ 971 := by decide +kernel
  rw [pointOf_powerOfTen_308]
  exact_mod_cast hnat

theorem isNear_powerOfTen {n : Nat} (hn : n ≤ 308) : IsNear (powerOfTen n) (10 ^ n) := by
  have hone : (1 : ℚ) ≤ 10 ^ n := one_le_pow₀ (by norm_num)
  have hle : (10 : ℚ) ^ n ≤ pointOf (powerOfTen 308).magnitude :=
    (pow_le_pow_right₀ (by norm_num) hn).trans ten_pow_308_le
  have hrounded := IsRounded.powerOfTen hn
  obtain ⟨hrounds, hfinite⟩ := hrounded.roundsTo hle (by decide +kernel)
  exact ⟨hrounded.isNegative, normal_of_one_le hone, hrounds, hfinite⟩

/-- Powers of ten up to `10 ^ 22` are exact. -/
theorem pointOf_powerOfTen {n : Nat} (hn : n ≤ 22) : pointOf (powerOfTen n).magnitude = 10 ^ n := by
  have hnear := isNear_powerOfTen (hn.trans (by decide))
  have hten : (10 : ℚ) ^ n = (5 ^ n : Nat) * 2 ^ (n : Int) := by
    rw [zpow_natCast, Nat.cast_pow, Nat.cast_ofNat, ← mul_pow]
    norm_num
  have hfive : 5 ^ n < 2 ^ 53 :=
    lt_of_le_of_lt (Nat.pow_le_pow_right (by decide) hn) (by decide)
  have hrounds := hnear.roundsTo
  rw [hten] at hrounds ⊢
  exact hrounds.pointOf_eq hfive (by unfold lowestExponent; omega)

/-! ### Products and quotients -/

/-- A number without a sign that is what a number near a given one is rounded to. -/
def Approximates (x : Binary64) (q : ℚ) : Prop :=
  ∃ q', 0 < q' ∧ IsNearly q q' ∧ IsRounded x q'

/-- An approximation of a number that is rounded to one well below the infinity is finite and at
most two patterns away. -/
theorem Approximates.within_two (h : Approximates x q) (hq : 0 < q) (hrounds : RoundsTo q magnitude)
    (hroom : magnitude + 2 < infinityMagnitude) :
    x.isNegative = false ∧ x.magnitude ≤ magnitude + 2 ∧ magnitude ≤ x.magnitude + 2 := by
  obtain ⟨q', hq', hnear, hsign, pattern, hrounds', hpattern⟩ := h
  obtain ⟨hbelow, habove⟩ := hrounds.within_two hrounds' hq hq' hnear
  rw [hpattern, Nat.min_eq_right (by omega)]
  exact ⟨hsign, habove, hbelow⟩

section

variable {y : Binary64} (hx : IsNear x a) (hy : IsNear y b)
include hx hy

theorem approximates_multiply (ha : 0 < a) (hb : 0 < b) : Approximates (x.multiply y) (a * b) := by
  have hx' := pointOf_pos hx.magnitude_ne_zero
  have hy' := pointOf_pos hy.magnitude_ne_zero
  refine ⟨_, mul_pos hx' hy', ⟨?_, ?_⟩, IsRounded.multiply hx.isNegative hy.isNegative
    hx.magnitude_ne_zero hy.magnitude_ne_zero⟩
  · exact hx.below.mul_mul ha.le hy'.le hy.below
  · exact hx.above.mul_mul hx'.le hb.le hy.above

theorem approximates_divide (ha : 0 < a) (hb : 0 < b) : Approximates (x.divide y) (a / b) := by
  have hx' := pointOf_pos hx.magnitude_ne_zero
  have hy' := pointOf_pos hy.magnitude_ne_zero
  refine ⟨_, div_pos hx' hy', ⟨?_, ?_⟩, IsRounded.divide hx.isNegative hy.isNegative
    hx.magnitude_ne_zero hy.magnitude_ne_zero⟩
  · rw [div_eq_mul_inv, div_eq_mul_inv]
    exact hx.below.mul_mul ha.le (inv_nonneg.2 hy'.le) (hy.above.inv hy' hb)
  · rw [div_eq_mul_inv, div_eq_mul_inv]
    exact hx.above.mul_mul hx'.le (inv_nonneg.2 hb.le) (hy.below.inv hb hy')

end

/-! ### Two divisions -/

/-- The significand of the largest power of ten that is used. -/
def largestSignificand : Nat :=
  0x11ccf385ebc8a0

/-- A number of steps rounded to one not below the significand of the largest power of ten. -/
theorem IsNearestTo.le_of_largestSignificand_le {steps : Nat} {t : ℚ} (h : IsNearestTo steps t)
    (hsteps : largestSignificand ≤ steps) :
    t * (2 * largestSignificand) ≤ steps * (2 * largestSignificand + 1) := by
  have hcast : (largestSignificand : ℚ) ≤ steps := by exact_mod_cast hsteps
  have hnonneg : (0 : ℚ) ≤ largestSignificand := Nat.cast_nonneg _
  nlinarith [h.ge]

/-- Of a number and its quotient by the largest power of ten, one has at least as many steps as the
power of ten. -/
theorem largestSignificand_le_or_le {binade binade' : Nat} {n t : ℚ} (hleast : 2 ^ 52 ≤ n)
    (hmany : 2 ^ 52 ≤ t)
    (h : n * 2 ^ binade = t * largestSignificand * 2 ^ (binade' + 971)) :
    largestSignificand ≤ n ∨ largestSignificand ≤ t := by
  have hpos : (0 : ℚ) < 2 ^ (binade' + 971) := pow_pos two_pos _
  have hlarge : (2 : ℚ) ^ 52 < largestSignificand ∧
      (largestSignificand : ℚ) * largestSignificand ≤ 2 ^ 52 * 2 ^ 53 := by
    unfold largestSignificand
    norm_num
  have hpower : (2 : ℚ) ^ binade ≤ 2 ^ (binade' + 971) * 2 ^ 52 ∨
      2 ^ (binade' + 971) * 2 ^ 53 ≤ (2 : ℚ) ^ binade := by
    rw [← pow_add, ← pow_add]
    rcases le_or_gt binade (binade' + 971 + 52) with hle | hgt
    · exact .inl (pow_le_pow_right₀ one_le_two hle)
    · exact .inr (pow_le_pow_right₀ one_le_two hgt)
  generalize (2 : ℚ) ^ (binade' + 971) = size at h hpos hpower
  generalize (largestSignificand : ℚ) = k at h hlarge ⊢
  refine hpower.imp (fun hless => ?_) (fun hmore => ?_)
  · have hbound : t * k ≤ n * 2 ^ 52 := by
      apply le_of_mul_le_mul_right _ hpos
      calc t * k * size = n * 2 ^ binade := h.symm
        _ ≤ n * (size * 2 ^ 52) := mul_le_mul_of_nonneg_left hless (by linarith)
        _ = n * 2 ^ 52 * size := by ring
    nlinarith
  · have hbound : n * 2 ^ 53 ≤ t * k := by
      apply le_of_mul_le_mul_right _ hpos
      calc n * 2 ^ 53 * size = n * (size * 2 ^ 53) := by ring
        _ ≤ n * 2 ^ binade := mul_le_mul_of_nonneg_left hmore (by linarith)
        _ = t * k * size := h
    nlinarith

/-- Two bounds, one on top of the other. -/
theorem mul_le_mul_of_bounds {u u' v v' : ℚ} (hu' : 0 ≤ u') (hv : 0 ≤ v) (hfirst : a * u ≤ b * v)
    (hsecond : b * u' ≤ q * v') : a * (u * u') ≤ q * (v * v') :=
  calc a * (u * u') = a * u * u' := by ring
    _ ≤ b * v * u' := mul_le_mul_of_nonneg_right hfirst hu'
    _ = b * u' * v := by ring
    _ ≤ q * v' * v := mul_le_mul_of_nonneg_right hsecond hv
    _ = q * (v * v') := by ring

theorem pointOf_powerOfTen_308_pos : 0 < pointOf (powerOfTen 308).magnitude :=
  pointOf_pos (isNear_powerOfTen le_rfl).magnitude_ne_zero

/-- The error of the largest power of ten and that of a number with at least as many steps are less
than the error of a rounding. -/
theorem pointOf_powerOfTen_308_mul_le :
    pointOf (powerOfTen 308).magnitude * ((2 * largestSignificand + 1) * 2 ^ 53) ≤
      10 ^ 308 * (2 * largestSignificand * (2 ^ 53 + 1)) := by
  have hnat : 0x11ccf385ebc8a0 * 2 ^ 971 * ((2 * 0x11ccf385ebc8a0 + 1) * 2 ^ 53) ≤
      10 ^ 308 * (2 * 0x11ccf385ebc8a0 * (2 ^ 53 + 1)) := by decide +kernel
  rw [pointOf_powerOfTen_308, largestSignificand]
  exact_mod_cast hnat

section

variable {other : Nat} (hq : RoundsTo q pattern)
  (hnormal : 2 ^ 52 * 2 ^ lowestExponent ≤ q)
  (hquotient : RoundsTo (pointOf pattern / pointOf (powerOfTen 308).magnitude) other)
  (hnormal' : 2 ^ 52 * 2 ^ lowestExponent ≤
    pointOf pattern / pointOf (powerOfTen 308).magnitude)
include hq hnormal hquotient hnormal'

/-- A number is rounded and divided by the largest power of ten, and the quotient is rounded.  One
of the two has so many steps that its error is small. -/
theorem mul_le_of_roundsTo_quotient :
    q * (2 * largestSignificand * 2 ^ 53) ≤
      pointOf other * pointOf (powerOfTen 308).magnitude *
        ((2 * largestSignificand + 1) * (2 ^ 53 + 1)) := by
  have hbelow := (hq.isHardlyAbove hnormal).1
  have hbelow' := (hquotient.isHardlyAbove hnormal').1
  obtain ⟨binade, steps, t, rfl, hpoint, hmany, hleast, hnearest⟩ := hq.exists_normal_steps hnormal
  obtain ⟨binade', steps', t', hsplit, hpoint', hmany', hleast', hnearest'⟩ :=
    hquotient.exists_normal_steps hnormal'
  have hsize := size_pos binade
  have hsize' := size_pos binade'
  have hten := pointOf_powerOfTen_308_pos
  have hcount : (steps : ℚ) * 2 ^ binade = t' * largestSignificand * 2 ^ (binade' + 971) := by
    have hunit : (2 : ℚ) ^ lowestExponent ≠ 0 := (zpow_pos two_pos _).ne'
    rw [div_eq_iff hten.ne', hpoint, pointOf_powerOfTen_308] at hsplit
    apply mul_right_cancel₀ hunit
    rw [pow_add, largestSignificand]
    generalize (2 : ℚ) ^ 971 = size at hsplit ⊢
    linarith
  generalize pointOf (powerOfTen 308).magnitude = p at hsplit hbelow' hten ⊢
  have hproduct : ∀ {u v : ℚ}, pointOf pattern / p * u ≤ pointOf other * v →
      pointOf pattern * u ≤ pointOf other * p * v := by
    intro u v h
    rw [div_mul_eq_mul_div, div_le_iff₀ hten] at h
    linarith
  have hmore : (2 : ℚ) ^ 52 ≤ steps := by exact_mod_cast hleast
  rcases largestSignificand_le_or_le hmore hmany' hcount with hfine | hfine
  · have hfirst := hnearest.le_of_largestSignificand_le (by exact_mod_cast hfine)
    refine mul_le_mul_of_bounds (by positivity) (by positivity) ?_ (hproduct hbelow')
    rw [hpoint]
    nlinarith
  · have hnat : largestSignificand ≤ steps' := by
      have hcast : (2 * largestSignificand : ℚ) ≤ 2 * steps' + 1 := by linarith [hnearest'.ge]
      have hless : 2 * largestSignificand ≤ 2 * steps' + 1 := by exact_mod_cast hcast
      omega
    have hsecond := hnearest'.le_of_largestSignificand_le hnat
    rw [mul_comm (2 * (largestSignificand : ℚ)), mul_comm (2 * (largestSignificand : ℚ) + 1)]
    refine mul_le_mul_of_bounds (by positivity) (by positivity) hbelow (hproduct ?_)
    rw [hsplit, hpoint']
    nlinarith

/-- The error of the power of ten adds nothing to those of the two roundings. -/
theorem le_of_roundsTo_quotient :
    q * (2 ^ 53 * 2 ^ 53) ≤ pointOf other * 10 ^ 308 * ((2 ^ 53 + 1) * (2 ^ 53 + 1)) := by
  have hcombined := mul_le_of_roundsTo_quotient hq hnormal hquotient hnormal'
  have herror := pointOf_powerOfTen_308_mul_le
  have hpositive : (0 : ℚ) < largestSignificand := by
    unfold largestSignificand
    norm_num
  have hother : 0 ≤ pointOf other := mul_nonneg (Nat.cast_nonneg _) (zpow_pos two_pos _).le
  generalize pointOf (powerOfTen 308).magnitude = p at hcombined herror
  generalize pointOf other = o at hcombined hother ⊢
  generalize (10 : ℚ) ^ 308 = ten at herror ⊢
  apply le_of_mul_le_mul_right _ (mul_pos two_pos hpositive)
  calc q * (2 ^ 53 * 2 ^ 53) * (2 * largestSignificand)
      = q * (2 * largestSignificand * 2 ^ 53) * 2 ^ 53 := by ring
    _ ≤ o * p * ((2 * largestSignificand + 1) * (2 ^ 53 + 1)) * 2 ^ 53 :=
        mul_le_mul_of_nonneg_right hcombined (by positivity)
    _ = o * (2 ^ 53 + 1) * (p * ((2 * largestSignificand + 1) * 2 ^ 53)) := by ring
    _ ≤ o * (2 ^ 53 + 1) * (ten * (2 * largestSignificand * (2 ^ 53 + 1))) :=
        mul_le_mul_of_nonneg_left herror (by positivity)
    _ = o * ten * ((2 ^ 53 + 1) * (2 ^ 53 + 1)) * (2 * largestSignificand) := by ring

end

/-- The quotient by the largest power of ten has normal steps if the dividend is at least three. -/
theorem normal_of_quotient {n : Nat} (hn : 3 ≤ n) (hx : IsNear x n) :
    2 ^ 52 * 2 ^ lowestExponent ≤
      pointOf x.magnitude / pointOf (powerOfTen 308).magnitude := by
  have hsize : 2 ^ 52 * 2 ^ lowestExponent * (2 : ℚ) ^ 971 * 2 ^ 51 = 1 := by
    rw [lowestExponent, ← zpow_natCast, ← zpow_natCast, ← zpow_natCast, ← zpow_add₀ two_ne_zero,
      ← zpow_add₀ two_ne_zero, ← zpow_add₀ two_ne_zero]
    norm_num
  have hthree : (3 : ℚ) ≤ n := by exact_mod_cast hn
  have hbelow := hx.below
  unfold IsHardlyAbove at hbelow
  rw [le_div_iff₀ pointOf_powerOfTen_308_pos, pointOf_powerOfTen_308]
  generalize (2 : ℚ) ^ 971 = size at hsize
  push_cast
  linarith

/-- A significand of at least three is divided by the largest power of ten and by a small one. -/
theorem approximates_divide_divide {n k : Nat} (hn : 3 ≤ n) (hx : IsNear x n) (hk : k ≤ 22) :
    Approximates ((x.divide (powerOfTen 308)).divide (powerOfTen k)) (n / 10 ^ 308 / 10 ^ k) := by
  have hten := isNear_powerOfTen (le_refl 308)
  have hx' := pointOf_pos hx.magnitude_ne_zero
  have hnormal := normal_of_quotient hn hx
  have hone : (1 : ℚ) ≤ pointOf (powerOfTen 308).magnitude :=
    (one_le_pow₀ (by norm_num)).trans ten_pow_308_le
  have hrounded := IsRounded.divide hx.isNegative hten.isNegative hx.magnitude_ne_zero
    hten.magnitude_ne_zero
  obtain ⟨hrounds, hfinite⟩ := hrounded.roundsTo (div_le_self hx'.le hone) hx.finite
  have hz : IsNear (x.divide (powerOfTen 308)) _ := ⟨hrounded.isNegative, hnormal, hrounds, hfinite⟩
  have hsmall := isNear_powerOfTen (hk.trans (by decide))
  have hquotient := IsRounded.divide hz.isNegative hsmall.isNegative hz.magnitude_ne_zero
    hsmall.magnitude_ne_zero
  rw [pointOf_powerOfTen hk] at hquotient
  have hpower : (0 : ℚ) < 10 ^ k := pow_pos (by norm_num) k
  have hscale : ∀ {u v c d : ℚ}, u * c ≤ v * d → u / 10 ^ k * c ≤ v / 10 ^ k * d := by
    intro u v c d h
    rw [div_mul_eq_mul_div, div_mul_eq_mul_div]
    exact div_le_div_of_nonneg_right h hpower.le
  have hlarge : (0 : ℚ) < 10 ^ 308 := pow_pos (by norm_num) 308
  have hbelow := le_of_roundsTo_quotient hx.roundsTo hx.normal hrounds hnormal
  have hless := ten_pow_308_le
  generalize (10 : ℚ) ^ 308 = ten at hlarge hbelow hless ⊢
  refine ⟨_, div_pos (pointOf_pos hz.magnitude_ne_zero) hpower, ⟨hscale ?_, hscale ?_⟩, hquotient⟩
  · rw [div_mul_eq_mul_div, div_le_iff₀ hlarge]
    linarith
  · refine mul_le_mul_of_bounds (by positivity) (by positivity) hz.above ?_
    have habove := hx.above
    unfold IsHardlyAbove at habove
    calc pointOf x.magnitude / pointOf (powerOfTen 308).magnitude * 2 ^ 53
        ≤ pointOf x.magnitude / ten * 2 ^ 53 :=
          mul_le_mul_of_nonneg_right (div_le_div_of_nonneg_left hx'.le hlarge hless) (by positivity)
      _ = pointOf x.magnitude * 2 ^ 53 / ten := by ring
      _ ≤ n * (2 ^ 53 + 1) / ten := div_le_div_of_nonneg_right habove hlarge.le
      _ = n / ten * (2 ^ 53 + 1) := by ring

/-- What is rounded to a finite number comes out as it. -/
theorem IsRounded.magnitude_eq (h : IsRounded x q) (hrounds : RoundsTo q magnitude)
    (hfinite : magnitude < infinityMagnitude) : x.magnitude = magnitude := by
  obtain ⟨pattern, hrounds', hmagnitude⟩ := h.magnitude
  rw [hmagnitude, hrounds'.unique hrounds, Nat.min_eq_right hfinite.le]

end Binary64

namespace Json.Number

open Binary64

variable {significand magnitude : Nat} {x : Binary64}

/-! ### Applying an exponent -/

theorem applyExponent?_natCast (fuel : Nat) (x : Binary64) {n : Nat} (hn : n ≤ 308) :
    applyExponent? (fuel + 1) x n =
      if (x.multiply (.powerOfTen n)).isFinite then some (x.multiply (.powerOfTen n))
      else none := by
  unfold applyExponent?
  rw [if_pos (by omega), if_pos (by omega), Int.toNat_natCast]

theorem applyExponent?_neg (fuel : Nat) (x : Binary64) {n : Nat} (hpos : 0 < n) (hn : n ≤ 308) :
    applyExponent? (fuel + 1) x (-n) = some (x.divide (.powerOfTen n)) := by
  unfold applyExponent?
  rw [if_pos (by omega), if_neg (by omega), neg_neg, Int.toNat_natCast]

theorem applyExponent?_far (fuel : Nat) (hx : x.magnitude ≠ 0) {k : Nat} (hpos : 0 < k)
    (hk : k ≤ 308) :
    applyExponent? (fuel + 2) x (-(308 + k : Nat)) =
      some ((x.divide (.powerOfTen 308)).divide (.powerOfTen k)) := by
  have hrest : (-(308 + k : Nat) : Int) + 308 = -k := by omega
  rw [applyExponent?, if_neg (by omega), if_neg hx, if_neg (by omega), hrest]
  exact applyExponent?_neg fuel _ hpos hk

/-- Nothing is lost in reading the smallest significands far below `10 ^ -308`. -/
theorem tiny_table :
    ((List.range 16).all fun k => [1, 2].all fun significand =>
      (applyExponent? 4 (.ofNat significand) (-(309 + k : Nat))).map
          (fun x => (x.isNegative, x.magnitude)) ==
        some (false, roundRatio significand (10 ^ (309 + k)))) = true := by
  decide +kernel

/-- A number with a given sign whose pattern below the sign is at most two away from a given one. -/
structure IsWithinTwo (x : Binary64) (negative : Bool) (magnitude : Nat) : Prop where
  isNegative : x.isNegative = negative
  le : x.magnitude ≤ magnitude + 2
  ge : magnitude ≤ x.magnitude + 2

theorem exists_applyExponent?_natCast (hpos : 0 < significand) (hword : significand ≤ 2 ^ 64)
    {n : Nat} (hn : n ≤ 308) (hrounds : RoundsTo (significand * 10 ^ n) magnitude)
    (hroom : magnitude + 2 < infinityMagnitude) :
    ∃ x, applyExponent? 4 (.ofNat significand) n = some x ∧ IsWithinTwo x false magnitude ∧
      (significand < 2 ^ 53 → n ≤ 22 → x.magnitude = magnitude) := by
  have hx := isNear_ofNat hpos hword
  have hy := isNear_powerOfTen hn
  have hcast : (0 : ℚ) < significand := Nat.cast_pos.2 hpos
  have hpower : (0 : ℚ) < 10 ^ n := pow_pos (by norm_num) n
  obtain ⟨hsign, hle, hge⟩ := (approximates_multiply hx hy hcast hpower).within_two
    (mul_pos hcast hpower) hrounds hroom
  refine ⟨_, ?_, ⟨hsign, hle, hge⟩, fun hsmall hfew => ?_⟩
  · have hfinite : ((Binary64.ofNat significand).multiply (powerOfTen n)).isFinite = true :=
      decide_eq_true (by omega)
    rw [applyExponent?_natCast 3 _ hn, if_pos hfinite]
  · have hproduct := IsRounded.multiply hx.isNegative hy.isNegative hx.magnitude_ne_zero
      hy.magnitude_ne_zero
    rw [pointOf_ofNat hpos hsmall, pointOf_powerOfTen hfew] at hproduct
    exact hproduct.magnitude_eq hrounds (by omega)

theorem exists_applyExponent?_neg (hpos : 0 < significand) (hword : significand ≤ 2 ^ 64)
    {n : Nat} (hnpos : 0 < n) (hn : n ≤ 308) (hrounds : RoundsTo (significand / 10 ^ n) magnitude)
    (hroom : magnitude + 2 < infinityMagnitude) :
    ∃ x, applyExponent? 4 (.ofNat significand) (-n) = some x ∧ IsWithinTwo x false magnitude ∧
      (significand < 2 ^ 53 → n ≤ 22 → x.magnitude = magnitude) := by
  have hx := isNear_ofNat hpos hword
  have hy := isNear_powerOfTen hn
  have hcast : (0 : ℚ) < significand := Nat.cast_pos.2 hpos
  have hpower : (0 : ℚ) < 10 ^ n := pow_pos (by norm_num) n
  obtain ⟨hsign, hle, hge⟩ := (approximates_divide hx hy hcast hpower).within_two
    (div_pos hcast hpower) hrounds hroom
  refine ⟨_, applyExponent?_neg 3 _ hnpos hn, ⟨hsign, hle, hge⟩, fun hsmall hfew => ?_⟩
  have hquotient := IsRounded.divide hx.isNegative hy.isNegative hx.magnitude_ne_zero
    hy.magnitude_ne_zero
  rw [pointOf_ofNat hpos hsmall, pointOf_powerOfTen hfew] at hquotient
  exact hquotient.magnitude_eq hrounds (by omega)

theorem exists_applyExponent?_far (hpos : 0 < significand) (hword : significand ≤ 2 ^ 64)
    {k : Nat} (hkpos : 0 < k) (hk : k ≤ 16)
    (hrounds : RoundsTo (significand / 10 ^ (308 + k)) magnitude)
    (hroom : magnitude + 2 < infinityMagnitude) :
    ∃ x, applyExponent? 4 (.ofNat significand) (-(308 + k : Nat)) = some x ∧
      IsWithinTwo x false magnitude := by
  have hx := isNear_ofNat hpos hword
  by_cases hthree : 3 ≤ significand
  · have hcast : (0 : ℚ) < significand := Nat.cast_pos.2 hpos
    have hsplit : (significand : ℚ) / 10 ^ (308 + k) = significand / 10 ^ 308 / 10 ^ k := by
      rw [div_div, ← pow_add]
    have hpositive : (0 : ℚ) < significand / 10 ^ (308 + k) :=
      div_pos hcast (pow_pos (by norm_num) _)
    have hnear := approximates_divide_divide hthree hx (by omega : k ≤ 22)
    rw [← hsplit] at hnear
    obtain ⟨hsign, hle, hge⟩ := hnear.within_two hpositive hrounds hroom
    exact ⟨_, applyExponent?_far 2 hx.magnitude_ne_zero hkpos (by omega), ⟨hsign, hle, hge⟩⟩
  · obtain ⟨before, rfl⟩ := Nat.exists_eq_succ_of_ne_zero hkpos.ne'
    have hsum : 308 + (before + 1) = 309 + before := by omega
    have hmem : significand ∈ [1, 2] := by
      simp only [List.mem_cons, List.not_mem_nil, or_false]
      omega
    have hrow := List.all_eq_true.1 tiny_table before (List.mem_range.2 (by omega))
    have hentry := eq_of_beq (List.all_eq_true.1 hrow significand hmem)
    obtain ⟨x, hread, hpair⟩ := Option.map_eq_some_iff.1 hentry
    obtain ⟨hsign, hratio⟩ := Prod.mk.inj hpair
    obtain ⟨pattern, hrounds', hround⟩ := exists_roundsTo_roundRatio hpos
      (Nat.pow_pos (by decide : 0 < 10) : 0 < 10 ^ (309 + before))
    rw [Nat.succ_eq_add_one, hsum] at hrounds ⊢
    push_cast at hrounds'
    have hsame : x.magnitude = magnitude := by
      rw [hratio, hround, hrounds'.unique hrounds, Nat.min_eq_right (by omega)]
    exact ⟨x, hread, hsign, by omega, by omega⟩

/-- Applying a power of ten to a significand comes out at most two patterns away from what their
product is rounded to, and as that if both are small. -/
theorem exists_applyExponent? (hpos : 0 < significand) (hword : significand ≤ 2 ^ 64)
    {exponent : Int} (hlow : -324 ≤ exponent) (hhigh : exponent ≤ 308)
    (hrounds : RoundsTo (significand * 10 ^ exponent) magnitude)
    (hroom : magnitude + 2 < infinityMagnitude) :
    ∃ x, applyExponent? 4 (.ofNat significand) exponent = some x ∧
      IsWithinTwo x false magnitude ∧
      (significand < 2 ^ 53 → exponent.natAbs ≤ 22 → x.magnitude = magnitude) := by
  rcases le_or_gt 0 exponent with hup | hdown
  · obtain ⟨n, rfl⟩ := Int.eq_ofNat_of_zero_le hup
    rw [zpow_natCast] at hrounds
    obtain ⟨x, hx, hnear, hexact⟩ :=
      exists_applyExponent?_natCast hpos hword (by omega) hrounds hroom
    exact ⟨x, hx, hnear, fun hsmall hfew => hexact hsmall (by omega)⟩
  · obtain ⟨n, hn⟩ := Int.eq_ofNat_of_zero_le (by omega : 0 ≤ -exponent)
    obtain rfl : exponent = -n := by omega
    rw [zpow_neg, zpow_natCast, ← div_eq_mul_inv] at hrounds
    rcases le_or_gt n 308 with hnear | hfar
    · obtain ⟨x, hx, hnear, hexact⟩ :=
        exists_applyExponent?_neg hpos hword (by omega) hnear hrounds hroom
      exact ⟨x, hx, hnear, fun hsmall hfew => hexact hsmall (by omega)⟩
    · obtain ⟨k, rfl⟩ := Nat.exists_eq_add_of_le hfar.le
      obtain ⟨x, hx, hnear⟩ :=
        exists_applyExponent?_far hpos hword (by omega) (by omega) hrounds hroom
      exact ⟨x, hx, hnear, fun _ hfew => by omega⟩

/-- What is read for a significand and a power of ten is at most two patterns away from what their
product is rounded to, and is that if both are small. -/
theorem exists_ofParts? (negative : Bool) (hpos : 0 < significand) (hword : significand ≤ 2 ^ 64)
    {exponent : Int} (hlow : -324 ≤ exponent) (hhigh : exponent ≤ 308)
    (hrounds : RoundsTo (significand * 10 ^ exponent) magnitude)
    (hroom : magnitude + 2 < infinityMagnitude) :
    ∃ x, ofParts? negative significand exponent = some x ∧ IsWithinTwo x negative magnitude ∧
      (significand < 2 ^ 53 → exponent.natAbs ≤ 22 → x.magnitude = magnitude) := by
  obtain ⟨x, hx, ⟨hsign, hle, hge⟩, hexact⟩ :=
    exists_applyExponent? hpos hword hlow hhigh hrounds hroom
  unfold ofParts?
  rw [hx, Option.map_some]
  cases negative with
  | false => exact ⟨x, rfl, ⟨hsign, hle, hge⟩, hexact⟩
  | true =>
    refine ⟨x.negate, rfl, ⟨?_, ?_, ?_⟩, ?_⟩
    · rw [isNegative_negate, hsign, Bool.not_false]
    · rwa [magnitude_negate]
    · rwa [magnitude_negate]
    · rwa [magnitude_negate]

end Json.Number

end ChunkStore
