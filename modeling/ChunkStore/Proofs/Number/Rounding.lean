import ChunkStore.Proofs.Number.DoubleOrder

/-!
# Rounding to double precision

A positive number is rounded in steps of a power of two: the step is the smallest one, or the
largest one of which the number has at least `2 ^ 52`.  The whole number of steps nearest to it is
the pattern that it is rounded to, counted on from the patterns of smaller steps.  So a number is
rounded up or down at the middle between two patterns, and its relative error is at most `2 ^ -53`
where the steps are not the smallest.
-/

set_option autoImplicit false

namespace ChunkStore.Binary64

/-! ### Nearest integers -/

/-- A natural number nearest to a number; of two that are, the even one. -/
structure IsNearestTo (n : Nat) (t : ℚ) : Prop where
  le : 2 * (n : ℚ) ≤ 2 * t + 1
  ge : 2 * t ≤ 2 * (n : ℚ) + 1
  even_of_above : 2 * (n : ℚ) = 2 * t + 1 → n % 2 = 0
  even_of_below : 2 * t = 2 * (n : ℚ) + 1 → n % 2 = 0

theorem isNearestTo_divideToEven (num : Nat) {den : Nat} (hden : 0 < den) :
    IsNearestTo (divideToEven num den) (num / den) := by
  have hpos : (0 : ℚ) < den := Nat.cast_pos.2 hden
  have hmod := Nat.mod_lt num hden
  have hsplit : (num : ℚ) / den = (num / den : Nat) + (num % den : Nat) / den := by
    rw [eq_comm, eq_div_iff hpos.ne', add_mul, div_mul_cancel₀ _ hpos.ne', mul_comm]
    exact_mod_cast Nat.div_add_mod num den
  have hrest : (num % den : Nat) / (den : ℚ) * den = (num % den : Nat) :=
    div_mul_cancel₀ _ hpos.ne'
  rw [hsplit]
  unfold divideToEven
  generalize num / den = quotient
  generalize num % den = rest at hmod hrest
  generalize hpart : (rest : ℚ) / den = part at hrest
  dsimp only
  split
  · next hlow =>
    have hless : 2 * part < 1 := by
      have hcast : (2 : ℚ) * rest < den := by exact_mod_cast hlow
      nlinarith
    have hnonneg : 0 ≤ part := hpart ▸ div_nonneg (Nat.cast_nonneg _) hpos.le
    constructor <;> intros <;> linarith
  · split
    · next hhigh =>
      have hmore : 1 < 2 * part := by
        have hcast : (den : ℚ) < 2 * rest := by exact_mod_cast hhigh
        nlinarith
      have hless : part < 1 := by
        have hcast : (rest : ℚ) < den := by exact_mod_cast hmod
        nlinarith
      constructor <;> push_cast <;> intros <;> linarith
    · next hlow hhigh =>
      have hhalf : 2 * part = 1 := by
        have hcast : (2 : ℚ) * rest = den := by exact_mod_cast (by omega : 2 * rest = den)
        nlinarith
      rcases Nat.mod_two_eq_zero_or_one quotient with heven | hodd
      · rw [heven]
        exact ⟨by push_cast; linarith, by push_cast; linarith, fun _ => heven, fun _ => heven⟩
      · rw [hodd]
        have hnext : (quotient + 1) % 2 = 0 := by omega
        exact ⟨by push_cast; linarith, by push_cast; linarith, fun _ => hnext, fun _ => hnext⟩

/-! ### Patterns in steps -/

/-- The exponent of the smallest positive number, `2 ^ -1074`. -/
def lowestExponent : Int :=
  -1074

/-- The number that a pattern without its sign stands for. -/
def pointOf (magnitude : Nat) : ℚ :=
  unitsOf 52 magnitude * 2 ^ lowestExponent

theorem pointOf_le_pointOf_iff {magnitude other : Nat} :
    pointOf magnitude ≤ pointOf other ↔ magnitude ≤ other := by
  unfold pointOf
  rw [mul_le_mul_iff_left₀ (zpow_pos two_pos _), Nat.cast_le, unitsOf_le_unitsOf_iff]

theorem pointOf_lt_pointOf_iff {magnitude other : Nat} :
    pointOf magnitude < pointOf other ↔ magnitude < other := by
  rw [← not_le, pointOf_le_pointOf_iff, not_le]

/-- Patterns are counted on from binade to binade: each has `2 ^ 52` steps, beside the first, which
has as many more. -/
theorem unitsOf_of_steps {binade steps : Nat} (hlow : binade = 0 ∨ 2 ^ 52 ≤ steps)
    (hhigh : steps ≤ 2 ^ 53) : unitsOf 52 (binade * 2 ^ 52 + steps) = steps * 2 ^ binade := by
  have hwidth : (2 : Nat) ^ 53 = 2 * 2 ^ 52 := by norm_num
  unfold unitsOf
  rw [hwidth] at hhigh
  have hpositive : 0 < 2 ^ 52 := by norm_num
  generalize 2 ^ 52 = size at hlow hhigh hpositive ⊢
  by_cases hsmall : steps < size
  · obtain rfl : binade = 0 := by omega
    rw [Nat.zero_mul, Nat.zero_add, Nat.div_eq_of_lt hsmall, if_pos rfl, pow_zero, Nat.mul_one]
  · by_cases hfull : steps = 2 * size
    · have hcarry : binade * size + steps = (binade + 2) * size := by rw [hfull]; ring
      rw [hcarry, Nat.mul_div_cancel _ hpositive, Nat.mul_mod_left, if_neg (by omega), hfull]
      show (size + 0) * 2 ^ (binade + 1) = _
      ring
    · obtain ⟨rest, rfl⟩ := Nat.exists_eq_add_of_le (Nat.not_lt.1 hsmall)
      have hrest : rest < size := by omega
      have hsum : binade * size + (size + rest) = rest + size * (binade + 1) := by ring
      rw [hsum, Nat.add_mul_div_left _ _ hpositive, Nat.add_mul_mod_self_left,
        Nat.div_eq_of_lt hrest, Nat.mod_eq_of_lt hrest, Nat.zero_add, if_neg (by omega),
        Nat.add_sub_cancel]

theorem pointOf_of_steps {binade steps : Nat} (hlow : binade = 0 ∨ 2 ^ 52 ≤ steps)
    (hhigh : steps ≤ 2 ^ 53) :
    pointOf (binade * 2 ^ 52 + steps) = steps * (2 ^ binade * 2 ^ lowestExponent) := by
  unfold pointOf
  rw [unitsOf_of_steps hlow hhigh]
  push_cast
  ring

theorem pointOf_zero : pointOf 0 = 0 := by
  unfold pointOf
  rw [unitsOf_zero, Nat.cast_zero, zero_mul]

theorem pointOf_one : pointOf 1 = 2 ^ lowestExponent := by
  have hstep := @pointOf_of_steps 0 1 (.inl rfl) (by norm_num)
  rwa [Nat.zero_mul, Nat.zero_add, Nat.cast_one, pow_zero, one_mul, one_mul] at hstep

/-- The first number of a binade is a power of two. -/
theorem pointOf_binade (binade : Nat) :
    pointOf (binade * 2 ^ 52 + 2 ^ 52) = 2 ^ ((binade : Int) - 1022) := by
  rw [pointOf_of_steps (.inr le_rfl) (by norm_num), lowestExponent, Nat.cast_pow, Nat.cast_ofNat,
    ← zpow_natCast, ← zpow_natCast, ← zpow_add₀ two_ne_zero, ← zpow_add₀ two_ne_zero]
  congr 1
  push_cast
  ring

theorem size_pos (binade : Nat) : (0 : ℚ) < 2 ^ binade * 2 ^ lowestExponent :=
  mul_pos (pow_pos two_pos _) (zpow_pos two_pos _)

/-- Every pattern is a number of steps in a binade. -/
theorem exists_steps (pattern : Nat) : ∃ binade steps, pattern = binade * 2 ^ 52 + steps ∧
    (binade = 0 ∨ 2 ^ 52 ≤ steps) ∧ steps < 2 ^ 53 :=
  ⟨pattern / 2 ^ 52 - 1, pattern - (pattern / 2 ^ 52 - 1) * 2 ^ 52, by omega, by omega, by omega⟩

/-- The distance from a pattern to the next is more than a `2 ^ 54`th part of their sum. -/
theorem sum_lt_distance (pattern : Nat) :
    pointOf pattern + pointOf (pattern + 1) <
      2 ^ 54 * (pointOf (pattern + 1) - pointOf pattern) := by
  obtain ⟨binade, steps, rfl, hlow, hhigh⟩ := exists_steps pattern
  have hsize := size_pos binade
  have hnext := @pointOf_of_steps binade (steps + 1) (hlow.imp_right Nat.le_succ_of_le) hhigh
  rw [Nat.add_assoc, pointOf_of_steps hlow hhigh.le, hnext]
  generalize (2 : ℚ) ^ binade * 2 ^ lowestExponent = size at hsize
  have hfew : (steps : ℚ) + 1 ≤ 2 ^ 53 := by exact_mod_cast hhigh
  push_cast
  nlinarith

/-- A positive number is rounded to a pattern: it is `t` steps of the smallest size, or of the size
of which it has at least `2 ^ 52`, and the pattern counts the nearest whole number of them. -/
inductive RoundsTo (q : ℚ) : Nat → Prop where
  | steps {binade steps : Nat} {t : ℚ} (hq : q = t * (2 ^ binade * 2 ^ lowestExponent))
      (hlow : binade = 0 ∨ 2 ^ 52 ≤ t) (hhigh : t < 2 ^ 53) (hnearest : IsNearestTo steps t) :
      RoundsTo q (binade * 2 ^ 52 + steps)

/-- Not more than a `2 ^ 53`th part above another number. -/
def IsHardlyAbove (q q' : ℚ) : Prop :=
  q * 2 ^ 53 ≤ q' * (2 ^ 53 + 1)

/-! ### Ratios -/

/-- A ratio in steps of the size `2 ^ e`, as a ratio of natural numbers. -/
def inSteps (num den : Nat) (e : Int) : Nat × Nat :=
  if 0 ≤ e then (num, den <<< e.toNat) else (num <<< (-e).toNat, den)

/-- The exponent of the steps in which a ratio is rounded. -/
def stepExponent (num den : Nat) : Int :=
  let low : Int := max (-1074) ((Nat.log2 num : Int) - Nat.log2 den - 53)
  if (inSteps num den low).1 / (inSteps num den low).2 < 0x20000000000000 then low else low + 1

variable {num den : Nat}

theorem roundRatio_eq (num den : Nat) :
    roundRatio num den = min infinityMagnitude
      ((stepExponent num den + 1074).toNat * 0x10000000000000 +
        divideToEven (inSteps num den (stepExponent num den)).1
          (inSteps num den (stepExponent num den)).2) :=
  rfl

theorem inSteps_spec (num : Nat) (hden : 0 < den) (e : Int) :
    0 < (inSteps num den e).2 ∧
      ((inSteps num den e).1 : ℚ) / (inSteps num den e).2 = num / den / 2 ^ e := by
  have hpos : (0 : ℚ) < den := Nat.cast_pos.2 hden
  unfold inSteps
  split
  · next he =>
    obtain ⟨k, rfl⟩ := Int.eq_ofNat_of_zero_le he
    simp only [Int.toNat_natCast, Nat.shiftLeft_eq, zpow_natCast]
    refine ⟨by positivity, ?_⟩
    push_cast
    rw [div_div]
  · next he =>
    obtain ⟨k, hk⟩ := Int.eq_ofNat_of_zero_le (by omega : 0 ≤ -e)
    obtain rfl : e = -k := by omega
    simp only [neg_neg, Int.toNat_natCast, Nat.shiftLeft_eq, zpow_neg, zpow_natCast]
    refine ⟨hden, ?_⟩
    push_cast
    field_simp

/-- The binary logarithms of numerator and denominator enclose a ratio. -/
theorem ratio_between (hnum : 0 < num) (hden : 0 < den) :
    2 ^ ((Nat.log2 num : Int) - Nat.log2 den - 1) < (num : ℚ) / den ∧
      (num : ℚ) / den < 2 ^ ((Nat.log2 num : Int) - Nat.log2 den + 1) := by
  have hbounds : ∀ n : Nat, 0 < n →
      (2 : ℚ) ^ (Nat.log2 n : Int) ≤ n ∧ (n : ℚ) < 2 ^ ((Nat.log2 n : Int) + 1) := by
    intro n hn
    rw [← Nat.cast_succ, zpow_natCast, zpow_natCast]
    exact ⟨by exact_mod_cast Nat.log2_self_le hn.ne', by exact_mod_cast Nat.lt_log2_self⟩
  obtain ⟨hlow, hhigh⟩ := hbounds num hnum
  obtain ⟨hlow', hhigh'⟩ := hbounds den hden
  have hpos : (0 : ℚ) < den := Nat.cast_pos.2 hden
  have hpower : ∀ e : Int, (0 : ℚ) < 2 ^ e := fun e => zpow_pos two_pos e
  constructor
  · rw [lt_div_iff₀ hpos]
    calc (2 : ℚ) ^ ((Nat.log2 num : Int) - Nat.log2 den - 1) * den
        < 2 ^ ((Nat.log2 num : Int) - Nat.log2 den - 1) * 2 ^ ((Nat.log2 den : Int) + 1) :=
          mul_lt_mul_of_pos_left hhigh' (hpower _)
      _ = 2 ^ (Nat.log2 num : Int) := by
          rw [← zpow_add₀ two_ne_zero]
          congr 1
          ring
      _ ≤ num := hlow
  · rw [div_lt_iff₀ hpos]
    calc (num : ℚ) < 2 ^ ((Nat.log2 num : Int) + 1) := hhigh
      _ = 2 ^ ((Nat.log2 num : Int) - Nat.log2 den + 1) * 2 ^ (Nat.log2 den : Int) := by
          rw [← zpow_add₀ two_ne_zero]
          congr 1
          ring
      _ ≤ 2 ^ ((Nat.log2 num : Int) - Nat.log2 den + 1) * den :=
          mul_le_mul_of_nonneg_left hlow' (hpower _).le

/-- A ratio is rounded in the smallest steps, or in steps of which it has at least `2 ^ 52`, and it
has less than `2 ^ 53` of them. -/
theorem stepExponent_spec (hnum : 0 < num) (hden : 0 < den) :
    -1074 ≤ stepExponent num den ∧
      (stepExponent num den = -1074 ∨ 2 ^ 52 ≤ (num : ℚ) / den / 2 ^ stepExponent num den) ∧
      (num : ℚ) / den / 2 ^ stepExponent num den < 2 ^ 53 := by
  obtain ⟨hbelow, habove⟩ := ratio_between hnum hden
  have hpower : ∀ e : Int, (0 : ℚ) < 2 ^ e := fun e => zpow_pos two_pos e
  unfold stepExponent
  generalize hguess : (Nat.log2 num : Int) - Nat.log2 den = guess at hbelow habove
  dsimp only
  generalize hlowest : max (-1074) (guess - 53) = low
  obtain ⟨hpair, hratio⟩ := inSteps_spec num hden low
  have htest : (inSteps num den low).1 / (inSteps num den low).2 < 0x20000000000000 ↔
      (num : ℚ) / den / 2 ^ low < 2 ^ 53 := by
    have hpos : (0 : ℚ) < (inSteps num den low).2 := Nat.cast_pos.2 hpair
    rw [← hratio, Nat.div_lt_iff_lt_mul hpair, div_lt_iff₀ hpos]
    norm_cast
  split
  · next hsmall =>
    refine ⟨by omega, ?_, htest.1 hsmall⟩
    rcases max_cases (-1074) (guess - 53) with ⟨hmax, -⟩ | ⟨hmax, -⟩
    · exact .inl (hlowest.symm.trans hmax)
    · right
      rw [le_div_iff₀ (hpower _), ← hlowest, hmax]
      calc (2 : ℚ) ^ 52 * 2 ^ (guess - 53) = 2 ^ (guess - 1) := by
            rw [← zpow_natCast, ← zpow_add₀ two_ne_zero]
            congr 1
            ring
        _ ≤ num / den := hbelow.le
  · next hlarge =>
    have hmany := not_lt.1 (mt htest.2 hlarge)
    have hnext : (2 : ℚ) ^ (low + 1) = 2 * 2 ^ low := by
      rw [zpow_add_one₀ two_ne_zero, mul_comm]
    rw [le_div_iff₀ (hpower _)] at hmany
    rw [le_div_iff₀ (hpower _), div_lt_iff₀ (hpower _), hnext]
    refine ⟨by omega, .inr (by linarith), ?_⟩
    calc (num : ℚ) / den < 2 ^ (guess + 1) := habove
      _ = 2 ^ 53 * (2 * 2 ^ (guess - 53)) := by
          rw [← zpow_natCast, ← zpow_one_add₀ two_ne_zero, ← zpow_add₀ two_ne_zero]
          congr 1
          push_cast
          ring
      _ ≤ 2 ^ 53 * (2 * 2 ^ low) := by
          gcongr
          · exact one_le_two
          · omega

/-- A positive ratio is rounded to a pattern; those beyond the infinity become it. -/
theorem exists_roundsTo_roundRatio (hnum : 0 < num) (hden : 0 < den) :
    ∃ pattern, RoundsTo (num / den) pattern ∧
      roundRatio num den = min infinityMagnitude pattern := by
  obtain ⟨hlowest, hlow, hhigh⟩ := stepExponent_spec hnum hden
  refine ⟨_, ?_, roundRatio_eq num den⟩
  generalize stepExponent num den = e at hlowest hlow hhigh
  obtain ⟨hpair, hratio⟩ := inSteps_spec num hden e
  obtain ⟨binade, hbinade⟩ := Int.eq_ofNat_of_zero_le (by omega : 0 ≤ e + 1074)
  have he : (2 : ℚ) ^ e = 2 ^ binade * 2 ^ lowestExponent := by
    rw [← zpow_natCast, ← zpow_add₀ two_ne_zero]
    congr 1
    unfold lowestExponent
    omega
  rw [hbinade, Int.toNat_natCast]
  refine .steps (t := (num : ℚ) / den / 2 ^ e) ?_ ?_ hhigh ?_
  · rw [← he, div_mul_cancel₀ _ (zpow_pos two_pos e).ne']
  · exact hlow.imp_left fun h => by omega
  · rw [← hratio]
    exact isNearestTo_divideToEven _ hpair

/-- Every positive number is rounded to a pattern. -/
theorem exists_roundsTo {q : ℚ} (hq : 0 < q) : ∃ pattern, RoundsTo q pattern := by
  have hnum : 0 < q.num.toNat := by
    have hsign : 0 < q.num := Rat.num_pos.2 hq
    omega
  obtain ⟨pattern, hrounds, -⟩ := exists_roundsTo_roundRatio hnum q.den_pos
  have hratio : (q.num.toNat : ℚ) / q.den = q := by
    have hcast : ((q.num.toNat : Int) : ℚ) = q.num := by
      rw [Int.toNat_of_nonneg (Rat.num_pos.2 hq).le]
    rw [← Int.cast_natCast, hcast, Rat.num_div_den]
  exact ⟨pattern, hratio ▸ hrounds⟩

/-! ### What a number is rounded to -/

namespace RoundsTo

variable {q : ℚ} {pattern other magnitude : Nat}

/-- The nearest whole number of steps is in the same range as the number. -/
theorem bounds_of_isNearestTo {binade steps : Nat} {t : ℚ} (hlow : binade = 0 ∨ 2 ^ 52 ≤ t)
    (hhigh : t < 2 ^ 53) (hnearest : IsNearestTo steps t) :
    (binade = 0 ∨ 2 ^ 52 ≤ steps) ∧ steps ≤ 2 ^ 53 := by
  constructor
  · refine hlow.imp_right fun hmany => ?_
    have hsteps : (2 : ℚ) * 2 ^ 52 ≤ 2 * steps + 1 := by linarith [hnearest.ge]
    have hnat : 2 * 2 ^ 52 ≤ 2 * steps + 1 := by exact_mod_cast hsteps
    omega
  · have hsteps : (2 : ℚ) * steps < 2 * 2 ^ 53 + 1 := by linarith [hnearest.le]
    have hnat : 2 * steps < 2 * 2 ^ 53 + 1 := by exact_mod_cast hsteps
    omega

/-- A number is not above the middle between its pattern and the next one, and in the middle only if
its pattern is even. -/
theorem le_middle_above (h : RoundsTo q pattern) :
    2 * q ≤ pointOf pattern + pointOf (pattern + 1) ∧
      (2 * q = pointOf pattern + pointOf (pattern + 1) → pattern % 2 = 0) := by
  obtain @⟨binade, steps, t, rfl, hlow, hhigh, hnearest⟩ := h
  obtain ⟨hsteps, hmost⟩ := bounds_of_isNearestTo hlow hhigh hnearest
  have hsize := size_pos binade
  have hpoint := pointOf_of_steps hsteps hmost
  rcases hmost.lt_or_eq with hless | hfull
  · have hnext : pointOf (binade * 2 ^ 52 + steps + 1) =
        ((steps + 1 : Nat) : ℚ) * (2 ^ binade * 2 ^ lowestExponent) := by
      rw [Nat.add_assoc]
      exact pointOf_of_steps (hsteps.imp_right Nat.le_succ_of_le) hless
    rw [hpoint, hnext]
    generalize (2 : ℚ) ^ binade * 2 ^ lowestExponent = size at hsize
    push_cast
    refine ⟨by nlinarith [hnearest.ge], fun heq => ?_⟩
    have hparity := hnearest.even_of_below (mul_right_cancel₀ hsize.ne' (by linarith))
    omega
  · have hless : 2 * (t * (2 ^ binade * 2 ^ lowestExponent)) <
        pointOf (binade * 2 ^ 52 + steps) + pointOf (binade * 2 ^ 52 + steps + 1) := by
      have hnext := pointOf_lt_pointOf_iff.2 (Nat.lt_succ_self (binade * 2 ^ 52 + steps))
      rw [hpoint, hfull] at hnext
      rw [hpoint, hfull]
      push_cast at hnext ⊢
      nlinarith
    exact ⟨hless.le, fun heq => absurd heq hless.ne⟩

/-- A number is not below the middle between its pattern and the one before, and in the middle only
if its pattern is even. -/
theorem middle_below_le (h : RoundsTo q (pattern + 1)) :
    pointOf pattern + pointOf (pattern + 1) ≤ 2 * q ∧
      (pointOf pattern + pointOf (pattern + 1) = 2 * q → (pattern + 1) % 2 = 0) := by
  generalize hpattern : pattern + 1 = next at h
  obtain @⟨binade, steps, t, rfl, hlow, hhigh, hnearest⟩ := h
  obtain ⟨hsteps, hmost⟩ := bounds_of_isNearestTo hlow hhigh hnearest
  have hsize := size_pos binade
  have hpoint := pointOf_of_steps hsteps hmost
  by_cases hfirst : binade = 0 ∨ 2 ^ 52 < steps
  · obtain ⟨fewer, rfl⟩ : ∃ fewer, steps = fewer + 1 := ⟨steps - 1, by omega⟩
    have hbefore : pattern = binade * 2 ^ 52 + fewer := by omega
    have hpoint' : pointOf pattern = fewer * (2 ^ binade * 2 ^ lowestExponent) := by
      rw [hbefore]
      exact pointOf_of_steps (hfirst.imp_right fun _ => by omega) (by omega)
    rw [hpoint, hpoint']
    have hle := hnearest.le
    generalize (2 : ℚ) ^ binade * 2 ^ lowestExponent = size at hsize
    push_cast at hle ⊢
    refine ⟨by nlinarith, fun heq => ?_⟩
    have hparity := hnearest.even_of_above (mul_right_cancel₀ hsize.ne' (by push_cast; linarith))
    omega
  · -- The first pattern of a binade: the number has at least as many steps.
    have hleast : steps = 2 ^ 52 := by omega
    have hless : pointOf pattern + pointOf (binade * 2 ^ 52 + steps) <
        2 * (t * (2 ^ binade * 2 ^ lowestExponent)) := by
      have hbefore := pointOf_lt_pointOf_iff.2 (by omega : pattern < binade * 2 ^ 52 + steps)
      have hmany : (2 : ℚ) ^ 52 ≤ t := hlow.resolve_left fun hzero => hfirst (.inl hzero)
      rw [hpoint, hleast] at hbefore
      rw [hpoint, hleast]
      push_cast at hbefore ⊢
      nlinarith
    exact ⟨hless.le, fun heq => absurd heq hless.ne⟩

/-- Below the middle between two patterns a number is rounded to the lower one at most. -/
theorem le_of_lt_middle (h : RoundsTo q pattern)
    (hlt : 2 * q < pointOf magnitude + pointOf (magnitude + 1)) : pattern ≤ magnitude := by
  by_contra hgt
  obtain ⟨before, rfl⟩ : ∃ before, pattern = before + 1 := ⟨pattern - 1, by omega⟩
  have hle := pointOf_le_pointOf_iff.2 (by omega : magnitude ≤ before)
  have hnext := pointOf_le_pointOf_iff.2 (by omega : magnitude + 1 ≤ before + 1)
  linarith [h.middle_below_le.1]

/-- Above the middle between two patterns a number is rounded to the upper one at least. -/
theorem lt_of_middle_lt (h : RoundsTo q pattern)
    (hlt : pointOf magnitude + pointOf (magnitude + 1) < 2 * q) : magnitude < pattern := by
  by_contra hge
  have hle := pointOf_le_pointOf_iff.2 (by omega : pattern ≤ magnitude)
  have hnext := pointOf_le_pointOf_iff.2 (by omega : pattern + 1 ≤ magnitude + 1)
  linarith [h.le_middle_above.1]

/-- In the middle between two patterns a number is rounded to the lower one if it is even. -/
theorem le_of_le_middle (h : RoundsTo q pattern) (heven : magnitude % 2 = 0)
    (hle : 2 * q ≤ pointOf magnitude + pointOf (magnitude + 1)) : pattern ≤ magnitude := by
  rcases hle.lt_or_eq with hlt | heq
  · exact h.le_of_lt_middle hlt
  · by_contra hgt
    obtain ⟨before, rfl⟩ : ∃ before, pattern = before + 1 := ⟨pattern - 1, by omega⟩
    obtain ⟨hmiddle, hparity⟩ := h.middle_below_le
    have hnext := pointOf_le_pointOf_iff.2 (by omega : magnitude + 1 ≤ before + 1)
    rcases (by omega : magnitude = before ∨ magnitude < before) with rfl | hbefore
    · have := hparity heq.symm
      omega
    · have hless := pointOf_lt_pointOf_iff.2 hbefore
      linarith

/-- In the middle between two patterns a number is rounded to the upper one if it is even. -/
theorem lt_of_middle_le (h : RoundsTo q pattern) (heven : (magnitude + 1) % 2 = 0)
    (hle : pointOf magnitude + pointOf (magnitude + 1) ≤ 2 * q) : magnitude < pattern := by
  rcases hle.lt_or_eq with hlt | heq
  · exact h.lt_of_middle_lt hlt
  · by_contra hge
    obtain ⟨hmiddle, hparity⟩ := h.le_middle_above
    have hsame := pointOf_le_pointOf_iff.2 (by omega : pattern ≤ magnitude)
    rcases (by omega : pattern = magnitude ∨ pattern < magnitude) with rfl | hless
    · have := hparity heq.symm
      omega
    · have hless := pointOf_lt_pointOf_iff.2 (by omega : pattern + 1 < magnitude + 1)
      linarith

/-- A number is rounded to one pattern only. -/
theorem unique (h : RoundsTo q pattern) (h' : RoundsTo q other) : pattern = other := by
  have hle : ∀ {first second : Nat}, RoundsTo q first → RoundsTo q second → first ≤ second := by
    intro first second hfirst hsecond
    obtain ⟨hmiddle, heven⟩ := hsecond.le_middle_above
    rcases hmiddle.lt_or_eq with hless | heq
    · exact hfirst.le_of_lt_middle hless
    · exact hfirst.le_of_le_middle (heven heq) heq.le
  exact Nat.le_antisymm (hle h h') (hle h' h)

/-- What lies between the middles around a pattern is rounded to it, and so do the middles if the
pattern is even. -/
theorem of_between (hq : 0 < q)
    (h : pointOf magnitude + pointOf (magnitude + 1) < 2 * q ∧
        2 * q < pointOf (magnitude + 1) + pointOf (magnitude + 2) ∨
      (magnitude + 1) % 2 = 0 ∧ pointOf magnitude + pointOf (magnitude + 1) ≤ 2 * q ∧
        2 * q ≤ pointOf (magnitude + 1) + pointOf (magnitude + 2)) :
    RoundsTo q (magnitude + 1) := by
  obtain ⟨pattern, hrounds⟩ := exists_roundsTo hq
  have hbounds : magnitude < pattern ∧ pattern ≤ magnitude + 1 := by
    rcases h with ⟨hbelow, habove⟩ | ⟨heven, hbelow, habove⟩
    · exact ⟨hrounds.lt_of_middle_lt hbelow, hrounds.le_of_lt_middle habove⟩
    · exact ⟨hrounds.lt_of_middle_le heven hbelow, hrounds.le_of_le_middle heven habove⟩
  obtain rfl : pattern = magnitude + 1 := by omega
  exact hrounds

/-- Rounding does not go past a pattern. -/
theorem le_of_le_pointOf (h : RoundsTo q pattern) (hle : q ≤ pointOf magnitude) :
    pattern ≤ magnitude := by
  have hnext := pointOf_lt_pointOf_iff.2 (Nat.lt_succ_self magnitude)
  exact h.le_of_lt_middle (by linarith)

/-- What is rounded in steps that are not the smallest has at least `2 ^ 52` of them. -/
theorem exists_normal_steps (h : RoundsTo q pattern) (hnormal : 2 ^ 52 * 2 ^ lowestExponent ≤ q) :
    ∃ (binade steps : Nat) (t : ℚ), q = t * (2 ^ binade * 2 ^ lowestExponent) ∧
      pointOf pattern = steps * (2 ^ binade * 2 ^ lowestExponent) ∧
      2 ^ 52 ≤ t ∧ 2 ^ 52 ≤ steps ∧ IsNearestTo steps t := by
  obtain @⟨binade, steps, t, rfl, hlow, hhigh, hnearest⟩ := h
  obtain ⟨hsteps, hmost⟩ := bounds_of_isNearestTo hlow hhigh hnearest
  have hmany : (2 : ℚ) ^ 52 ≤ t := by
    rcases hlow with rfl | hmany
    · have hunit : (0 : ℚ) < 2 ^ lowestExponent := zpow_pos two_pos _
      rw [pow_zero, one_mul] at hnormal
      exact le_of_mul_le_mul_right hnormal hunit
    · exact hmany
  have hleast : 2 ^ 52 ≤ steps := by
    have hcount : (2 : ℚ) * 2 ^ 52 ≤ 2 * steps + 1 := by linarith [hnearest.ge]
    have hnat : 2 * 2 ^ 52 ≤ 2 * steps + 1 := by exact_mod_cast hcount
    omega
  exact ⟨binade, steps, t, rfl, pointOf_of_steps hsteps hmost, hmany, hleast, hnearest⟩

/-- Where the steps are not the smallest, the relative error is at most `2 ^ -53`, both as seen from
the number and as seen from what it is rounded to. -/
theorem isHardlyAbove (h : RoundsTo q pattern) (hnormal : 2 ^ 52 * 2 ^ lowestExponent ≤ q) :
    IsHardlyAbove q (pointOf pattern) ∧ IsHardlyAbove (pointOf pattern) q := by
  obtain ⟨binade, steps, t, rfl, hpoint, hmany, hsteps, hnearest⟩ := h.exists_normal_steps hnormal
  have hsize := size_pos binade
  have hleast : (2 : ℚ) ^ 52 ≤ steps := by exact_mod_cast hsteps
  rw [hpoint]
  generalize (2 : ℚ) ^ binade * 2 ^ lowestExponent = size at hsize
  constructor
  · have hbelow : t * 2 ^ 53 ≤ steps * (2 ^ 53 + 1) := by linarith [hnearest.ge]
    calc t * size * 2 ^ 53 = t * 2 ^ 53 * size := by ring
      _ ≤ steps * (2 ^ 53 + 1) * size := mul_le_mul_of_nonneg_right hbelow hsize.le
      _ = steps * size * (2 ^ 53 + 1) := by ring
  · have habove : steps * 2 ^ 53 ≤ t * (2 ^ 53 + 1) := by linarith [hnearest.le]
    calc steps * size * 2 ^ 53 = steps * 2 ^ 53 * size := by ring
      _ ≤ t * (2 ^ 53 + 1) * size := mul_le_mul_of_nonneg_right habove hsize.le
      _ = t * size * (2 ^ 53 + 1) := by ring

/-- A number that is at most a `2 ^ 53`th part larger than another is rounded at most one pattern
higher. -/
theorem le_succ_of_isHardlyAbove (h : RoundsTo q pattern) {q' : ℚ} (h' : RoundsTo q' other)
    (hclose : IsHardlyAbove q q') : pattern ≤ other + 1 := by
  by_contra hfar
  obtain ⟨before, rfl⟩ : ∃ before, pattern = before + 1 := ⟨pattern - 1, by omega⟩
  have hbelow := h.middle_below_le.1
  have habove := h'.le_middle_above.1
  have hfirst := pointOf_le_pointOf_iff.2 (by omega : other + 1 ≤ before)
  have hsecond := pointOf_le_pointOf_iff.2 (by omega : other + 2 ≤ before + 1)
  -- Both distances from the lower pattern on are more than a `2 ^ 53`th part of what lies there.
  have hstep := sum_lt_distance other
  have hstep' := sum_lt_distance (other + 1)
  have hnext := pointOf_lt_pointOf_iff.2 (by omega : other < other + 2)
  unfold IsHardlyAbove at hclose
  linarith

/-- A number that is above another by two such parts is rounded at most two patterns higher. -/
theorem le_add_two (h : RoundsTo q pattern) {q' : ℚ} (hq' : 0 < q') (h' : RoundsTo q' other)
    (hclose : q * (2 ^ 53 * 2 ^ 53) ≤ q' * ((2 ^ 53 + 1) * (2 ^ 53 + 1))) :
    pattern ≤ other + 2 := by
  obtain ⟨between, hbetween⟩ := exists_roundsTo (by positivity : 0 < q' * (2 ^ 53 + 1) / 2 ^ 53)
  have hfirst : pattern ≤ between + 1 :=
    h.le_succ_of_isHardlyAbove hbetween (by unfold IsHardlyAbove; linarith)
  have hsecond : between ≤ other + 1 :=
    hbetween.le_succ_of_isHardlyAbove h' (by unfold IsHardlyAbove; linarith)
  omega

/-- A number with at most 53 binary digits and no smaller steps than the smallest is not changed. -/
theorem pointOf_eq {n : Nat} {e : Int} (h : RoundsTo (n * 2 ^ e) pattern) (hn : n < 2 ^ 53)
    (he : lowestExponent ≤ e) : pointOf pattern = n * 2 ^ e := by
  generalize hq : (n : ℚ) * 2 ^ e = q at h
  obtain @⟨binade, steps, t, rfl, hlow, hhigh, hnearest⟩ := h
  obtain ⟨hsteps, hmost⟩ := bounds_of_isNearestTo hlow hhigh hnearest
  rw [pointOf_of_steps hsteps hmost]
  have hwhole : ∃ whole : Nat, t = whole := by
    obtain ⟨shift, hshift⟩ := Int.eq_ofNat_of_zero_le (by omega : 0 ≤ e - lowestExponent)
    have hpower : (2 : ℚ) ^ e = 2 ^ shift * 2 ^ lowestExponent := by
      rw [← zpow_natCast, ← zpow_add₀ two_ne_zero]
      congr 1
      omega
    have hunit : (2 : ℚ) ^ lowestExponent ≠ 0 := (zpow_pos two_pos _).ne'
    have hcount : (n : ℚ) * 2 ^ shift = t * 2 ^ binade := by
      apply mul_right_cancel₀ hunit
      rw [mul_assoc, mul_assoc, ← hpower, hq]
    rcases le_or_gt binade shift with hle | hgt
    · obtain ⟨more, rfl⟩ := Nat.exists_eq_add_of_le hle
      refine ⟨n * 2 ^ more, ?_⟩
      rw [pow_add] at hcount
      push_cast
      exact mul_right_cancel₀ (pow_pos two_pos binade).ne' (by linarith)
    · -- In steps larger than its own last digit the number has fewer than `2 ^ 52` of them.
      obtain ⟨more, rfl⟩ := Nat.exists_eq_add_of_lt hgt
      have hmany : (2 : ℚ) ^ 52 ≤ t := hlow.resolve_left (by omega)
      have hfew : (n : ℚ) < 2 ^ 53 := by exact_mod_cast hn
      have hn : (n : ℚ) = t * (2 * 2 ^ more) := by
        rw [pow_succ, pow_add] at hcount
        exact mul_right_cancel₀ (pow_pos two_pos shift).ne' (by linarith)
      have hone : (1 : ℚ) ≤ 2 ^ more := one_le_pow₀ one_le_two
      nlinarith
  obtain ⟨whole, rfl⟩ := hwhole
  have hsame : steps = whole := by
    have hle : 2 * steps ≤ 2 * whole + 1 := by exact_mod_cast hnearest.le
    have hge : 2 * whole ≤ 2 * steps + 1 := by exact_mod_cast hnearest.ge
    omega
  rw [hsame]

end RoundsTo

end ChunkStore.Binary64
