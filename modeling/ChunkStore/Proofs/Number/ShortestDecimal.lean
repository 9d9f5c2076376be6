import ChunkStore.Number.Shortest
import ChunkStore.Proofs.Number.Arithmetic

/-!
# Shortest decimals round to their numbers

The interval of a double is that of the reals that are rounded to it, and it is wider than a step of
the grid with seventeen digits.  So the search finds a point of some grid in it, and the decimal is
rounded to the number that it was made for, with at most seventeen digits.
-/

set_option autoImplicit false

namespace ChunkStore

namespace Binary64

/-- Two neighbours are as far apart as two steps of the pattern between them at least. -/
theorem le_distance (before : Nat) :
    pointOf (before + 1) ≤ 2 ^ 52 * (pointOf (before + 2) - pointOf before) ∧
      2 * 2 ^ lowestExponent ≤ pointOf (before + 2) - pointOf before := by
  obtain ⟨binade, steps, rfl, hlow, hhigh⟩ := exists_steps before
  have hsize := size_pos binade
  have hleast : (2 : ℚ) ^ lowestExponent ≤ 2 ^ binade * 2 ^ lowestExponent :=
    le_mul_of_one_le_left (zpow_pos two_pos _).le (one_le_pow₀ one_le_two)
  have hnext : pointOf (binade * 2 ^ 52 + steps + 1) =
      (steps + 1 : Nat) * (2 ^ binade * 2 ^ lowestExponent) := by
    rw [Nat.add_assoc]
    exact pointOf_of_steps (hlow.imp_right Nat.le_succ_of_le) hhigh
  have hfew : (steps : ℚ) + 1 ≤ 2 ^ 53 := by exact_mod_cast hhigh
  have hafter : ((steps : ℚ) + 2) * (2 ^ binade * 2 ^ lowestExponent) ≤
      pointOf (binade * 2 ^ 52 + steps + 2) := by
    rcases (by omega : steps + 2 ≤ 2 ^ 53 ∨ steps + 1 = 2 ^ 53) with hmore | hlast
    · have hpoint := @pointOf_of_steps binade (steps + 2)
        (hlow.imp_right fun h => by omega) hmore
      rw [Nat.add_assoc, hpoint]
      push_cast
      rfl
    · -- The steps of the next binade are larger.
      have hcarry : binade * 2 ^ 52 + steps + 2 = (binade + 1) * 2 ^ 52 + (2 ^ 52 + 1) := by omega
      have hcast : (steps : ℚ) + 1 = 2 ^ 53 := by exact_mod_cast hlast
      rw [hcarry, pointOf_of_steps (.inr (by omega)) (by norm_num), pow_succ 2 binade]
      push_cast
      nlinarith
  rw [pointOf_of_steps hlow hhigh.le, hnext]
  generalize pointOf (binade * 2 ^ 52 + steps + 2) = after at hafter ⊢
  generalize (2 : ℚ) ^ binade * 2 ^ lowestExponent = size at hsize hleast hafter
  push_cast
  constructor <;> nlinarith

/-- The significand counts the steps of a binade. -/
theorem exists_binade (x : Binary64) : ∃ binade : Nat,
    x.magnitude = binade * 2 ^ 52 + x.significand ∧ (binade = 0 ∨ 2 ^ 52 ≤ x.significand) ∧
      x.significand < 2 ^ 53 ∧ x.exponent = binade + lowestExponent := by
  refine ⟨x.magnitude / 2 ^ 52 - 1, ?_⟩
  unfold significand exponent lowestExponent
  split <;> omega

theorem pointOf_magnitude_succ (x : Binary64) :
    pointOf (x.magnitude + 1) = (x.significand + 1) * 2 ^ x.exponent := by
  obtain ⟨binade, hmagnitude, hlow, hhigh, hexponent⟩ := x.exists_binade
  have hnext := @pointOf_of_steps binade (x.significand + 1)
    (hlow.imp_right Nat.le_succ_of_le) hhigh
  rw [hmagnitude, Nat.add_assoc, hnext, hexponent, zpow_add₀ two_ne_zero, zpow_natCast]
  push_cast
  rfl

/-- The distance to the pattern before is half as large where a binade starts. -/
theorem pointOf_magnitude_pred {x : Binary64} (hx : x.magnitude ≠ 0) :
    2 * pointOf (x.magnitude - 1) =
      (2 * x.significand - ((if x.significand = 0x10000000000000 ∧ -1074 < x.exponent then 1
        else 2 : Nat) : ℚ)) * 2 ^ x.exponent := by
  obtain ⟨binade, hmagnitude, hlow, hhigh, hexponent⟩ := x.exists_binade
  rw [hexponent, zpow_add₀ two_ne_zero, zpow_natCast]
  split
  · next hfirst =>
    obtain ⟨hleast, habove⟩ := hfirst
    unfold lowestExponent at habove
    obtain ⟨before, rfl⟩ : ∃ before, binade = before + 1 := ⟨binade - 1, by omega⟩
    have hlast : x.magnitude - 1 = before * 2 ^ 52 + (2 ^ 53 - 1) := by omega
    rw [hlast, pointOf_of_steps (.inr (by norm_num)) (by norm_num), hleast, pow_succ 2 before]
    push_cast
    ring
  · next hfirst =>
    obtain ⟨fewer, hfewer⟩ : ∃ fewer, x.significand = fewer + 1 :=
      ⟨x.significand - 1, by have := significand_pos hx; omega⟩
    have hsteps : binade = 0 ∨ 2 ^ 52 ≤ fewer := by
      unfold lowestExponent at hfirst
      omega
    have hlast : x.magnitude - 1 = binade * 2 ^ 52 + fewer := by omega
    rw [hlast, pointOf_of_steps hsteps (by omega), hfewer]
    push_cast
    ring

end Binary64

namespace Decimal

open Binary64

/-- The number that a decimal stands for. -/
def value (d : Decimal) : ℚ :=
  d.digits * 10 ^ d.exponent

/-- A power as a ratio of natural numbers. -/
theorem zpow_mul_pow (base : Nat) (hbase : 0 < base) (e : Int) :
    (base : ℚ) ^ e * (Nat.pow base (-e).toNat : Nat) = (Nat.pow base e.toNat : Nat) := by
  have hpow : ∀ n : Nat, ((Nat.pow base n : Nat) : ℚ) = (base : ℚ) ^ n := by
    intro n
    show ((base ^ n : Nat) : ℚ) = (base : ℚ) ^ n
    push_cast
    rfl
  rw [hpow, hpow, ← zpow_natCast, ← zpow_natCast,
    ← zpow_add₀ (Nat.cast_ne_zero.2 hbase.ne')]
  congr 1
  omega

theorem ten_zpow_mul (e : Int) :
    (10 : ℚ) ^ e * (Nat.pow 10 (-e).toNat : Nat) = (Nat.pow 10 e.toNat : Nat) := by
  have hten := zpow_mul_pow 10 (by decide) e
  rwa [Nat.cast_ofNat] at hten

/-! ### The interval -/

namespace Interval

/-- Whether a number lies in an interval. -/
def Holds (r : Interval) (q : ℚ) : Prop :=
  (r.low : ℚ) < q * r.den ∧ q * r.den < r.high ∨
    r.closed = true ∧ (r.low : ℚ) ≤ q * r.den ∧ q * r.den ≤ r.high

/-- An interval as that of the reals that are rounded to a pattern. -/
structure IsOf (r : Interval) (magnitude : Nat) : Prop where
  den_pos : 0 < r.den
  low : 2 * (r.low : ℚ) = (pointOf (magnitude - 1) + pointOf magnitude) * r.den
  value : (r.value : ℚ) = pointOf magnitude * r.den
  high : 2 * (r.high : ℚ) = (pointOf magnitude + pointOf (magnitude + 1)) * r.den
  closed : r.closed = decide (magnitude % 2 = 0)

end Interval

theorem isOf_interval {x : Binary64} (hx : x.magnitude ≠ 0) :
    (interval x).IsOf x.magnitude := by
  have hscale : (2 : ℚ) ^ (x.exponent - 2).toNat * 4 =
      2 ^ x.exponent * 2 ^ (-(x.exponent - 2)).toNat := by
    have hfour : (4 : ℚ) = 2 ^ (2 : Int) := by norm_num
    rw [hfour, ← zpow_natCast, ← zpow_natCast, ← zpow_add₀ two_ne_zero, ← zpow_add₀ two_ne_zero]
    congr 1
    omega
  have hpoint := x.significand_mul_zpow_exponent
  have hbefore := pointOf_magnitude_pred hx
  have hafter := x.pointOf_magnitude_succ
  have hsignificand := significand_pos hx
  unfold interval
  dsimp only
  generalize hbelow : (if x.significand = 0x10000000000000 ∧ -1074 < x.exponent then 1 else 2) =
    below at hbefore ⊢
  have hless : below ≤ 4 * x.significand := by
    have htwo : below ≤ 2 := by
      rw [← hbelow]
      split <;> decide
    omega
  rw [Nat.one_shiftLeft, Nat.one_shiftLeft]
  generalize (-(x.exponent - 2)).toNat = k at hscale
  refine ⟨Nat.pow_pos two_pos, ?_, ?_, ?_, ?_⟩ <;> dsimp only
  · push_cast [Nat.cast_sub hless]
    linear_combination (4 * (x.significand : ℚ) - below) / 2 * hscale + 2 ^ k * hpoint -
      2 ^ k / 2 * hbefore
  · push_cast
    linear_combination (x.significand : ℚ) * hscale + 2 ^ k * hpoint
  · push_cast
    linear_combination (4 * (x.significand : ℚ) + 2) / 2 * hscale + 2 ^ k * hpoint -
      2 ^ k * hafter
  · obtain ⟨binade, hmagnitude, -, -, -⟩ := x.exists_binade
    rw [decide_eq_decide]
    omega

/-- A positive number in the interval of a pattern is rounded to it. -/
theorem Interval.IsOf.roundsTo {r : Interval} {magnitude : Nat} {q : ℚ} (h : r.IsOf magnitude)
    (hmagnitude : magnitude ≠ 0) (hq : 0 < q) (hholds : r.Holds q) : RoundsTo q magnitude := by
  obtain ⟨before, rfl⟩ := Nat.exists_eq_succ_of_ne_zero hmagnitude
  have hden : (0 : ℚ) < r.den := Nat.cast_pos.2 h.den_pos
  have hlow := h.low
  have hhigh := h.high
  rw [Nat.succ_sub_one] at hlow
  refine RoundsTo.of_between hq (hholds.imp ?_ ?_)
  · rintro ⟨hbelow, habove⟩
    constructor
    · exact lt_of_mul_lt_mul_right (by linarith) hden.le
    · exact lt_of_mul_lt_mul_right (by linarith) hden.le
  · rintro ⟨hclosed, hbelow, habove⟩
    rw [h.closed, decide_eq_true_eq] at hclosed
    refine ⟨hclosed, ?_, ?_⟩
    · exact le_of_mul_le_mul_right (by linarith) hden
    · exact le_of_mul_le_mul_right (by linarith) hden

/-! ### Points of a grid -/

/-- Whether a point of a grid lies in an interval, as it is tested. -/
def isInside (r : Interval) (exponent : Int) (d : Nat) : Bool :=
  if r.closed then
    r.low * Nat.pow 10 (-exponent).toNat ≤ d * (Nat.pow 10 exponent.toNat * r.den) &&
      d * (Nat.pow 10 exponent.toNat * r.den) ≤ r.high * Nat.pow 10 (-exponent).toNat
  else
    r.low * Nat.pow 10 (-exponent).toNat < d * (Nat.pow 10 exponent.toNat * r.den) &&
      d * (Nat.pow 10 exponent.toNat * r.den) < r.high * Nat.pow 10 (-exponent).toNat

/-- The last point of a grid that is not above the number. -/
def floorOn (r : Interval) (exponent : Int) : Nat :=
  r.value * Nat.pow 10 (-exponent).toNat / (Nat.pow 10 exponent.toNat * r.den)

variable {tie : Tie} {r : Interval} {exponent : Int}

/-- A point of a grid times the scale that makes all points whole. -/
theorem cast_point_mul (r : Interval) (exponent : Int) (d : Nat) :
    ((d * (Nat.pow 10 exponent.toNat * r.den) : Nat) : ℚ) =
      d * 10 ^ exponent * r.den * (Nat.pow 10 (-exponent).toNat : Nat) := by
  rw [Nat.cast_mul, Nat.cast_mul, ← ten_zpow_mul exponent]
  ring

theorem scale_pos (exponent : Int) : (0 : ℚ) < (Nat.pow 10 (-exponent).toNat : Nat) :=
  Nat.cast_pos.2 (Nat.pow_pos (by decide))

theorem mul_scale_le_iff (n d : Nat) :
    n * Nat.pow 10 (-exponent).toNat ≤ d * (Nat.pow 10 exponent.toNat * r.den) ↔
      (n : ℚ) ≤ d * 10 ^ exponent * r.den := by
  rw [← Nat.cast_le (α := ℚ), cast_point_mul, Nat.cast_mul]
  exact mul_le_mul_iff_left₀ (scale_pos exponent)

theorem le_mul_scale_iff (n d : Nat) :
    d * (Nat.pow 10 exponent.toNat * r.den) ≤ n * Nat.pow 10 (-exponent).toNat ↔
      (d : ℚ) * 10 ^ exponent * r.den ≤ n := by
  rw [← Nat.cast_le (α := ℚ), cast_point_mul, Nat.cast_mul]
  exact mul_le_mul_iff_left₀ (scale_pos exponent)

theorem isInside_iff (d : Nat) : isInside r exponent d = true ↔ r.Holds (d * 10 ^ exponent) := by
  unfold isInside Interval.Holds
  cases r.closed with
  | true =>
    rw [if_pos rfl, Bool.and_eq_true, decide_eq_true_eq, decide_eq_true_eq, mul_scale_le_iff,
      le_mul_scale_iff]
    constructor
    · exact fun h => .inr ⟨rfl, h⟩
    · rintro (⟨hlow, hhigh⟩ | ⟨-, h⟩)
      · exact ⟨hlow.le, hhigh.le⟩
      · exact h
  | false =>
    rw [if_neg Bool.false_ne_true, Bool.and_eq_true, decide_eq_true_eq, decide_eq_true_eq,
      ← not_le, ← not_le, le_mul_scale_iff, mul_scale_le_iff, not_le, not_le]
    constructor
    · exact .inl
    · rintro (h | ⟨hclosed, -⟩)
      · exact h
      · exact absurd hclosed Bool.false_ne_true

theorem floorOn_le (r : Interval) (exponent : Int) :
    (floorOn r exponent : ℚ) * 10 ^ exponent * r.den ≤ r.value :=
  (le_mul_scale_iff _ _).1 (Nat.div_mul_le_self _ _)

theorem lt_floorOn_succ (exponent : Int) (hden : 0 < r.den) :
    (r.value : ℚ) < (floorOn r exponent + 1 : Nat) * 10 ^ exponent * r.den := by
  rw [← not_le, ← le_mul_scale_iff, not_le]
  exact Nat.lt_mul_of_div_lt (Nat.lt_succ_self _) (Nat.mul_pos (Nat.pow_pos (by decide)) hden)

/-- The grid points that are tried are the two around the number. -/
theorem onGrid?_eq (tie : Tie) (r : Interval) (exponent : Int) :
    ∃ nearest, (nearest = floorOn r exponent ∨ nearest = floorOn r exponent + 1) ∧
      onGrid? tie r exponent =
        if nearest ≠ 0 ∧ isInside r exponent nearest then some ⟨nearest, exponent⟩
        else if floorOn r exponent ≠ 0 ∧ isInside r exponent (floorOn r exponent) then
          some ⟨floorOn r exponent, exponent⟩
        else if isInside r exponent (floorOn r exponent + 1) then
          some ⟨floorOn r exponent + 1, exponent⟩
        else none := by
  refine ⟨_, ?_, rfl⟩
  split
  · exact .inl rfl
  · split
    · exact .inr rfl
    · cases tie with
      | up => exact .inr rfl
      | toEven =>
        show floorOn r exponent + floorOn r exponent % 2 = _ ∨
          floorOn r exponent + floorOn r exponent % 2 = _
        omega

/-- What is found on a grid is one of its points in the interval, beside the number. -/
theorem onGrid?_spec {d : Decimal} (h : onGrid? tie r exponent = some d) :
    d.exponent = exponent ∧ 0 < d.digits ∧ d.digits ≤ floorOn r exponent + 1 ∧
      r.Holds d.value := by
  obtain ⟨nearest, hnearest, heq⟩ := onGrid?_eq tie r exponent
  rw [heq] at h
  split at h
  · next hinside =>
    obtain rfl := Option.some.inj h
    exact ⟨rfl, Nat.pos_of_ne_zero hinside.1, by dsimp only; omega,
      (isInside_iff _).1 hinside.2⟩
  · split at h
    · next hinside =>
      obtain rfl := Option.some.inj h
      exact ⟨rfl, Nat.pos_of_ne_zero hinside.1, by dsimp only; omega,
        (isInside_iff _).1 hinside.2⟩
    · split at h
      · next hinside =>
        obtain rfl := Option.some.inj h
        exact ⟨rfl, Nat.succ_pos _, le_rfl, (isInside_iff _).1 hinside⟩
      · exact absurd h (Option.some_ne_none _).symm

/-- A grid with steps smaller than the interval has a point in it. -/
theorem isSome_onGrid? (hden : 0 < r.den) (hlow : r.low < r.value) (hhigh : r.value < r.high)
    (hwide : 10 ^ exponent * (r.den : ℚ) < r.high - r.low) :
    (onGrid? tie r exponent).isSome = true := by
  have hlow : (r.low : ℚ) < r.value := Nat.cast_lt.2 hlow
  have hhigh : (r.value : ℚ) < r.high := Nat.cast_lt.2 hhigh
  have hbelow := floorOn_le r exponent
  have habove := lt_floorOn_succ exponent hden
  have hinside : floorOn r exponent ≠ 0 ∧ isInside r exponent (floorOn r exponent) = true ∨
      isInside r exponent (floorOn r exponent + 1) = true := by
    rw [isInside_iff, isInside_iff]
    by_cases hnext : ((floorOn r exponent + 1 : Nat) : ℚ) * 10 ^ exponent * r.den < r.high
    · exact .inr (.inl ⟨hlow.trans habove, hnext⟩)
    · left
      have hmore : (r.low : ℚ) < floorOn r exponent * 10 ^ exponent * r.den := by
        push_cast at hnext
        linarith
      refine ⟨?_, .inl ⟨hmore, hbelow.trans_lt hhigh⟩⟩
      intro hzero
      rw [hzero, Nat.cast_zero, zero_mul, zero_mul] at hmore
      exact absurd hmore (Nat.cast_nonneg _).not_gt
  obtain ⟨nearest, -, heq⟩ := onGrid?_eq tie r exponent
  rw [heq]
  split
  · rfl
  · split
    · rfl
    · next hfloor =>
      rw [if_pos (hinside.resolve_left hfloor)]
      rfl

/-! ### The search -/

/-- The search ends at the first grid that has a point in the interval. -/
theorem search_spec (tie : Tie) (r : Interval) {fuel steps : Nat} (hsteps : steps < fuel) :
    ∀ {exponent : Int}, (onGrid? tie r (exponent - steps)).isSome = true →
      ∃ found ≤ steps, onGrid? tie r (exponent - found) = some (search tie r fuel exponent) := by
  induction fuel generalizing steps with
  | zero => exact absurd hsteps (Nat.not_lt_zero _)
  | succ fuel ih =>
    intro exponent hsome
    unfold search
    cases hhere : onGrid? tie r exponent with
    | some d => exact ⟨0, Nat.zero_le _, by simpa using hhere⟩
    | none =>
      cases steps with
      | zero => simp [hhere] at hsome
      | succ steps =>
        have hnext : exponent - (steps + 1 : Nat) = exponent - 1 - steps := by omega
        rw [hnext] at hsome
        obtain ⟨found, hfound, hgrid⟩ := ih (by omega) hsome
        refine ⟨found + 1, by omega, ?_⟩
        rw [Option.getD_none, ← hgrid]
        congr 1
        omega

/-- Moving zeros into the exponent keeps the number. -/
theorem trim_spec (fuel : Nat) (d : Decimal) (hpos : 0 < d.digits) :
    (trim fuel d).value = d.value ∧ 0 < (trim fuel d).digits ∧
      (trim fuel d).digits ≤ d.digits ∧ d.exponent ≤ (trim fuel d).exponent := by
  induction fuel generalizing d with
  | zero => exact ⟨rfl, hpos, le_rfl, le_rfl⟩
  | succ fuel ih =>
    unfold trim
    split
    · next hzero =>
      obtain ⟨hvalue, hleft, hless, hmore⟩ := ih ⟨d.digits / 10, d.exponent + 1⟩
        (by dsimp only; omega)
      have hsame : value ⟨d.digits / 10, d.exponent + 1⟩ = d.value := by
        have hdigits : (d.digits : ℚ) = (d.digits / 10 : Nat) * 10 := by
          exact_mod_cast (Nat.div_mul_cancel (Nat.dvd_of_mod_eq_zero hzero)).symm
        unfold value
        dsimp only
        rw [hdigits, zpow_add_one₀ (by norm_num)]
        ring
      dsimp only at hless hmore
      exact ⟨hvalue.trans hsame, hleft, by omega, by omega⟩
    · exact ⟨rfl, hpos, le_rfl, le_rfl⟩

/-! ### The first grid -/

theorem pow_le_pow_iff (base other : Nat) (hbase : 0 < base) (hother : 0 < other) (e f : Int) :
    Nat.pow base e.toNat * Nat.pow other (-f).toNat ≤
        Nat.pow other f.toNat * Nat.pow base (-e).toNat ↔
      (base : ℚ) ^ e ≤ (other : ℚ) ^ f := by
  have hpos : (0 : ℚ) < (Nat.pow base (-e).toNat : Nat) * (Nat.pow other (-f).toNat : Nat) :=
    mul_pos (Nat.cast_pos.2 (Nat.pow_pos hbase)) (Nat.cast_pos.2 (Nat.pow_pos hother))
  rw [← Nat.cast_le (α := ℚ), Nat.cast_mul, Nat.cast_mul, ← zpow_mul_pow base hbase e,
    ← zpow_mul_pow other hother f, mul_assoc, mul_assoc,
    mul_comm ((Nat.pow other (-f).toNat : Nat) : ℚ) ((Nat.pow base (-e).toNat : Nat) : ℚ)]
  exact mul_le_mul_iff_left₀ hpos

/-- The guess from a binary logarithm. -/
def guess (log : Int) : Int :=
  log * 30103 / 100000 - 1

/-- A table of the powers of ten around the guesses, for the binary logarithms of doubles. -/
theorem guess_table :
    ((List.range 2201).all fun n =>
      Nat.pow 10 (guess (n - 1100) - 1).toNat * Nat.pow 2 (-((n : Int) - 1100 - 1)).toNat ≤
          Nat.pow 2 ((n : Int) - 1100 - 1).toNat * Nat.pow 10 (-(guess (n - 1100) - 1)).toNat &&
        Nat.pow 2 ((n : Int) - 1100 + 1).toNat * Nat.pow 10 (-(guess (n - 1100) + 3)).toNat ≤
          Nat.pow 10 (guess (n - 1100) + 3).toNat * Nat.pow 2 (-((n : Int) - 1100 + 1)).toNat) =
      true := by
  decide +kernel

/-- The powers of ten that a number is compared with enclose it. -/
theorem guess_encloses {log : Int} (hlow : -1100 ≤ log) (hhigh : log ≤ 1100) :
    (10 : ℚ) ^ (guess log - 1) ≤ 2 ^ (log - 1) ∧ (2 : ℚ) ^ (log + 1) ≤ 10 ^ (guess log + 3) := by
  obtain ⟨n, hn⟩ := Int.eq_ofNat_of_zero_le (by omega : 0 ≤ log + 1100)
  obtain rfl : log = n - 1100 := by omega
  have hentry := List.all_eq_true.1 guess_table n (List.mem_range.2 (by omega))
  rw [Bool.and_eq_true, decide_eq_true_eq, decide_eq_true_eq,
    pow_le_pow_iff 10 2 (by decide) (by decide), pow_le_pow_iff 2 10 (by decide) (by decide)]
    at hentry
  exact_mod_cast hentry

/-- The number of digits before the point of a number as large as a double. -/
theorem magnitude_spec {num den : Nat} (hnum : 0 < num) (hden : 0 < den)
    (hlow : 2 ^ (-1099 : Int) ≤ (num : ℚ) / den) (hhigh : (num : ℚ) / den ≤ 2 ^ (1099 : Int)) :
    (10 : ℚ) ^ (magnitude num den - 1) ≤ num / den ∧
      (num : ℚ) / den < 10 ^ magnitude num den := by
  obtain ⟨hbelow, habove⟩ := ratio_between hnum hden
  have hfirst := (zpow_lt_zpow_iff_right₀ one_lt_two).1 (hlow.trans_lt habove)
  have hlast := (zpow_lt_zpow_iff_right₀ one_lt_two).1 (hbelow.trans_le hhigh)
  obtain ⟨hleast, hmost⟩ :=
    @guess_encloses ((Nat.log2 num : Int) - Nat.log2 den) (by omega) (by omega)
  have hat : ∀ e : Int, Nat.pow 10 e.toNat * den ≤ num * Nat.pow 10 (-e).toNat ↔
      (10 : ℚ) ^ e ≤ num / den := by
    intro e
    rw [le_div_iff₀ (Nat.cast_pos.2 hden), ← Nat.cast_le (α := ℚ), Nat.cast_mul, Nat.cast_mul,
      ← ten_zpow_mul e, mul_right_comm]
    exact mul_le_mul_iff_left₀ (scale_pos e)
  have hless := hleast.trans hbelow.le
  have hmore := habove.trans_le hmost
  unfold magnitude
  simp only [decide_eq_true_eq, hat]
  rw [show ((Nat.log2 num : Int) - Nat.log2 den) * 30103 / 100000 - 1 =
    guess ((Nat.log2 num : Int) - Nat.log2 den) from rfl]
  generalize guess ((Nat.log2 num : Int) - Nat.log2 den) = first at hless hmore ⊢
  split
  · next h =>
    refine ⟨?_, hmore⟩
    rwa [show first + 3 - 1 = first + 2 by ring]
  · next h =>
    split
    · next h' =>
      refine ⟨?_, not_le.1 h⟩
      rwa [show first + 2 - 1 = first + 1 by ring]
    · next h' =>
      split
      · next h'' =>
        refine ⟨?_, not_le.1 h'⟩
        rwa [show first + 1 - 1 = first by ring]
      · next h'' => exact ⟨hless, not_le.1 h''⟩

/-! ### The shortest decimal -/

/-- A decimal with at most seventeen digits, or the first with eighteen, that is rounded to a
pattern. -/
structure IsShortFor (d : Decimal) (magnitude : Nat) : Prop where
  roundsTo : RoundsTo d.value magnitude
  digits_pos : 0 < d.digits
  digits_le : d.digits ≤ 10 ^ 17
  exponent_ge : -324 ≤ d.exponent
  exponent_le : d.exponent ≤ 308

theorem pointOf_infinityMagnitude : pointOf infinityMagnitude = 2 ^ (1024 : Int) := by
  have hinfinity : infinityMagnitude = 2046 * 2 ^ 52 + 2 ^ 52 := rfl
  rw [hinfinity, pointOf_binade]
  rfl

/-- All doubles are below this power of ten. -/
theorem limit_le : (2 : ℚ) ^ (1024 : Int) ≤ 10 ^ (309 : Int) := by
  exact_mod_cast (pow_le_pow_iff 2 10 (by decide) (by decide) 1024 309).1 (by decide +kernel)

/-- All steps between doubles are above this power of ten. -/
theorem lt_unit : (10 : ℚ) ^ (-324 : Int) < 2 ^ lowestExponent := by
  rw [← not_le]
  exact_mod_cast mt (pow_le_pow_iff 2 10 (by decide) (by decide) (-1074) (-324)).2
    (by decide +kernel)

/-- What is rounded to a finite number is below the first power of ten that is too large. -/
theorem exponent_le_of_roundsTo {d : Decimal} {magnitude : Nat} (h : RoundsTo d.value magnitude)
    (hpos : 0 < d.digits) (hfinite : magnitude < infinityMagnitude) : d.exponent ≤ 308 := by
  have hone : (1 : ℚ) ≤ d.digits := by exact_mod_cast hpos
  have hnext := pointOf_lt_pointOf_iff.2 (Nat.lt_succ_self magnitude)
  have hlimit := pointOf_le_pointOf_iff.2 (Nat.succ_le_of_lt hfinite)
  have hless : (10 : ℚ) ^ d.exponent < 10 ^ (309 : Int) :=
    calc (10 : ℚ) ^ d.exponent ≤ d.value :=
          le_mul_of_one_le_left (zpow_pos (by norm_num) _).le hone
      _ < pointOf (magnitude + 1) := by linarith [h.le_middle_above.1]
      _ ≤ pointOf infinityMagnitude := hlimit
      _ ≤ 10 ^ (309 : Int) := pointOf_infinityMagnitude.trans_le limit_le
  have hexponent := (zpow_lt_zpow_iff_right₀ (by norm_num)).1 hless
  omega

variable {x : Binary64}

/-- The steps of the last grid that may be tried are smaller than the interval. -/
theorem isSome_onGrid?_last (tie : Tie) {r : Interval} {magnitude : Nat} (h : r.IsOf magnitude)
    (hmagnitude : magnitude ≠ 0) {n : Int} (hn : (10 : ℚ) ^ (n - 1) ≤ pointOf magnitude) :
    (onGrid? tie r (max (-324) (n - 17))).isSome = true := by
  obtain ⟨before, rfl⟩ := Nat.exists_eq_succ_of_ne_zero hmagnitude
  obtain ⟨hdistance, hleast⟩ := le_distance before
  have hden : (0 : ℚ) < r.den := Nat.cast_pos.2 h.den_pos
  have hbefore := pointOf_lt_pointOf_iff.2 (Nat.lt_succ_self before)
  have hafter := pointOf_lt_pointOf_iff.2 (Nat.lt_succ_self (before + 1))
  have hlow := h.low
  have hvalue := h.value
  have hhigh := h.high
  rw [Nat.succ_sub_one] at hlow
  have hstep : 2 * (10 : ℚ) ^ max (-324) (n - 17) < pointOf (before + 2) - pointOf before := by
    rcases max_cases (-324 : Int) (n - 17) with ⟨hmax, -⟩ | ⟨hmax, -⟩ <;> rw [hmax]
    · linarith [lt_unit]
    · have hten : (10 : ℚ) ^ (n - 1) = 10 ^ (n - 17) * 10 ^ 16 := by
        rw [← zpow_natCast, ← zpow_add₀ (by norm_num)]
        congr 1
        push_cast
        ring
      have hpos : (0 : ℚ) < 10 ^ (n - 17) := zpow_pos (by norm_num) _
      linarith
  refine isSome_onGrid? h.den_pos ?_ ?_ ?_
  · have hless : 2 * (r.low : ℚ) < 2 * r.value := by nlinarith
    exact_mod_cast (by linarith : (r.low : ℚ) < r.value)
  · have hless : 2 * (r.value : ℚ) < 2 * r.high := by nlinarith
    exact_mod_cast (by linarith : (r.value : ℚ) < r.high)
  · nlinarith

theorem pointOf_bounds (hx : x.magnitude ≠ 0) (hfinite : x.isFinite = true) :
    2 ^ lowestExponent ≤ pointOf x.magnitude ∧ pointOf x.magnitude ≤ 2 ^ (1024 : Int) := by
  constructor
  · rw [← pointOf_one]
    exact pointOf_le_pointOf_iff.2 (Nat.pos_of_ne_zero hx)
  · rw [← pointOf_infinityMagnitude]
    exact pointOf_le_pointOf_iff.2 (of_decide_eq_true hfinite).le

/-- A point of a grid that is found has at most seventeen digits, or is the first with more. -/
theorem digits_le_of_onGrid? {r : Interval} {magnitude : Nat} (h : r.IsOf magnitude) {n : Int}
    (hn : pointOf magnitude < 10 ^ n) (hexponent : n ≤ exponent + 17) {d : Decimal}
    (hgrid : onGrid? tie r exponent = some d) : d.digits ≤ 10 ^ 17 := by
  obtain ⟨-, -, hdigits, -⟩ := onGrid?_spec hgrid
  have hden : (0 : ℚ) < r.den := Nat.cast_pos.2 h.den_pos
  have hpower : (0 : ℚ) < 10 ^ exponent := zpow_pos (by norm_num) _
  have hfloor : (floorOn r exponent : ℚ) < 10 ^ 17 := by
    apply lt_of_mul_lt_mul_right _ hpower.le
    apply lt_of_mul_lt_mul_right _ hden.le
    calc (floorOn r exponent : ℚ) * 10 ^ exponent * r.den ≤ r.value := floorOn_le r exponent
      _ = pointOf magnitude * r.den := h.value
      _ < 10 ^ n * r.den := mul_lt_mul_of_pos_right hn hden
      _ ≤ 10 ^ (exponent + 17) * r.den := by
          gcongr
          norm_num
      _ = 10 ^ 17 * 10 ^ exponent * r.den := by
          rw [zpow_add₀ (by norm_num), mul_comm ((10 : ℚ) ^ exponent)]
          norm_cast
  have hless : floorOn r exponent < 10 ^ 17 := by exact_mod_cast hfloor
  omega

/-- The shortest decimal of a finite number that is not zero is rounded to it. -/
theorem isShortFor_shortest (tie : Tie) (hx : x.magnitude ≠ 0) (hfinite : x.isFinite = true) :
    IsShortFor (shortest tie x) x.magnitude := by
  have h := isOf_interval hx
  generalize hr : interval x = r at h
  have hden : (0 : ℚ) < r.den := Nat.cast_pos.2 h.den_pos
  have hratio : (r.value : ℚ) / r.den = pointOf x.magnitude := by
    rw [h.value, mul_div_cancel_right₀ _ hden.ne']
  have hvalue : 0 < r.value := by
    have hpos : (0 : ℚ) < r.value := h.value ▸ mul_pos (pointOf_pos hx) hden
    exact_mod_cast hpos
  obtain ⟨hleast, hmost⟩ := pointOf_bounds hx hfinite
  have hspec := magnitude_spec hvalue h.den_pos
    (by rw [hratio]; exact (zpow_le_zpow_right₀ one_le_two (by decide)).trans hleast)
    (by rw [hratio]; exact hmost.trans (zpow_le_zpow_right₀ one_le_two (by decide)))
  rw [hratio] at hspec
  generalize hn : magnitude r.value r.den = n at hspec
  have hfirst : -324 < n := by
    have hless := (lt_unit.trans_le hleast).trans hspec.2
    exact (zpow_lt_zpow_iff_right₀ (by norm_num)).1 hless
  -- The last grid is reached in at most sixteen steps, and it has a point in the interval.
  obtain ⟨steps, hsteps⟩ := Int.eq_ofNat_of_zero_le
    (by omega : 0 ≤ n - 1 - max (-324) (n - 17))
  have hlast : max (-324) (n - 17) = n - 1 - steps := by omega
  have hsome := isSome_onGrid?_last tie h hx hspec.1
  rw [hlast] at hsome
  obtain ⟨found, hfound, hgrid⟩ := search_spec tie r (by omega : steps < 17) hsome
  obtain ⟨hexponent, hpos, -, hholds⟩ := onGrid?_spec hgrid
  have hdigits := digits_le_of_onGrid? h hspec.2 (by omega) hgrid
  have hshortest : shortest tie x = trim 20 (search tie r 17 (n - 1)) := by
    unfold shortest
    rw [if_neg hx, hr, ← hn]
  rw [hshortest]
  generalize search tie r 17 (n - 1) = d at hexponent hpos hholds hdigits hgrid
  obtain ⟨hsame, hleft, hfewer, hlarger⟩ := trim_spec 20 d hpos
  have hpositive : 0 < d.value := mul_pos (Nat.cast_pos.2 hpos) (zpow_pos (by norm_num) _)
  have hrounds : RoundsTo (trim 20 d).value x.magnitude :=
    hsame ▸ h.roundsTo hx hpositive hholds
  exact ⟨hrounds, hleft, hfewer.trans hdigits, by omega,
    exponent_le_of_roundsTo hrounds hleft (of_decide_eq_true hfinite)⟩

end Decimal

end ChunkStore
