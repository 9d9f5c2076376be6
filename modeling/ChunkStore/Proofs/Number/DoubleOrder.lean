import ChunkStore.Number.Binary64
import ChunkStore.Proofs.Number.ScoreOrder

/-!
# The order of double precision numbers

A finite double stands for the rational number that its significand and its exponent give, and the
infinities stand for the two ends of the line.  The numerical comparison of patterns that stand for
something compares what they stand for.  In particular both zeros stand for zero.
-/

set_option autoImplicit false

namespace ChunkStore.Binary64

/-- The exact value of a finite number. -/
def value (x : Binary64) : ℚ :=
  if x.isNegative then -(x.significand * 2 ^ x.exponent) else x.significand * 2 ^ x.exponent

/-- What a pattern stands for, if it is no NaN: its value, or one of the ends of the line. -/
def standsFor (x : Binary64) : WithBot (WithTop ℚ) :=
  if x.isFinite then ((x.value : WithTop ℚ) : WithBot (WithTop ℚ))
  else if x.isNegative then ⊥
  else ⊤

variable {x y : Binary64}

/-- Significand and exponent count in units of the smallest positive number. -/
theorem significand_mul_two_zpow (x : Binary64) :
    (x.significand : ℚ) * 2 ^ x.exponent = unitsOf 52 x.magnitude * 2 ^ (-1074 : ℤ) := by
  unfold significand exponent unitsOf
  have hsize : (2 : Nat) ^ 52 = 0x10000000000000 := rfl
  rw [hsize]
  cases hexponent : x.magnitude / 0x10000000000000 with
  | zero =>
    have hpower : ((max 0 1 : Nat) : ℤ) - 1075 = -1074 := by decide
    rw [if_pos rfl, if_pos rfl, hpower]
  | succ below =>
    have hpower : ((max (below + 1) 1 : Nat) : ℤ) - 1075 = below + -1074 := by omega
    rw [if_neg (Nat.succ_ne_zero _), if_neg (Nat.succ_ne_zero _), Nat.add_sub_cancel, hpower,
      zpow_add₀ two_ne_zero, zpow_natCast, ← mul_assoc, Nat.cast_mul, Nat.cast_pow,
      Nat.cast_ofNat]

theorem value_eq_units (x : Binary64) :
    x.value = ((if x.isNegative then -(unitsOf 52 x.magnitude : Int)
      else unitsOf 52 x.magnitude : Int) : ℚ) * 2 ^ (-1074 : ℤ) := by
  unfold value
  rw [significand_mul_two_zpow]
  cases x.isNegative <;> simp

theorem value_le_value_iff : x.value ≤ y.value ↔ x.position ≤ y.position := by
  have hunit : (0 : ℚ) < 2 ^ (-1074 : ℤ) := zpow_pos two_pos _
  rw [value_eq_units, value_eq_units, mul_le_mul_iff_left₀ hunit, Int.cast_le]
  exact signed_unitsOf_le_iff 52 x.isNegative y.isNegative x.magnitude y.magnitude

/-- A pattern that is no NaN stands for its value, and its position is between those of the
infinities, or it is one of the infinities. -/
theorem standsFor_cases (hx : x.isNaN = false) :
    (x.standsFor = ((x.value : WithTop ℚ) : WithBot (WithTop ℚ)) ∧
      -(infinityMagnitude : Int) < x.position ∧ x.position < infinityMagnitude) ∨
    (x.standsFor = ⊤ ∧ x.position = infinityMagnitude) ∨
    (x.standsFor = ⊥ ∧ x.position = -(infinityMagnitude : Int)) := by
  have hmost : x.magnitude ≤ infinityMagnitude := by simpa [isNaN] using hx
  unfold standsFor position
  by_cases hfinite : x.magnitude < infinityMagnitude
  · rw [if_pos (by simpa [isFinite] using hfinite)]
    refine .inl ⟨rfl, ?_⟩
    split <;> omega
  · rw [if_neg (by simpa [isFinite] using hfinite)]
    cases x.isNegative
    · exact .inr (.inl ⟨rfl, by rw [if_neg Bool.false_ne_true]; omega⟩)
    · exact .inr (.inr ⟨rfl, by rw [if_pos rfl]; omega⟩)

/-- Patterns stand in the order of what they stand for. -/
theorem standsFor_le_standsFor_iff (hx : x.isNaN = false) (hy : y.isNaN = false) :
    x.standsFor ≤ y.standsFor ↔ x.position ≤ y.position := by
  have hpositive : (0 : Int) < infinityMagnitude := by decide
  rcases standsFor_cases hx with ⟨hsx, hlow, hhigh⟩ | ⟨hsx, hpx⟩ | ⟨hsx, hpx⟩ <;>
    rcases standsFor_cases hy with ⟨hsy, hlow', hhigh'⟩ | ⟨hsy, hpy⟩ | ⟨hsy, hpy⟩ <;>
    rw [hsx, hsy]
  · rw [WithBot.coe_le_coe, WithTop.coe_le_coe, value_le_value_iff]
  · exact iff_of_true le_top (by omega)
  · exact iff_of_false (WithBot.not_coe_le_bot _) (by omega)
  · refine iff_of_false (fun hle => ?_) (by omega)
    exact WithTop.not_top_le_coe _ (WithBot.coe_le_coe.1 hle)
  · exact iff_of_true le_rfl (by omega)
  · exact iff_of_false (WithBot.not_coe_le_bot _) (by omega)
  · exact iff_of_true bot_le (by omega)
  · exact iff_of_true bot_le (by omega)
  · exact iff_of_true bot_le (by omega)

/-- The numerical comparison of patterns that are no NaNs compares what they stand for. -/
theorem compare?_eq_cmp_standsFor (hx : x.isNaN = false) (hy : y.isNaN = false) :
    x.compare? y = some (cmp x.standsFor y.standsFor) := by
  have hsame : cmp x.standsFor y.standsFor = cmp x.position y.position := by
    simp only [cmp, cmpUsing, ← not_le, standsFor_le_standsFor_iff hx hy,
      standsFor_le_standsFor_iff hy hx]
  unfold compare?
  rw [hx, hy, Bool.false_or, if_neg Bool.false_ne_true, hsame, cmp_eq_compare]

end ChunkStore.Binary64
