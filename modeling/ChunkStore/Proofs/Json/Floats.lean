import ChunkStore.Proofs.Json.Reading
import ChunkStore.Proofs.Json.Scaling

/-!
# Floats come back from their numbers, nearly

The number that is written for a finite float has its shortest digits, some zeros perhaps, and is
read with all of them: as a significand and a power of ten that make up the shortest decimal
(`IsWrittenFor`).  So a finite float comes back as a finite float at most two patterns away
(`exists_read?_ofFloat`), and as itself where the significand and the power of ten are small.
-/

set_option autoImplicit false

namespace ChunkStore

/-! ### Rows of digits -/

namespace Numeral

theorem ofDigits_append (row row' : List Char) :
    ofDigits (row ++ row') = ofDigits row * 10 ^ row'.length + ofDigits row' := by
  induction row' using List.reverseRecOn with
  | nil => simp [ofDigits]
  | append_singleton row' c ih =>
    rw [← List.append_assoc, ofDigits_append_singleton, ofDigits_append_singleton, ih,
      List.length_append, List.length_singleton, pow_succ]
    ring

theorem ofDigits_replicate_zero (n : Nat) : ofDigits (List.replicate n '0') = 0 := by
  induction n with
  | zero => rfl
  | succ n ih =>
    rw [List.replicate_succ', ofDigits_append_singleton, ih]
    rfl

theorem lt_ten_pow_length_digits (n : Nat) : n < 10 ^ (digits n).length := by
  fun_induction digits n with
  | case1 n hn => exact hn
  | case2 n hn ih =>
    rw [List.length_append, List.length_singleton, pow_succ]
    omega

theorem length_digits_le {n k : Nat} (hk : 0 < k) (h : n < 10 ^ k) : (digits n).length ≤ k := by
  fun_induction digits n generalizing k with
  | case1 n hn => exact hk
  | case2 n hn ih =>
    obtain ⟨fewer, rfl⟩ := Nat.exists_eq_succ_of_ne_zero hk.ne'
    have hfewer : 0 < fewer := by
      by_contra hzero
      obtain rfl : fewer = 0 := by omega
      omega
    rw [Nat.succ_eq_add_one, pow_succ] at h
    rw [List.length_append, List.length_singleton]
    have hless := ih hfewer (by omega)
    omega

end Numeral

namespace Json.Number

/-! ### Significands and powers of ten -/

/-- The digits of a number without point and exponent. -/
def significand (n : Number) : Nat :=
  Numeral.ofDigits (n.whole ++ n.fraction)

/-- The power of ten that belongs to the digits of a number without point. -/
def power (n : Number) : Int :=
  (match n.exponent with
    | none => 0
    | some (down, row) => if down then -(Numeral.ofDigits row : Int) else Numeral.ofDigits row) -
    n.fraction.length

theorem takeDigits_cons (significand : Nat) (c : Char) (row : List Char) :
    takeDigits significand (c :: row) =
      if 10 * significand + Numeral.digitValue c < wordLimit then
        takeDigits (10 * significand + Numeral.digitValue c) row
      else (significand, c :: row) :=
  rfl

/-- All digits are taken if they fit together. -/
theorem takeDigits_ofDigits (before row : List Char)
    (h : Numeral.ofDigits (before ++ row) < wordLimit) :
    takeDigits (Numeral.ofDigits before) row = (Numeral.ofDigits (before ++ row), []) := by
  induction row generalizing before with
  | nil => rw [List.append_nil]; rfl
  | cons c row ih =>
    have hsplit : before ++ c :: row = before ++ [c] ++ row := by
      rw [List.append_assoc, List.singleton_append]
    rw [hsplit] at h ⊢
    have hnext : Numeral.ofDigits (before ++ [c]) < wordLimit := by
      rw [Numeral.ofDigits_append] at h
      have hpower : 0 < 10 ^ row.length := Nat.pow_pos (by decide)
      nlinarith
    rw [takeDigits_cons, ← Numeral.ofDigits_append_singleton, if_pos hnext]
    exact ih _ h

/-- A number with few digits is read with all of them. -/
theorem toFloat?_eq_ofParts? {n : Number} (hword : n.significand < wordLimit)
    (hexponent : ∀ down row, n.exponent = some (down, row) →
      Numeral.ofDigits row < exponentLimit) :
    n.toFloat? = ofParts? n.negative n.significand n.power := by
  have hwhole : Numeral.ofDigits n.whole < wordLimit := by
    have hpower : 0 < 10 ^ n.fraction.length := Nat.pow_pos (by decide)
    unfold significand at hword
    rw [Numeral.ofDigits_append] at hword
    nlinarith
  have hscaled : n.scaled = (n.significand, -(n.fraction.length : Int)) := by
    have hfirst := takeDigits_ofDigits [] n.whole hwhole
    have hsecond := takeDigits_ofDigits n.whole n.fraction hword
    rw [List.nil_append] at hfirst
    unfold scaled
    rw [show takeDigits 0 n.whole = _ from hfirst]
    dsimp only
    rw [hsecond]
    dsimp only
    rw [List.length_nil, Nat.sub_zero, Nat.cast_zero, zero_sub]
    rfl
  unfold toFloat? power
  rw [hscaled]
  dsimp only
  cases hn : n.exponent with
  | none =>
    dsimp only
    rw [zero_sub]
  | some pair =>
    obtain ⟨down, row⟩ := pair
    dsimp only
    rw [if_neg (Nat.not_le.2 (hexponent down row hn))]
    cases down
    · rw [if_neg Bool.false_ne_true, if_neg Bool.false_ne_true]
      congr 1
      ring
    · rw [if_pos rfl, if_pos rfl]
      congr 1
      ring

/-! ### The number of a decimal -/

/-- A number as it is written for a decimal: in digits that make up the decimal with their power of
ten, and not like an integer. -/
structure IsWrittenFor (n : Number) (d : Decimal) : Prop where
  isWritten : n.IsWritten
  value : (n.significand : ℚ) * 10 ^ n.power = d.value
  cases : n.significand = d.digits ∧ n.power = d.exponent ∨
    n.significand < 10 ^ 17 ∧ n.power = -1
  exponent : ∀ down row, n.exponent = some (down, row) → Numeral.ofDigits row < exponentLimit
  isFloat : (n.fraction.isEmpty && n.exponent.isNone) = false

/-- A decimal with a point, or with a point and a zero behind it. -/
def ofPositional (negative : Bool) (d : Decimal) : Number :=
  ⟨negative, d.positional.1, if d.positional.2.isEmpty then ['0'] else d.positional.2, none⟩

/-- A decimal with an exponent. -/
def ofScientific (negative : Bool) (d : Decimal) : Number :=
  ⟨negative, d.scientific.1, d.scientific.2,
    some (d.leading < 0, Numeral.digits d.leading.natAbs)⟩

theorem ofFloat_eq (x : Binary64) :
    ofFloat x =
      if -5 ≤ (Decimal.shortest .toEven x).leading ∧ (Decimal.shortest .toEven x).leading ≤ 15 then
        ofPositional x.isNegative (Decimal.shortest .toEven x)
      else ofScientific x.isNegative (Decimal.shortest .toEven x) :=
  rfl

variable {d : Decimal}

theorem length_row_pos (d : Decimal) : 0 < d.row.length :=
  List.length_pos_iff.2 (Numeral.digits_ne_nil d.digits)

theorem isDigit_of_mem_row {c : Char} (h : c ∈ d.row) : Numeral.isDigit c = true :=
  Numeral.isDigit_of_mem_digits h

theorem isWrittenFor_ofScientific (negative : Bool) (hlow : -324 ≤ d.exponent)
    (hhigh : d.exponent ≤ 308) (hdigits : d.digits ≤ 10 ^ 17) :
    IsWrittenFor (ofScientific negative d) d := by
  have hlength : d.row.length ≤ 18 := Numeral.length_digits_le (by decide) (by omega)
  have hrow := length_row_pos d
  have hsignificand : (ofScientific negative d).significand = d.digits := by
    show Numeral.ofDigits (d.row.take 1 ++ d.row.drop 1) = _
    rw [List.take_append_drop]
    exact Numeral.ofDigits_digits d.digits
  have hpower : (ofScientific negative d).power = d.exponent := by
    show (if decide (d.leading < 0) then -(Numeral.ofDigits (Numeral.digits d.leading.natAbs) : Int)
      else Numeral.ofDigits (Numeral.digits d.leading.natAbs)) - ((d.row.drop 1).length : Int) = _
    rw [Numeral.ofDigits_digits, List.length_drop]
    unfold Decimal.leading
    split
    · next hneg =>
      have hneg := of_decide_eq_true hneg
      omega
    · next hneg =>
      have hneg := of_decide_eq_false (Bool.eq_false_iff.2 hneg)
      omega
  refine ⟨⟨?_, ?_, ?_, ?_, ?_⟩, ?_, .inl ⟨hsignificand, hpower⟩, ?_, ?_⟩
  · show d.row.take 1 ≠ []
    rw [← List.length_pos_iff, List.length_take]
    omega
  · exact fun c hc => isDigit_of_mem_row (List.mem_of_mem_take hc)
  · left
    show (d.row.take 1).length = 1
    rw [List.length_take]
    omega
  · exact fun c hc => isDigit_of_mem_row (List.mem_of_mem_drop hc)
  · intro down row heq
    obtain ⟨rfl, rfl⟩ := Prod.mk.inj (Option.some.inj heq)
    exact ⟨Numeral.digits_ne_nil _, fun c hc => Numeral.isDigit_of_mem_digits hc⟩
  · rw [hsignificand, hpower]
    rfl
  · intro down row heq
    obtain ⟨rfl, rfl⟩ := Prod.mk.inj (Option.some.inj heq)
    rw [Numeral.ofDigits_digits]
    unfold Decimal.leading exponentLimit
    omega
  · exact Bool.and_false _

/-- A number without an exponent is written for a decimal if its digits make it up with the place of
the point. -/
theorem isWrittenFor_mk (negative : Bool) {whole fraction : List Char} (hwhole : whole ≠ [])
    (hfraction : fraction ≠ []) (hdigits : ∀ c ∈ whole ++ fraction, Numeral.isDigit c = true)
    (hhead : whole.length = 1 ∨ whole.head? ≠ some '0')
    (hcases : Numeral.ofDigits (whole ++ fraction) = d.digits ∧
        -(fraction.length : Int) = d.exponent ∨
      (Numeral.ofDigits (whole ++ fraction) : ℚ) = d.value * 10 ∧
        Numeral.ofDigits (whole ++ fraction) < 10 ^ 17 ∧ fraction.length = 1) :
    IsWrittenFor ⟨negative, whole, fraction, none⟩ d := by
  have hpower : power ⟨negative, whole, fraction, none⟩ = -(fraction.length : Int) := zero_sub _
  refine ⟨⟨hwhole, ?_, hhead, ?_, ?_⟩, ?_, ?_, ?_, ?_⟩
  · exact fun c hc => hdigits c (List.mem_append_left _ hc)
  · exact fun c hc => hdigits c (List.mem_append_right _ hc)
  · exact fun down row heq => absurd heq (Option.some_ne_none _).symm
  · rw [hpower]
    unfold significand
    rcases hcases with ⟨hsame, hexponent⟩ | ⟨hvalue, -, hone⟩
    · rw [hsame, hexponent]
      rfl
    · rw [hone, hvalue, Nat.cast_one, zpow_neg_one, mul_inv_cancel_right₀ (by norm_num)]
  · refine hcases.imp (fun h => ⟨h.1, hpower.trans h.2⟩) fun h => ⟨h.2.1, ?_⟩
    rw [hpower, h.2.2]
    rfl
  · exact fun down row heq => absurd heq (Option.some_ne_none _).symm
  · simp [hfraction]

theorem isDigit_of_mem_replicate {n : Nat} {c : Char} (h : c ∈ List.replicate n '0') :
    Numeral.isDigit c = true := by
  rw [(List.mem_replicate.1 h).2]
  decide

/-- A decimal below one has a zero before the point. -/
theorem isWrittenFor_below_one (negative : Bool) (hpoint : d.leading + 1 ≤ 0) :
    IsWrittenFor (ofPositional negative d) d := by
  have hrow := length_row_pos d
  have hpositional : d.positional =
      (['0'], List.replicate (-(d.leading + 1)).toNat '0' ++ d.row) := if_pos hpoint
  have hfraction : List.replicate (-(d.leading + 1)).toNat '0' ++ d.row ≠ [] :=
    List.append_ne_nil_of_right_ne_nil _ (List.length_pos_iff.1 hrow)
  unfold ofPositional
  rw [hpositional, if_neg (by simpa using hfraction)]
  refine isWrittenFor_mk negative (List.cons_ne_nil _ _) hfraction ?_ (.inl rfl) (.inl ⟨?_, ?_⟩)
  · intro c hc
    rcases List.mem_append.1 hc with hc | hc
    · rw [List.mem_singleton.1 hc]
      decide
    · exact (List.mem_append.1 hc).elim isDigit_of_mem_replicate isDigit_of_mem_row
  · rw [← List.append_assoc, Numeral.ofDigits_append, ← List.replicate_one,
      List.replicate_append_replicate, Numeral.ofDigits_replicate_zero, Nat.zero_mul, Nat.zero_add]
    exact Numeral.ofDigits_digits d.digits
  · rw [List.length_append, List.length_replicate]
    unfold Decimal.leading at hpoint ⊢
    omega

/-- A decimal with a fraction has the point among its digits. -/
theorem isWrittenFor_inside (negative : Bool) (hpoint : 0 < d.leading + 1)
    (hdown : d.exponent < 0) : IsWrittenFor (ofPositional negative d) d := by
  obtain ⟨n, hn⟩ := Int.eq_ofNat_of_zero_le hpoint.le
  have hlength : (n : Int) = d.exponent + d.row.length := by
    rw [← hn]
    unfold Decimal.leading
    ring
  have hpositional : d.positional = (d.row.take n, d.row.drop n) := by
    have hnone : n - d.row.length = 0 := by omega
    unfold Decimal.positional
    dsimp only
    rw [if_neg (by omega), hn, Int.toNat_natCast, hnone, List.replicate_zero, List.append_nil]
  have hfraction : d.row.drop n ≠ [] := by
    rw [← List.length_pos_iff, List.length_drop]
    omega
  unfold ofPositional
  rw [hpositional, if_neg (by simpa using hfraction)]
  refine isWrittenFor_mk negative ?_ hfraction ?_ ?_ (.inl ⟨?_, ?_⟩)
  · rw [← List.length_pos_iff, List.length_take]
    omega
  · rw [List.take_append_drop]
    exact fun c hc => isDigit_of_mem_row hc
  · rcases Numeral.digits_head d.digits with hone | hhead
    · have hrow : d.row.length = 1 := hone
      omega
    · right
      rw [List.head?_take, if_neg (by omega)]
      exact hhead
  · rw [List.take_append_drop]
    exact Numeral.ofDigits_digits d.digits
  · rw [List.length_drop]
    omega

/-- A whole decimal gets a zero behind the point. -/
theorem isWrittenFor_whole (negative : Bool) (hup : 0 ≤ d.exponent) (hrange : d.leading ≤ 15)
    (hzero : 0 < d.digits ∨ d.exponent = 0) :
    IsWrittenFor (ofPositional negative d) d := by
  have hrow := length_row_pos d
  obtain ⟨n, hn⟩ := Int.eq_ofNat_of_zero_le hup
  have hpoint : d.leading + 1 = (d.row.length + n : Nat) := by
    unfold Decimal.leading
    omega
  have hpositional : d.positional = (d.row ++ List.replicate n '0', []) := by
    unfold Decimal.positional
    dsimp only
    rw [if_neg (by omega), hpoint, Int.toNat_natCast, List.take_of_length_le (by omega),
      List.drop_of_length_le (by omega), Nat.add_sub_cancel_left]
  have hvalue : Numeral.ofDigits (d.row ++ List.replicate n '0' ++ ['0']) =
      d.digits * 10 ^ n * 10 := by
    have hsame : Numeral.ofDigits d.row = d.digits := Numeral.ofDigits_digits d.digits
    rw [List.append_assoc, ← List.replicate_one, List.replicate_append_replicate,
      Numeral.ofDigits_append, Numeral.ofDigits_replicate_zero, List.length_replicate, hsame,
      pow_succ]
    ring
  unfold ofPositional
  rw [hpositional, if_pos (by rfl)]
  refine isWrittenFor_mk negative ?_ (List.cons_ne_nil _ _) ?_ ?_ (.inr ⟨?_, ?_, rfl⟩)
  · exact List.append_ne_nil_of_left_ne_nil (List.length_pos_iff.1 hrow) _
  · intro c hc
    rcases List.mem_append.1 hc with hc | hc
    · exact (List.mem_append.1 hc).elim isDigit_of_mem_row isDigit_of_mem_replicate
    · rw [List.mem_singleton.1 hc]
      decide
  · rcases hzero with hpos | hnone
    · right
      rw [List.head?_append_of_ne_nil _ (List.length_pos_iff.1 hrow)]
      exact Numeral.head?_digits_ne_zero hpos
    · obtain rfl : n = 0 := by omega
      rw [List.replicate_zero, List.append_nil]
      exact Numeral.digits_head d.digits
  · rw [hvalue]
    unfold Decimal.value
    rw [hn, zpow_natCast]
    push_cast
    ring
  · have hlength : d.digits < 10 ^ d.row.length := Numeral.lt_ten_pow_length_digits d.digits
    rw [hvalue]
    calc d.digits * 10 ^ n * 10 < 10 ^ d.row.length * 10 ^ n * 10 := by gcongr
      _ = 10 ^ (d.row.length + n + 1) := by rw [pow_succ, pow_add]
      _ ≤ 10 ^ 17 := Nat.pow_le_pow_right (by decide) (by omega)

/-- The number of a finite float that is not zero is written for its shortest decimal. -/
theorem isWrittenFor_ofFloat {x : Binary64} (hx : x.magnitude ≠ 0) (hfinite : x.isFinite = true) :
    IsWrittenFor (ofFloat x) (Decimal.shortest .toEven x) := by
  have hshort := Decimal.isShortFor_shortest .toEven hx hfinite
  rw [ofFloat_eq]
  generalize Decimal.shortest .toEven x = d at hshort ⊢
  split
  · next hrange =>
    rcases le_or_gt (d.leading + 1) 0 with hbelow | hpoint
    · exact isWrittenFor_below_one _ hbelow
    · rcases le_or_gt 0 d.exponent with hup | hdown
      · exact isWrittenFor_whole _ hup hrange.2 (.inl hshort.digits_pos)
      · exact isWrittenFor_inside _ hpoint hdown
  · exact isWrittenFor_ofScientific _ hshort.exponent_ge hshort.exponent_le hshort.digits_le

/-- A zero is written with a zero behind the point. -/
theorem isWrittenFor_ofFloat_zero {x : Binary64} (hx : x.magnitude = 0) :
    IsWrittenFor (ofFloat x) ⟨0, 0⟩ := by
  have hshort : Decimal.shortest .toEven x = ⟨0, 0⟩ := if_pos hx
  have hrow : Decimal.row ⟨0, 0⟩ = ['0'] := by
    unfold Decimal.row Numeral.digits
    rw [if_pos (by decide)]
    rfl
  have hleading : Decimal.leading ⟨0, 0⟩ = 0 := by
    unfold Decimal.leading
    rw [hrow]
    rfl
  rw [ofFloat_eq, hshort, hleading, if_pos (by decide)]
  exact isWrittenFor_whole _ le_rfl (by rw [hleading]; decide) (.inr rfl)

/-! ### What is read -/

open Binary64

/-- A number that is written for a decimal means what its significand and its power of ten do. -/
theorem IsWrittenFor.read?_eq {n : Number} (h : IsWrittenFor n d) (hdigits : d.digits ≤ 10 ^ 17) :
    n.read? = (ofParts? n.negative n.significand n.power).map .float := by
  have hword : n.significand < wordLimit := by
    have hlimit : 10 ^ 17 < wordLimit := by decide
    rcases h.cases with ⟨hsame, -⟩ | ⟨hless, -⟩ <;> omega
  unfold read?
  rw [h.isFloat, Bool.false_and, if_neg Bool.false_ne_true, toFloat?_eq_ofParts? hword h.exponent]

/-- A decimal with many zeros is written with an exponent. -/
theorem IsWrittenFor.eq_of_exponent_ge {n : Number} (h : IsWrittenFor n d) (hdigits : 0 < d.digits)
    (hexponent : 17 ≤ d.exponent) : n.significand = d.digits ∧ n.power = d.exponent := by
  refine h.cases.resolve_right ?_
  rintro ⟨hfew, hone⟩
  have hvalue := h.value
  have hdigit : (1 : ℚ) ≤ d.digits := by exact_mod_cast hdigits
  have hfew' : (n.significand : ℚ) < 10 ^ 17 := by exact_mod_cast hfew
  have hten : (10 : ℚ) ^ 17 ≤ 10 ^ d.exponent := by
    rw [← zpow_natCast]
    exact zpow_le_zpow_right₀ (by norm_num) hexponent
  have hmore : (10 : ℚ) ^ d.exponent ≤ d.value :=
    le_mul_of_one_le_left (zpow_pos (by norm_num) _).le hdigit
  rw [hone, zpow_neg_one] at hvalue
  linarith only [hvalue, hmore, hten, hfew']

/-- What a finite float comes back as: a finite float with its sign, at most two patterns away, and
the float itself if its number has a small significand and a small power of ten. -/
structure ComesBackAs (x y : Binary64) : Prop where
  isNegative : y.isNegative = x.isNegative
  isFinite : y.isFinite = true
  le : y.magnitude ≤ x.magnitude + 2
  ge : x.magnitude ≤ y.magnitude + 2
  eq_of_small : (ofFloat x).significand < 2 ^ 53 → (ofFloat x).power.natAbs ≤ 22 → y = x

theorem ofParts?_zero (negative : Bool) :
    ofParts? negative 0 0 = some (zero negative) ∧
      ofParts? negative 0 (-1) = some (zero negative) := by
  cases negative <;> decide +kernel

variable {x : Binary64}

theorem negative_ofFloat (x : Binary64) : (ofFloat x).negative = x.isNegative := by
  rw [ofFloat_eq]
  split <;> rfl

theorem ofParts?_of_zero (hx : x.magnitude = 0) :
    ofParts? x.isNegative (ofFloat x).significand (ofFloat x).power = some x := by
  have h := isWrittenFor_ofFloat_zero hx
  have hsame : zero x.isNegative = x :=
    eq_of_magnitude_eq (isNegative_ofMagnitude _ (by decide))
      ((magnitude_ofMagnitude _ (by decide)).trans hx.symm)
  have hvalue := h.value
  have hten : (10 : ℚ) ^ (ofFloat x).power ≠ 0 := zpow_ne_zero _ (by norm_num)
  have hsignificand : (ofFloat x).significand = 0 := by
    rw [show Decimal.value ⟨0, 0⟩ = 0 by simp [Decimal.value]] at hvalue
    exact_mod_cast (mul_eq_zero.1 hvalue).resolve_right hten
  obtain ⟨hwhole, hpoint⟩ := ofParts?_zero x.isNegative
  rw [hsignificand]
  rcases h.cases with ⟨-, hpower⟩ | ⟨-, hpower⟩ <;> rw [hpower]
  · exact hwhole.trans (congrArg some hsame)
  · exact hpoint.trans (congrArg some hsame)

/-- The two largest numbers come back as the largest one. -/
theorem largest_table :
    ([false, true].all fun negative => [1, 2].all fun last =>
      let d := Decimal.shortest .toEven (ofMagnitude negative (infinityMagnitude - last))
      d.exponent == 292 &&
        applyExponent? 4 (.ofNat d.digits) 292 ==
          some (ofMagnitude false (infinityMagnitude - 1))) = true := by
  decide +kernel

/-- The two largest numbers are written with the power of ten by which they are read. -/
theorem largest_spec (hfinite : x.isFinite = true) (hlarge : infinityMagnitude ≤ x.magnitude + 2) :
    (Decimal.shortest .toEven x).exponent = 292 ∧
      applyExponent? 4 (.ofNat (Decimal.shortest .toEven x).digits) 292 =
        some (ofMagnitude false (infinityMagnitude - 1)) := by
  have hless : x.magnitude < infinityMagnitude := of_decide_eq_true hfinite
  obtain ⟨last, hlast, hmagnitude⟩ :
      ∃ last ∈ [1, 2], infinityMagnitude - last = x.magnitude := by
    rcases (by omega : infinityMagnitude - 1 = x.magnitude ∨ infinityMagnitude - 2 = x.magnitude)
      with h | h
    · exact ⟨1, List.mem_cons_self, h⟩
    · exact ⟨2, List.mem_cons_of_mem _ List.mem_cons_self, h⟩
  have hsame : ofMagnitude x.isNegative (infinityMagnitude - last) = x := by
    rw [hmagnitude]
    exact eq_of_magnitude_eq (isNegative_ofMagnitude _ x.magnitude_lt)
      (magnitude_ofMagnitude _ x.magnitude_lt)
  have hsign : x.isNegative ∈ [false, true] := by
    cases x.isNegative <;> decide
  have hentry := List.all_eq_true.1 (List.all_eq_true.1 largest_table _ hsign) last hlast
  rw [hsame, Bool.and_eq_true] at hentry
  exact ⟨eq_of_beq hentry.1, eq_of_beq hentry.2⟩

theorem exists_ofParts?_of_largest (hfinite : x.isFinite = true)
    (hlarge : infinityMagnitude ≤ x.magnitude + 2) :
    ∃ y, ofParts? x.isNegative (ofFloat x).significand (ofFloat x).power = some y ∧
      ComesBackAs x y := by
  have hless : x.magnitude < infinityMagnitude := of_decide_eq_true hfinite
  have hlimit : 2 < infinityMagnitude ∧ infinityMagnitude < 0x8000000000000000 := by decide
  have hx : x.magnitude ≠ 0 := by omega
  obtain ⟨hexponent, hread⟩ := largest_spec hfinite hlarge
  obtain ⟨hdigits, hpower⟩ := (isWrittenFor_ofFloat hx hfinite).eq_of_exponent_ge
    (Decimal.isShortFor_shortest .toEven hx hfinite).digits_pos (by omega)
  have hpattern : ∀ negative, (ofMagnitude negative (infinityMagnitude - 1)).magnitude =
      infinityMagnitude - 1 := fun _ => magnitude_ofMagnitude _ (by omega)
  have hvalue : (if x.isNegative then (ofMagnitude false (infinityMagnitude - 1)).negate
      else ofMagnitude false (infinityMagnitude - 1)) =
      ofMagnitude x.isNegative (infinityMagnitude - 1) := by
    cases x.isNegative <;> decide +kernel
  unfold ofParts?
  rw [hdigits, hpower, hexponent, hread, Option.map_some, hvalue]
  refine ⟨_, rfl, isNegative_ofMagnitude _ (by omega), decide_eq_true ?_, ?_, ?_,
    fun _ hfew => ?_⟩
  · rw [hpattern]
    omega
  · rw [hpattern]
    omega
  · rw [hpattern]
    omega
  · rw [hpower, hexponent] at hfew
    exact absurd hfew (by decide)

theorem exists_ofParts?_of_room (hx : x.magnitude ≠ 0)
    (hroom : x.magnitude + 2 < infinityMagnitude) :
    ∃ y, ofParts? x.isNegative (ofFloat x).significand (ofFloat x).power = some y ∧
      ComesBackAs x y := by
  have hfinite : x.isFinite = true := decide_eq_true (by omega)
  have h := isWrittenFor_ofFloat hx hfinite
  have hshort := Decimal.isShortFor_shortest .toEven hx hfinite
  have hword : (ofFloat x).significand ≤ 2 ^ 64 := by
    rcases h.cases with ⟨hsame, -⟩ | ⟨hfew, -⟩
    · exact (hsame.trans_le hshort.digits_le).trans (by norm_num)
    · exact hfew.le.trans (by norm_num)
  have hpower : -324 ≤ (ofFloat x).power ∧ (ofFloat x).power ≤ 308 := by
    have hlow := hshort.exponent_ge
    have hhigh := hshort.exponent_le
    rcases h.cases with ⟨-, hsame⟩ | ⟨-, hone⟩ <;> omega
  have hpos : 0 < (ofFloat x).significand := by
    have hvalue : (0 : ℚ) < (Decimal.shortest .toEven x).value :=
      mul_pos (Nat.cast_pos.2 hshort.digits_pos) (zpow_pos (by norm_num) _)
    rw [← h.value] at hvalue
    exact_mod_cast pos_of_mul_pos_left hvalue (zpow_pos (by norm_num) _).le
  have hrounds := hshort.roundsTo
  rw [← h.value] at hrounds
  obtain ⟨y, hread, ⟨hsign, hle, hge⟩, hexact⟩ :=
    exists_ofParts? x.isNegative hpos hword hpower.1 hpower.2 hrounds hroom
  refine ⟨y, hread, hsign, decide_eq_true (by omega), hle, hge, fun hsmall hfew => ?_⟩
  exact eq_of_magnitude_eq hsign (hexact hsmall hfew)

/-- The number of a finite float is read as a float that is nearly the same. -/
theorem exists_read?_ofFloat (hfinite : x.isFinite = true) :
    ∃ y, (ofFloat x).read? = some (.float y) ∧ ComesBackAs x y := by
  by_cases hx : x.magnitude = 0
  · refine ⟨x, ?_, rfl, hfinite, by omega, by omega, fun _ _ => rfl⟩
    rw [(isWrittenFor_ofFloat_zero hx).read?_eq (by decide), negative_ofFloat,
      ofParts?_of_zero hx, Option.map_some]
  · have hshort := Decimal.isShortFor_shortest .toEven hx hfinite
    obtain ⟨y, hread, hback⟩ : ∃ y, ofParts? x.isNegative (ofFloat x).significand
        (ofFloat x).power = some y ∧ ComesBackAs x y := by
      rcases lt_or_ge (x.magnitude + 2) infinityMagnitude with hroom | hlarge
      · exact exists_ofParts?_of_room hx hroom
      · exact exists_ofParts?_of_largest hfinite hlarge
    refine ⟨y, ?_, hback⟩
    rw [(isWrittenFor_ofFloat hx hfinite).read?_eq hshort.digits_le, negative_ofFloat, hread,
      Option.map_some]

end Json.Number

end ChunkStore
