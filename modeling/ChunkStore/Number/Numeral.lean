/-!
# Decimal numerals

The digits of a natural number, most significant first and without leading zeros, and the number
that a row of digits stands for.  Writing and then reading gives the number back
(`ofDigits_digits`), so different numbers have different numerals (`digits_injective`).
-/

set_option autoImplicit false

namespace ChunkStore.Numeral

/-- The character of a digit below ten. -/
def digitChar (digit : Nat) : Char :=
  Char.ofNat (48 + digit)

/-- The value of a decimal digit. -/
def digitValue (c : Char) : Nat :=
  c.toNat - 48

/-- Whether a character is one of the ten ASCII digits. -/
def isDigit (c : Char) : Bool :=
  48 ≤ c.toNat && c.toNat ≤ 57

/-- The decimal digits of a number, most significant first; zero has one digit. -/
def digits (n : Nat) : List Char :=
  if n < 10 then [digitChar n] else digits (n / 10) ++ [digitChar (n % 10)]
termination_by n

/-- The number that a row of digits stands for; the empty row stands for zero. -/
def ofDigits (row : List Char) : Nat :=
  row.foldl (fun n c => 10 * n + digitValue c) 0

/-- The decimal numeral of a number. -/
def text (n : Nat) : String :=
  String.ofList (digits n)

/-- The decimal numeral of an integer, with a minus sign below zero. -/
def signedText (n : Int) : String :=
  if n < 0 then "-" ++ text n.natAbs else text n.natAbs

theorem digitValue_digitChar {digit : Nat} (h : digit < 10) :
    digitValue (digitChar digit) = digit := by
  have : ∀ d : Fin 10, digitValue (digitChar d.val) = d.val := by decide
  exact this ⟨digit, h⟩

theorem isDigit_digitChar {digit : Nat} (h : digit < 10) : isDigit (digitChar digit) = true := by
  have : ∀ d : Fin 10, isDigit (digitChar d.val) = true := by decide
  exact this ⟨digit, h⟩

theorem ofDigits_append_singleton (row : List Char) (c : Char) :
    ofDigits (row ++ [c]) = 10 * ofDigits row + digitValue c := by
  simp [ofDigits]

theorem ofDigits_digits (n : Nat) : ofDigits (digits n) = n := by
  fun_induction digits n with
  | case1 n h => simp [ofDigits, digitValue_digitChar h]
  | case2 n h ih =>
    rw [ofDigits_append_singleton, ih, digitValue_digitChar (Nat.mod_lt _ (by decide))]
    omega

theorem digits_injective {m n : Nat} (h : digits m = digits n) : m = n := by
  rw [← ofDigits_digits m, h, ofDigits_digits]

theorem isDigit_of_mem_digits {n : Nat} {c : Char} (h : c ∈ digits n) : isDigit c = true := by
  fun_induction digits n with
  | case1 n hn => rw [List.mem_singleton.1 h]; exact isDigit_digitChar hn
  | case2 n hn ih =>
    rcases List.mem_append.1 h with h | h
    · exact ih h
    · rw [List.mem_singleton.1 h]; exact isDigit_digitChar (Nat.mod_lt _ (by decide))

theorem digits_ne_nil (n : Nat) : digits n ≠ [] := by
  unfold digits
  split <;> simp

theorem head?_digits_ne_zero {n : Nat} (h : 0 < n) : (digits n).head? ≠ some '0' := by
  fun_induction digits n with
  | case1 n hn =>
    have : ∀ d : Fin 10, 0 < d.val → [digitChar d.val].head? ≠ some '0' := by decide
    exact this ⟨n, hn⟩ h
  | case2 n hn ih =>
    rw [List.head?_append, Option.or_of_isSome (by simpa using digits_ne_nil _)]
    exact ih (by omega)

/-- A numeral has no leading zero. -/
theorem digits_head (n : Nat) : (digits n).length = 1 ∨ (digits n).head? ≠ some '0' := by
  by_cases hn : n < 10
  · left
    unfold digits
    simp [hn]
  · exact .inr (head?_digits_ne_zero (by omega))

end ChunkStore.Numeral
