import ChunkStore.Proofs.Boundary.Texts

/-!
# Texts in the order of their bytes

Texts are compared character by character.  Their bytes are in the same order, because the first
byte in which two characters differ is the smaller one for the smaller character, and no character
starts with all the bytes of another one.
-/

set_option autoImplicit false

namespace ChunkStore

theorem ofNat_lt_ofNat_iff {m n : Nat} (hm : m < 256) (hn : n < 256) :
    UInt8.ofNat m < UInt8.ofNat n ↔ m < n := by
  rw [UInt8.lt_iff_toNat_lt, UInt8.toNat_ofNat_of_lt' hm, UInt8.toNat_ofNat_of_lt' hn]

theorem ofNat_eq_ofNat_iff {m n : Nat} (hm : m < 256) (hn : n < 256) :
    UInt8.ofNat m = UInt8.ofNat n ↔ m = n := by
  rw [← UInt8.toNat_inj, UInt8.toNat_ofNat_of_lt' hm, UInt8.toNat_ofNat_of_lt' hn]

/-- The bytes of a smaller character come first, whatever follows. -/
theorem utf8EncodeChar_append_lt {c d : Char} (h : c < d) (left right : List UInt8) :
    String.utf8EncodeChar c ++ left < String.utf8EncodeChar d ++ right := by
  have hlt : c.val.toNat < d.val.toNat := h
  have hmost : d.val.toNat < 0x110000 := by
    rcases d.valid with hvalid | ⟨-, hvalid⟩
    · exact Nat.lt_trans hvalid (by decide)
    · exact hvalid
  unfold String.utf8EncodeChar
  generalize c.val.toNat = m at *
  generalize d.val.toNat = n at *
  -- The bytes behind the first one are digits to the base of 64, and the first one has the rest.
  have hdigits : ∀ k : Nat, k < 0x110000 → k / 64 / 64 = k / 4096 ∧ k / 4096 / 64 = k / 262144 ∧
      k / 262144 % 8 = k / 262144 := by
    intro k hk
    exact ⟨Nat.div_div_eq_div_mul k 64 64, Nat.div_div_eq_div_mul k 4096 64,
      Nat.mod_eq_of_lt (by omega)⟩
  obtain ⟨hlow, hmiddle, hrest⟩ := hdigits m (by omega)
  obtain ⟨hlow', hmiddle', hrest'⟩ := hdigits n hmost
  dsimp only
  split_ifs <;>
    simp (disch := omega) only [List.cons_append, List.cons_lt_cons_iff, ofNat_lt_ofNat_iff,
      ofNat_eq_ofNat_iff] <;> omega

theorem append_lt_append_iff (front left right : List UInt8) :
    front ++ left < front ++ right ↔ left < right := by
  induction front with
  | nil => rfl
  | cons byte front ih =>
    rw [List.cons_append, List.cons_append, List.cons_lt_cons_iff, ih]
    simp

theorem flatMap_utf8EncodeChar_lt_iff (left right : List Char) :
    left.flatMap String.utf8EncodeChar < right.flatMap String.utf8EncodeChar ↔ left < right := by
  induction left generalizing right with
  | nil =>
    cases right with
    | nil => simp
    | cons d right =>
      obtain ⟨byte, bytes, hbytes⟩ :=
        List.exists_cons_of_ne_nil (String.utf8EncodeChar_ne_nil (c := d))
      rw [List.flatMap_cons, hbytes]
      simp
  | cons c left ih =>
    cases right with
    | nil => simp
    | cons d right =>
      rw [List.flatMap_cons, List.flatMap_cons, List.cons_lt_cons_iff]
      rcases Std.lt_trichotomy c d with hlt | rfl | hgt
      · exact iff_of_true (utf8EncodeChar_append_lt hlt _ _) (.inl hlt)
      · rw [append_lt_append_iff, ih]
        simp
      · have hbytes := utf8EncodeChar_append_lt hgt (right.flatMap String.utf8EncodeChar)
          (left.flatMap String.utf8EncodeChar)
        refine iff_of_false (List.lt_asymm hbytes) ?_
        rintro (hlt | ⟨rfl, -⟩)
        · exact absurd hlt (Char.lt_asymm hgt)
        · exact absurd hgt (Char.lt_irrefl c)

/-- Texts are in the order of their bytes. -/
theorem bytesOf_lt_iff (first second : String) :
    bytesOf first < bytesOf second ↔ first < second := by
  rw [bytesOf_eq_flatMap, bytesOf_eq_flatMap, flatMap_utf8EncodeChar_lt_iff]
  rfl

/-- The comparison of texts compares their bytes. -/
theorem compare_text_eq_lt_iff (first second : String) :
    compare first second = .lt ↔ bytesOf first < bytesOf second := by
  rw [bytesOf_lt_iff]
  exact compareOfLessAndEq_eq_lt

end ChunkStore
