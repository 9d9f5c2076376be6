import ChunkStore.Json.Reader
import ChunkStore.Json.Writer
import Mathlib

/-!
# What is written reads back

The reader takes any well-formed text; the writer makes only some of them, without blanks and with
strings escaped in one way.  On these the two are inverse: the text of a written tree reads back as
that tree, whatever stands behind it, as long as a number ends there (`IsWritten.readsBack`).

The induction is on the tree.  The length of the text is enough fuel at every level, because each
value in another is shorter by at least the brackets around it.
-/

set_option autoImplicit false

namespace ChunkStore.Json

/-- A number as writers make it: digits everywhere, and no leading zero. -/
structure Number.IsWritten (n : Number) : Prop where
  whole_ne_nil : n.whole ≠ []
  whole_digits : ∀ c ∈ n.whole, Numeral.isDigit c = true
  whole_head : n.whole.length = 1 ∨ n.whole.head? ≠ some '0'
  fraction_digits : ∀ c ∈ n.fraction, Numeral.isDigit c = true
  exponent_digits : ∀ down row, n.exponent = some (down, row) →
    row ≠ [] ∧ ∀ c ∈ row, Numeral.isDigit c = true

/-- Trees as writers make them. -/
inductive IsWritten : Json → Prop where
  | null : IsWritten .null
  | bool (b : Bool) : IsWritten (.bool b)
  | number {n : Number} (h : n.IsWritten) : IsWritten (.number n)
  | string (chars : List Char) : IsWritten (.string (encode chars))
  | array {items : List Json} (h : ∀ item ∈ items, IsWritten item) : IsWritten (.array items)
  | object {fields : List (List Char × Json)}
      (keys : ∀ field ∈ fields, ∃ chars, field.1 = encode chars)
      (values : ∀ field ∈ fields, IsWritten field.2) : IsWritten (.object fields)

/-- A text in front of which a number ends. -/
def EndsNumber (text : List Char) : Prop :=
  ∀ c ∈ text.head?, Numeral.isDigit c = false ∧ c ≠ '.' ∧ c ≠ 'e' ∧ c ≠ 'E'

/-- A character that no number goes on with ends it. -/
theorem endsNumber_cons {c : Char}
    (h : Numeral.isDigit c = false ∧ c ≠ '.' ∧ c ≠ 'e' ∧ c ≠ 'E') (rest : List Char) :
    EndsNumber (c :: rest) := by
  intro d hd
  rw [List.head?_cons, Option.mem_some_iff] at hd
  exact hd ▸ h

/-- Splitting off digits stops where they end. -/
theorem splitDigits_append {row rest : List Char} (hrow : ∀ c ∈ row, Numeral.isDigit c = true)
    (hrest : ∀ c ∈ rest.head?, Numeral.isDigit c = false) :
    splitDigits (row ++ rest) = (row, rest) := by
  unfold splitDigits
  rw [List.span_eq_takeWhile_dropWhile, List.takeWhile_append_of_pos hrow,
    List.dropWhile_append_of_pos hrow]
  cases rest with
  | nil => simp
  | cons c rest =>
    have hc : Numeral.isDigit c = false := hrest c rfl
    simp [hc]

theorem splitDigits?_append {row rest : List Char} (hne : row ≠ [])
    (hrow : ∀ c ∈ row, Numeral.isDigit c = true)
    (hrest : ∀ c ∈ rest.head?, Numeral.isDigit c = false) :
    splitDigits? (row ++ rest) = some (row, rest) := by
  unfold splitDigits?
  rw [splitDigits_append hrow hrest]
  simp [hne]

/-- The text of an exponent. -/
def exponentChars : Option (Bool × List Char) → List Char
  | none => []
  | some (down, row) => ['e', if down then '-' else '+'] ++ row

/-- The text of a fraction. -/
def fractionChars (fraction : List Char) : List Char :=
  if fraction.isEmpty then [] else '.' :: fraction

/-- A written exponent is split off. -/
theorem splitExponent?_append {exponent : Option (Bool × List Char)} {rest : List Char}
    (h : ∀ down row, exponent = some (down, row) →
      row ≠ [] ∧ ∀ c ∈ row, Numeral.isDigit c = true)
    (hrest : EndsNumber rest) :
    splitExponent? (exponentChars exponent ++ rest) = some (exponent, rest) := by
  cases exponent with
  | none =>
    cases rest with
    | nil => rfl
    | cons c rest =>
      obtain ⟨-, -, he, hE⟩ := hrest c rfl
      simp [exponentChars, splitExponent?, he, hE]
  | some pair =>
    obtain ⟨down, row⟩ := pair
    obtain ⟨hne, hrow⟩ := h down row rfl
    have hsplit : splitDigits? (row ++ rest) = some (row, rest) :=
      splitDigits?_append hne hrow fun c hc => (hrest c hc).1
    cases down <;> simp [exponentChars, splitExponent?, hsplit]

/-- A written fraction is split off. -/
theorem splitFraction?_append {fraction rest : List Char}
    (h : ∀ c ∈ fraction, Numeral.isDigit c = true)
    (hrest : ∀ c ∈ rest.head?, Numeral.isDigit c = false ∧ c ≠ '.') :
    splitFraction? (fractionChars fraction ++ rest) = some (fraction, rest) := by
  cases fraction with
  | nil =>
    cases rest with
    | nil => rfl
    | cons c rest =>
      have hc : c ≠ '.' := (hrest c rfl).2
      simp [fractionChars, splitFraction?, hc]
  | cons d fraction =>
    have hsplit : splitDigits? (d :: fraction ++ rest) = some (d :: fraction, rest) :=
      splitDigits?_append (by simp) h fun c hc => (hrest c hc).1
    simpa [fractionChars, splitFraction?] using hsplit

/-- The text of a number in the parts in which it is read. -/
theorem Number.toChars_eq (n : Number) :
    n.toChars = (if n.negative then ['-'] else []) ++
      (n.whole ++ (fractionChars n.fraction ++ exponentChars n.exponent)) := by
  unfold Number.toChars fractionChars exponentChars
  cases n.exponent <;> simp

theorem splitUnsigned?_append {n : Number} (h : n.IsWritten) {rest : List Char}
    (hrest : EndsNumber rest) :
    splitUnsigned? n.negative
      (n.whole ++ (fractionChars n.fraction ++ (exponentChars n.exponent ++ rest))) =
      some (n, rest) := by
  have hexp : ∀ c ∈ (exponentChars n.exponent ++ rest).head?,
      Numeral.isDigit c = false ∧ c ≠ '.' := by
    intro c hc
    cases he : n.exponent with
    | none =>
      rw [he] at hc
      exact ⟨(hrest c hc).1, (hrest c hc).2.1⟩
    | some pair =>
      rw [he] at hc
      simp only [exponentChars, List.cons_append, List.head?_cons, Option.mem_some_iff] at hc
      subst hc
      decide
  have hfrac : ∀ c ∈ (fractionChars n.fraction ++ (exponentChars n.exponent ++ rest)).head?,
      Numeral.isDigit c = false := by
    intro c hc
    cases hf : n.fraction with
    | nil =>
      rw [hf] at hc
      exact (hexp c hc).1
    | cons d fraction =>
      rw [hf] at hc
      simp only [fractionChars, List.isEmpty_cons, List.cons_append, List.head?_cons,
        Option.mem_some_iff, Bool.false_eq_true, if_false] at hc
      subst hc
      decide
  have hwhole : ¬(n.whole.length ≠ 1 ∧ n.whole.head? = some '0') := by
    rintro ⟨hlength, hhead⟩
    rcases h.whole_head with hone | hne
    · exact hlength hone
    · exact hne hhead
  unfold splitUnsigned?
  rw [splitDigits?_append h.whole_ne_nil h.whole_digits hfrac]
  simp only [Option.bind_eq_bind, Option.bind_some, if_neg hwhole]
  rw [splitFraction?_append h.fraction_digits hexp]
  simp only [Option.bind_some]
  rw [splitExponent?_append h.exponent_digits hrest]
  rfl

/-- A written number is split off. -/
theorem splitNumber?_append {n : Number} (h : n.IsWritten) {rest : List Char}
    (hrest : EndsNumber rest) : splitNumber? (n.toChars ++ rest) = some (n, rest) := by
  have hsplit := splitUnsigned?_append h hrest
  rw [Number.toChars_eq]
  simp only [List.append_assoc]
  cases hn : n.negative with
  | true =>
    rw [hn] at hsplit
    simpa [splitNumber?] using hsplit
  | false =>
    rw [hn] at hsplit
    cases hw : n.whole with
    | nil => exact absurd hw h.whole_ne_nil
    | cons d whole =>
      have hd : Numeral.isDigit d = true := h.whole_digits d (by rw [hw]; simp)
      have hminus : d ≠ '-' := by
        rintro rfl
        exact absurd hd (by decide)
      rw [hw] at hsplit
      simpa [splitNumber?, hminus] using hsplit

/-- One escaped character is taken over as it stands. -/
theorem splitLexeme?_encodeChar_append (c : Char) (rest : List Char) :
    splitLexeme? (encodeChar c ++ rest) =
      (splitLexeme? rest).map fun (lexeme, after) => (encodeChar c ++ lexeme, after) := by
  unfold encodeChar
  repeat' split
  all_goals try (subst_vars; simp [splitLexeme?, shortEscape?])
  · next h => simp [hexFour?_hexDigit h]
  · next _ hslash _ _ _ _ _ hlow => simp [splitLexeme?, hslash, hlow]

/-- Reading stops at the quote behind a written string. -/
theorem splitLexeme?_encode_append (chars rest : List Char) :
    splitLexeme? (encode chars ++ '\"' :: rest) = some (encode chars, rest) := by
  induction chars with
  | nil => rfl
  | cons c chars ih =>
    have hcons : encode (c :: chars) = encodeChar c ++ encode chars := rfl
    rw [hcons, List.append_assoc, splitLexeme?_encodeChar_append, ih]
    rfl


theorem skipBlanks_cons {c : Char} (h : isBlank c = false) (rest : List Char) :
    skipBlanks (c :: rest) = c :: rest := by
  simp [skipBlanks, h]

theorem isBlank_of_isDigit {c : Char} (h : Numeral.isDigit c = true) : isBlank c = false := by
  simp only [Numeral.isDigit, Bool.and_eq_true, decide_eq_true_eq] at h
  simp only [isBlank, Bool.or_eq_false_iff, decide_eq_false_iff_not]
  refine ⟨⟨⟨?_, ?_⟩, ?_⟩, ?_⟩ <;> (rintro rfl; revert h; decide)

/-- A number starts with a digit or a minus sign. -/
theorem Number.IsWritten.exists_cons {n : Number} (h : n.IsWritten) :
    ∃ c rest, n.toChars = c :: rest ∧ (Numeral.isDigit c = true ∨ c = '-') := by
  rw [Number.toChars_eq]
  cases n.negative with
  | true => exact ⟨'-', _, rfl, .inr rfl⟩
  | false =>
    cases hw : n.whole with
    | nil => exact absurd hw h.whole_ne_nil
    | cons d whole => exact ⟨d, _, rfl, .inl (h.whole_digits d (by rw [hw]; simp))⟩

/-- A written number is read, whatever number it is. -/
theorem splitValue?_number {n : Number} (h : n.IsWritten) {rest : List Char}
    (hrest : EndsNumber rest) (fuel : Nat) :
    splitValue? (fuel + 1) (n.toChars ++ rest) = some (.number n, rest) := by
  obtain ⟨c, more, hcons, hc⟩ := h.exists_cons
  have hsplit := splitNumber?_append h hrest
  have hblank : isBlank c = false := by
    rcases hc with hc | rfl
    · exact isBlank_of_isDigit hc
    · decide
  have hno : ∀ d, Numeral.isDigit d = false → d ≠ '-' → c ≠ d := by
    rintro d hd hminus rfl
    rcases hc with hc | hc
    · rw [hd] at hc
      exact absurd hc (by decide)
    · exact hminus hc
  unfold splitValue?
  rw [hcons] at hsplit ⊢
  rw [List.cons_append, skipBlanks_cons hblank]
  split
  · next heq => exact absurd (List.cons.inj heq).1 (hno 'n' (by decide) (by decide))
  · next heq => exact absurd (List.cons.inj heq).1 (hno 't' (by decide) (by decide))
  · next heq => exact absurd (List.cons.inj heq).1 (hno 'f' (by decide) (by decide))
  · next heq => exact absurd (List.cons.inj heq).1 (hno '\"' (by decide) (by decide))
  · next heq => exact absurd (List.cons.inj heq).1 (hno '[' (by decide) (by decide))
  · next heq => exact absurd (List.cons.inj heq).1 (hno '\x7b' (by decide) (by decide))
  · rw [List.cons_append] at hsplit
    rw [hsplit]
    rfl

/-- A value starts with no blank, and is told apart from the end of an array. -/
theorem IsWritten.exists_cons {json : Json} (h : json.IsWritten) :
    ∃ c rest, json.toChars = c :: rest ∧ isBlank c = false ∧ c ≠ ']' := by
  cases h with
  | null => exact ⟨'n', _, by simp only [toChars]; rfl, by decide, by decide⟩
  | bool b => cases b <;> exact ⟨_, _, by simp only [toChars]; rfl, by decide, by decide⟩
  | number h =>
    obtain ⟨c, rest, hcons, hc⟩ := h.exists_cons
    refine ⟨c, rest, by simpa [toChars] using hcons, ?_, ?_⟩
    · rcases hc with hc | rfl
      · exact isBlank_of_isDigit hc
      · decide
    · rintro rfl
      revert hc
      decide
  | string chars => exact ⟨'\"', _, by simp only [toChars]; rfl, by decide, by decide⟩
  | array h => exact ⟨'[', _, by simp only [toChars]; rfl, by decide, by decide⟩
  | object keys values => exact ⟨'\x7b', _, by simp only [toChars]; rfl, by decide, by decide⟩

/-- A tree reads back from its text, whatever stands behind it, with the length of the text as fuel.
-/
def ReadsBack (json : Json) : Prop :=
  ∀ fuel rest, json.toChars.length ≤ fuel → EndsNumber rest →
    splitValue? fuel (json.toChars ++ rest) = some (json, rest)

/-- The items of an array are read if each of them is. -/
theorem splitItems?_append {items : List Json} (hne : items ≠ [])
    (h : ∀ item ∈ items, ReadsBack item) (rest : List Char) :
    ∀ fuel, (itemsToChars items).length < fuel →
      splitItems? fuel (itemsToChars items ++ ']' :: rest) = some (items, rest) := by
  induction items with
  | nil => exact absurd rfl hne
  | cons item items ih =>
    intro fuel hfuel
    have hitem : ReadsBack item := h item (by simp)
    cases fuel with
    | zero => omega
    | succ fuel =>
      cases items with
      | nil =>
        simp only [itemsToChars] at hfuel ⊢
        unfold splitItems?
        rw [hitem fuel _ (by omega) (endsNumber_cons (by decide) _)]
        simp [skipBlanks, isBlank]
      | cons next items =>
        simp only [itemsToChars, List.length_append, List.length_cons] at hfuel
        have htail := ih (by simp) (fun other hother => h other (by simp [hother])) fuel
          (by omega)
        unfold splitItems?
        simp only [itemsToChars, List.append_assoc, List.cons_append]
        rw [hitem fuel _ (by omega) (endsNumber_cons (by decide) _)]
        simp [skipBlanks, isBlank, htail]

/-- One field of an object is read up to what stands behind its value. -/
theorem splitFields?_field {value : Json} (hvalue : ReadsBack value) (chars : List Char)
    {after : List Char} (hafter : EndsNumber after) {fuel : Nat}
    (hfuel : value.toChars.length ≤ fuel) :
    splitFields? (fuel + 1)
      ('\"' :: (encode chars ++ '\"' :: ':' :: (value.toChars ++ after))) =
      match skipBlanks after with
      | '\x7d' :: rest => some ([(encode chars, value)], rest)
      | ',' :: rest =>
        (splitFields? fuel rest).map fun (fields, rest) => ((encode chars, value) :: fields, rest)
      | _ => none := by
  have hread := hvalue fuel after hfuel hafter
  conv_lhs => unfold splitFields?
  rw [skipBlanks_cons (by decide)]
  simp only [splitLexeme?_encode_append, Option.bind_eq_bind, Option.bind_some]
  rw [skipBlanks_cons (by decide)]
  show (splitValue? fuel (value.toChars ++ after)).bind _ = _
  rw [hread]
  rfl

/-- The fields of an object are read if each of their values is. -/
theorem splitFields?_append {fields : List (List Char × Json)} (hne : fields ≠ [])
    (keys : ∀ field ∈ fields, ∃ chars, field.1 = encode chars)
    (values : ∀ field ∈ fields, ReadsBack field.2) (rest : List Char) :
    ∀ fuel, (fieldsToChars fields).length < fuel →
      splitFields? fuel (fieldsToChars fields ++ '\x7d' :: rest) = some (fields, rest) := by
  induction fields with
  | nil => exact absurd rfl hne
  | cons field fields ih =>
    intro fuel hfuel
    obtain ⟨key, value⟩ := field
    obtain ⟨chars, rfl⟩ : ∃ chars, key = encode chars := keys (key, value) (by simp)
    have hvalue : ReadsBack value := values (encode chars, value) (by simp)
    cases fuel with
    | zero => omega
    | succ fuel =>
      cases fields with
      | nil =>
        simp only [fieldsToChars, List.length_cons, List.length_append] at hfuel
        simp only [fieldsToChars, List.append_assoc, List.cons_append]
        rw [splitFields?_field hvalue chars (endsNumber_cons (by decide) _) (by omega),
          skipBlanks_cons (by decide)]
        rfl
      | cons next fields =>
        simp only [fieldsToChars, List.length_cons, List.length_append] at hfuel
        have htail := ih (by simp) (fun other hother => keys other (by simp [hother]))
          (fun other hother => values other (by simp [hother])) fuel (by omega)
        simp only [fieldsToChars, List.append_assoc, List.cons_append]
        rw [splitFields?_field hvalue chars (endsNumber_cons (by decide) _) (by omega),
          skipBlanks_cons (by decide)]
        simp [htail]

/-- Every written tree reads back. -/
theorem IsWritten.readsBack {json : Json} (h : json.IsWritten) : ReadsBack json := by
  induction h with
  | null =>
    intro fuel rest hfuel hrest
    cases fuel with
    | zero => simp [toChars] at hfuel
    | succ fuel => simp [toChars, splitValue?, skipBlanks, isBlank]
  | bool b =>
    intro fuel rest hfuel hrest
    cases fuel with
    | zero => cases b <;> simp [toChars] at hfuel
    | succ fuel => cases b <;> simp [toChars, splitValue?, skipBlanks, isBlank]
  | number h =>
    intro fuel rest hfuel hrest
    cases fuel with
    | zero =>
      obtain ⟨c, more, hcons, -⟩ := h.exists_cons
      simp [toChars, hcons] at hfuel
    | succ fuel => simpa only [toChars] using splitValue?_number h hrest fuel
  | string chars =>
    intro fuel rest hfuel hrest
    cases fuel with
    | zero => simp [toChars] at hfuel
    | succ fuel =>
      simp only [toChars, List.cons_append, List.append_assoc, List.nil_append]
      unfold splitValue?
      rw [skipBlanks_cons (by decide)]
      simp [splitLexeme?_encode_append]
  | @array items h ih =>
    intro fuel rest hfuel hrest
    simp only [toChars, List.length_cons, List.length_append] at hfuel
    cases fuel with
    | zero => simp at hfuel
    | succ fuel =>
      simp only [toChars, List.cons_append, List.append_assoc, List.nil_append]
      unfold splitValue?
      rw [skipBlanks_cons (by decide)]
      cases items with
      | nil => simp [itemsToChars, skipBlanks, isBlank]
      | cons item items =>
        obtain ⟨c, more, hcons, hblank, hc⟩ := (h item (by simp)).exists_cons
        have hitems := splitItems?_append (by simp) ih rest fuel (by omega)
        obtain ⟨tail, htail⟩ : ∃ tail, itemsToChars (item :: items) = c :: tail := by
          cases items <;> simp [itemsToChars, hcons]
        rw [htail] at hitems ⊢
        simp only [List.cons_append] at hitems ⊢
        rw [skipBlanks_cons hblank]
        simp [hc, hitems]
  | @object fields keys values ih =>
    intro fuel rest hfuel hrest
    simp only [toChars, List.length_cons, List.length_append] at hfuel
    cases fuel with
    | zero => simp at hfuel
    | succ fuel =>
      simp only [toChars, List.cons_append, List.append_assoc, List.nil_append]
      unfold splitValue?
      rw [skipBlanks_cons (by decide)]
      cases fields with
      | nil => simp [fieldsToChars, skipBlanks, isBlank]
      | cons field fields =>
        have hfields := splitFields?_append (by simp) keys ih rest fuel (by omega)
        obtain ⟨tail, htail⟩ : ∃ tail, fieldsToChars (field :: fields) = '\"' :: tail := by
          cases fields <;> simp [fieldsToChars]
        rw [htail] at hfields ⊢
        simp only [List.cons_append] at hfields ⊢
        rw [skipBlanks_cons (by decide)]
        simp [hfields]

/-- The text of a written tree stands for that tree. -/
theorem ofString?_render {json : Json} (h : json.IsWritten) :
    ofString? json.render = some json := by
  have hread := h.readsBack (json.toChars.length + 1) [] (by omega) (by simp [EndsNumber])
  rw [List.append_nil] at hread
  unfold ofString? render ofChars?
  rw [String.toList_ofList, hread]
  rfl

/-! ### Trees that are written -/

theorem Number.isWritten_ofInt (n : Int) : (Number.ofInt n).IsWritten where
  whole_ne_nil := Numeral.digits_ne_nil _
  whole_digits := fun _ hc => Numeral.isDigit_of_mem_digits hc
  whole_head := Numeral.digits_head _
  fraction_digits := by simp [Number.ofInt]
  exponent_digits := by simp [Number.ofInt]

theorem Number.isWritten_ofNat (n : Nat) : (Number.ofNat n).IsWritten :=
  Number.isWritten_ofInt n

theorem isWritten_ofText (text : String) : (ofText text).IsWritten :=
  .string text.toList

theorem isWritten_ofNat (n : Nat) : (ofNat n).IsWritten :=
  .number (Number.isWritten_ofNat n)

theorem isWritten_ofInt (n : Int) : (ofInt n).IsWritten :=
  .number (Number.isWritten_ofInt n)

/-- An object of written values is written. -/
theorem isWritten_ofFields {fields : List (String × Json)}
    (h : ∀ field ∈ fields, field.2.IsWritten) : (ofFields fields).IsWritten := by
  apply IsWritten.object
  · intro field hfield
    obtain ⟨⟨key, value⟩, -, rfl⟩ := List.mem_map.1 hfield
    exact ⟨key.toList, rfl⟩
  · intro field hfield
    obtain ⟨⟨key, value⟩, hmem, rfl⟩ := List.mem_map.1 hfield
    exact h _ hmem

end ChunkStore.Json
