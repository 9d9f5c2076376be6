import ChunkStore.Json.Decode
import ChunkStore.Json.Writer

/-!
# Typed values come back from their trees

For each way of writing a value as a tree, reading the tree as that type gives the value.  Records
and dictionaries come back if their parts do, so the forms of larger values need no induction of
their own.
-/

set_option autoImplicit false

namespace ChunkStore.Json

variable {α κ : Type}

theorem encodeChar_of_isDigit {c : Char} (h : Numeral.isDigit c = true) : encodeChar c = [c] := by
  have hrange : 48 ≤ c.toNat ∧ c.toNat ≤ 57 := by
    simpa [Numeral.isDigit] using h
  have hno : ∀ d : Char, ¬(48 ≤ d.toNat ∧ d.toNat ≤ 57) → c ≠ d := by
    rintro d hd rfl
    exact hd hrange
  unfold encodeChar
  rw [if_neg (hno _ (by decide)), if_neg (hno _ (by decide)), if_neg (hno _ (by decide)),
    if_neg (hno _ (by decide)), if_neg (hno _ (by decide)), if_neg (hno _ (by decide)),
    if_neg (hno _ (by decide)), if_neg (by omega)]

/-- Digits stand inside quotes as themselves. -/
theorem encode_digits (n : Nat) : encode (Numeral.digits n) = Numeral.digits n := by
  have hall : ∀ row : List Char, (∀ c ∈ row, Numeral.isDigit c = true) → encode row = row := by
    intro row
    induction row with
    | nil => intro _; rfl
    | cons c row ih =>
      intro h
      have hcons : encode (c :: row) = encodeChar c ++ encode row := rfl
      rw [hcons, encodeChar_of_isDigit (h c (by simp)), ih fun d hd => h d (by simp [hd])]
      rfl
  exact hall _ fun c hc => Numeral.isDigit_of_mem_digits hc

/-- A key comes back from its lexeme. -/
theorem lexemeText?_encode (text : String) : lexemeText? (encode text.toList) = some text := by
  simp [lexemeText?, decode?_encode]

/-- A string comes back from its leaf. -/
theorem asText?_ofText (text : String) : (ofText text).asText? = some text :=
  lexemeText?_encode text

theorem read?_ofNat {n : Nat} (h : n < UInt64.size) :
    (Number.ofNat n).read? = some (.natural n) := by
  unfold Number.read? Number.wordLimit
  simp [Number.ofNat, Numeral.ofDigits_digits, h]

theorem asNatural?_ofNat {n limit : Nat} (h : n < limit) (hword : n < UInt64.size) :
    (ofNat n).asNatural? limit = some n := by
  unfold ofNat asNatural?
  simp only [read?_ofNat hword, if_pos h]

/-- An unsigned integer of 64 bits comes back from its leaf. -/
theorem asUInt64?_ofNat (n : UInt64) : (ofNat n.toNat).asUInt64? = some n := by
  have hlt := n.toNat_lt_size
  unfold asUInt64?
  rw [asNatural?_ofNat hlt hlt, Option.map_some, UInt64.ofNat_toNat]

/-- An unsigned integer of 32 bits comes back from its leaf. -/
theorem asUInt32?_ofNat (n : UInt32) : (ofNat n.toNat).asUInt32? = some n := by
  have hlt := n.toNat_lt_size
  have hword : n.toNat < UInt64.size := Nat.lt_trans hlt (by decide)
  unfold asUInt32?
  rw [asNatural?_ofNat hlt hword, Option.map_some, UInt32.ofNat_toNat]

theorem read?_ofInt_of_nonneg {n : Int} (hnonneg : 0 ≤ n) (h : n.natAbs < UInt64.size) :
    (Number.ofInt n).read? = some (.natural n.natAbs) := by
  have hnot : ¬n < 0 := by omega
  unfold Number.read? Number.wordLimit
  simp [Number.ofInt, Numeral.ofDigits_digits, hnot, h]

theorem read?_ofInt_of_neg {n : Int} (hneg : n < 0) (h : n.natAbs ≤ 0x8000000000000000) :
    (Number.ofInt n).read? = some (.negative n.natAbs) := by
  have hne : n ≠ 0 := by omega
  have hword : n.natAbs < UInt64.size := Nat.lt_of_le_of_lt h (by decide)
  have hsigned : ¬0x8000000000000000 < n.natAbs := Nat.not_lt.2 h
  unfold Number.read? Number.wordLimit
  simp [Number.ofInt, Numeral.ofDigits_digits, hneg, hne, hword, hsigned]

/-- A signed integer comes back from its leaf. -/
theorem asInt64?_ofInt (n : Int64) : (ofInt n.toInt).asInt64? = some n := by
  have hlow : -0x8000000000000000 ≤ n.toInt := n.le_toInt
  have hhigh : n.toInt < 0x8000000000000000 := n.toInt_lt
  unfold ofInt asInt64?
  by_cases hneg : n.toInt < 0
  · have hread := read?_ofInt_of_neg hneg (by omega)
    have habs : -(n.toInt.natAbs : Int) = n.toInt := by omega
    simp only [hread]
    rw [habs, Int64.ofInt_toInt]
  · have hlt : n.toInt.natAbs < 0x8000000000000000 := by omega
    have hword : n.toInt.natAbs < UInt64.size := Nat.lt_trans hlt (by decide)
    have hread := read?_ofInt_of_nonneg (by omega) hword
    have habs : (n.toInt.natAbs : Int) = n.toInt := by omega
    simp only [hread, if_pos hlt]
    rw [habs, Int64.ofInt_toInt]

theorem addField?_of_new {found : List (String × Json)} {names : List String} {name : String}
    (hname : name ∈ names) (hnew : found.lookup name = none) (value : Json) :
    addField? found names (encode name.toList, value) = some ((name, value) :: found) := by
  simp [addField?, lexemeText?_encode, hname, hnew]

/-- Going through fields with names of their own finds all of them, the last one first. -/
theorem foldlM_addField? (names : List String) (fields found : List (String × Json))
    (hnames : ∀ field ∈ fields, field.1 ∈ names)
    (hnew : ∀ field ∈ fields, found.lookup field.1 = none)
    (hnodup : (fields.map Prod.fst).Nodup) :
    (fields.map fun (key, value) => (encode key.toList, value)).foldlM
      (fun found field => addField? found names field) found = some (fields.reverse ++ found) := by
  induction fields generalizing found with
  | nil => rfl
  | cons field fields ih =>
    obtain ⟨name, value⟩ := field
    have hnotin : name ∉ fields.map Prod.fst := (List.nodup_cons.1 hnodup).1
    have hadd := addField?_of_new (hnames (name, value) (by simp))
      (hnew (name, value) (by simp)) value
    have htail := ih ((name, value) :: found) (fun other hother => hnames other (by simp [hother]))
      (fun other hother => by
        have hne : other.1 ≠ name := by
          rintro rfl
          exact hnotin (List.mem_map.2 ⟨other, hother, rfl⟩)
        have hold := hnew other (by simp [hother])
        have hbeq : (other.1 == name) = false := by simpa using hne
        simp [List.lookup_cons, hbeq, hold])
      (List.nodup_cons.1 hnodup).2
    simp only [List.map_cons, List.foldlM_cons, hadd, Option.bind_eq_bind, Option.bind_some]
    simpa using htail

/-- A record comes back from its fields. -/
theorem asRecord?_ofFields {names : List String} (fields : List (String × Json))
    (hnames : fields.map Prod.fst = names) (hnodup : names.Nodup) :
    (ofFields fields).asRecord? names = some fields.reverse := by
  have hmem : ∀ field ∈ fields, field.1 ∈ names :=
    fun field hfield => hnames ▸ List.mem_map.2 ⟨field, hfield, rfl⟩
  have hfold := foldlM_addField? names fields [] hmem (fun _ _ => rfl) (hnames ▸ hnodup)
  simpa [ofFields, asRecord?] using hfold

theorem mapM_map_eq_some {β γ : Type} {write : α → γ} {read : γ → Option β} {result : α → β}
    {list : List α} (h : ∀ x ∈ list, read (write x) = some (result x)) :
    (list.map write).mapM read = some (list.map result) := by
  induction list with
  | nil => rfl
  | cons x list ih =>
    rw [List.map_cons, List.mapM_cons, h x (by simp), ih fun y hy => h y (by simp [hy])]
    rfl

/-- One item that is not read spoils a list. -/
theorem mapM_eq_none {β γ : Type} {read : γ → Option β} {list : List γ} {x : γ} (hx : x ∈ list)
    (h : read x = none) : list.mapM read = none := by
  induction list with
  | nil => exact absurd hx List.not_mem_nil
  | cons y list ih =>
    rw [List.mapM_cons]
    rcases List.mem_cons.1 hx with rfl | hx
    · rw [h]
      rfl
    · rw [ih hx]
      cases read y <;> rfl

section

variable [Ord κ] [Std.TransOrd κ] [Std.LawfulEqOrd κ] {decodeKey : List Char → Option κ}

/-- A dictionary is read from entries in any order, each value as what is read for it. -/
theorem asDict?_ofEntries {β : Type} {decode : Json → Option β} (name : κ → String)
    (write : α → Json) (result : α → β) {entries : List (κ × α)}
    (hkey : ∀ entry ∈ entries, decodeKey (encode (name entry.1).toList) = some entry.1)
    (hvalue : ∀ entry ∈ entries, decode (write entry.2) = some (result entry.2)) :
    (ofFields (entries.map fun entry => (name entry.1, write entry.2))).asDict? decodeKey decode =
      some (Dict.ofList (entries.map fun entry => (entry.1, result entry.2))) := by
  have hmap : (entries.map fun entry => (encode (name entry.1).toList, write entry.2)).mapM
      (fun (lexeme, value) => do return (← decodeKey lexeme, ← decode value)) =
        some (entries.map fun entry => (entry.1, result entry.2)) :=
    mapM_map_eq_some fun entry hentry => by simp [hkey entry hentry, hvalue entry hentry]
  have hcomp : (fun field : String × Json => (encode field.1.toList, field.2)) ∘
      (fun entry : κ × α => (name entry.1, write entry.2)) =
      fun entry => (encode (name entry.1).toList, write entry.2) := rfl
  simp only [ofFields, asDict?, List.map_map]
  rw [hcomp, hmap, Option.map_some]

/-- A dictionary is not read if one of its values is not. -/
theorem asDict?_ofEntries_eq_none {β : Type} {decode : Json → Option β} (name : κ → String)
    (write : α → Json) {entries : List (κ × α)} {entry : κ × α} (hentry : entry ∈ entries)
    (hvalue : decode (write entry.2) = none) :
    (ofFields (entries.map fun entry => (name entry.1, write entry.2))).asDict? decodeKey decode =
      none := by
  have hmem : (encode (name entry.1).toList, write entry.2) ∈
      (entries.map fun entry => (name entry.1, write entry.2)).map
        fun (key, value) => (encode key.toList, value) :=
    List.mem_map.2 ⟨_, List.mem_map.2 ⟨entry, hentry, rfl⟩, rfl⟩
  simp only [ofFields, asDict?]
  rw [mapM_eq_none hmem (by simp [hvalue]), Option.map_none]

/-- A dictionary comes back from its fields if its keys and values do. -/
theorem asDict?_ofFields [DecidableEq κ] {decode : Json → Option α} (name : κ → String)
    (write : α → Json) {dict : Dict κ α}
    (hkey : ∀ entry ∈ dict.toList, decodeKey (encode (name entry.1).toList) = some entry.1)
    (hvalue : ∀ entry ∈ dict.toList, decode (write entry.2) = some entry.2) :
    (ofFields (dict.toList.map fun entry => (name entry.1, write entry.2))).asDict?
      decodeKey decode = some dict := by
  rw [asDict?_ofEntries name write (fun value => value) hkey hvalue, List.map_id',
    Dict.ofList_toList]

end

end ChunkStore.Json
