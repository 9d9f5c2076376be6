/-!
# Dictionaries with one written form

A `Dict` keeps its entries in strictly increasing order of their keys, so a dictionary is determined
by what it finds: two dictionaries with the same entries are equal (`Dict.ext_find?`), whatever the
order in which the entries were put in.  `find?_insert` and `find?_erase` say what each operation
does to the view `find?`.
-/

set_option autoImplicit false

namespace ChunkStore

variable {κ α β : Type}

/-! ### Association lists -/

namespace Entries

variable [Ord κ]

/-- The entries stand in strictly increasing order of their keys. -/
def Ascending (entries : List (κ × α)) : Prop :=
  entries.Pairwise fun a b => compare a.1 b.1 = .lt

/-- The value at a key. -/
def find? (key : κ) : List (κ × α) → Option α
  | [] => none
  | (k, x) :: rest => if compare key k = .eq then some x else find? key rest

/-- Puts a value at a key, in the place of the one that was there. -/
def insert (key : κ) (value : α) : List (κ × α) → List (κ × α)
  | [] => [(key, value)]
  | (k, x) :: rest =>
    match compare key k with
    | .lt => (key, value) :: (k, x) :: rest
    | .eq => (key, value) :: rest
    | .gt => (k, x) :: insert key value rest

/-- Takes a key out. -/
def erase (key : κ) (entries : List (κ × α)) : List (κ × α) :=
  entries.filter fun entry => compare key entry.1 != .eq

theorem mem_insert {key : κ} {value : α} {entries : List (κ × α)} {entry : κ × α}
    (h : entry ∈ insert key value entries) : entry = (key, value) ∨ entry ∈ entries := by
  induction entries with
  | nil => simpa [insert] using h
  | cons head rest ih =>
    obtain ⟨k, x⟩ := head
    unfold insert at h
    split at h <;> simp only [List.mem_cons] at h ⊢
    · exact h
    · rcases h with h | h
      · exact .inl h
      · exact .inr (.inr h)
    · rcases h with h | h
      · exact .inr (.inl h)
      · rcases ih h with h | h
        · exact .inl h
        · exact .inr (.inr h)

theorem ascending_insert [Std.TransOrd κ] [Std.LawfulEqOrd κ] (key : κ) (value : α)
    {entries : List (κ × α)} (h : Ascending entries) :
    Ascending (insert key value entries) := by
  induction entries with
  | nil => simp [insert, Ascending]
  | cons head rest ih =>
    obtain ⟨k, x⟩ := head
    have hrest : Ascending rest := (List.pairwise_cons.1 h).2
    have hk := (List.pairwise_cons.1 h).1
    unfold insert
    split
    · next hlt =>
      refine List.pairwise_cons.2 ⟨?_, h⟩
      intro entry hentry
      rcases List.mem_cons.1 hentry with rfl | hentry
      · exact hlt
      · exact Std.TransCmp.lt_trans hlt (hk _ hentry)
    · next heq =>
      have : key = k := Std.LawfulEqOrd.eq_of_compare heq
      subst this
      exact List.pairwise_cons.2 ⟨hk, hrest⟩
    · next hgt =>
      refine List.pairwise_cons.2 ⟨?_, ih hrest⟩
      intro entry hentry
      rcases mem_insert hentry with rfl | hentry
      · exact Std.OrientedCmp.lt_of_gt hgt
      · exact hk _ hentry

theorem ascending_erase (key : κ) {entries : List (κ × α)} (h : Ascending entries) :
    Ascending (erase key entries) :=
  List.Pairwise.filter _ h

theorem find?_insert_self [Std.LawfulEqOrd κ] (key : κ) (value : α) (entries : List (κ × α)) :
    find? key (insert key value entries) = some value := by
  induction entries with
  | nil => simp [insert, find?]
  | cons head rest ih =>
    obtain ⟨k, x⟩ := head
    unfold insert
    split
    · simp [find?]
    · simp [find?]
    · next hgt => simp [find?, hgt, ih]

theorem find?_insert_of_ne [Std.LawfulEqOrd κ] {key other : κ} (h : other ≠ key) (value : α)
    (entries : List (κ × α)) :
    find? other (insert key value entries) = find? other entries := by
  induction entries with
  | nil => simp [insert, find?, h]
  | cons head rest ih =>
    obtain ⟨k, x⟩ := head
    unfold insert
    split
    · simp [find?, h]
    · next heq =>
      have : key = k := Std.LawfulEqOrd.eq_of_compare heq
      subst this
      simp [find?, h]
    · simp [find?, ih]

theorem find?_erase_self (key : κ) (entries : List (κ × α)) :
    find? key (erase key entries) = none := by
  induction entries with
  | nil => rfl
  | cons head rest ih =>
    obtain ⟨k, x⟩ := head
    unfold erase at ih ⊢
    by_cases hk : compare key k = .eq
    · simpa [hk] using ih
    · simpa [hk, find?] using ih

theorem find?_erase_of_ne [Std.LawfulEqOrd κ] {key other : κ} (h : other ≠ key)
    (entries : List (κ × α)) :
    find? other (erase key entries) = find? other entries := by
  induction entries with
  | nil => rfl
  | cons head rest ih =>
    obtain ⟨k, x⟩ := head
    unfold erase at ih ⊢
    by_cases hk : compare key k = .eq
    · have : key = k := Std.LawfulEqOrd.eq_of_compare hk
      subst this
      simpa [find?, h] using ih
    · by_cases ho : compare other k = .eq <;> simp [hk, find?, ho, ih]

theorem find?_eq_none_of_lt {key : κ} {entries : List (κ × α)}
    (h : ∀ entry ∈ entries, compare key entry.1 = .lt) : find? key entries = none := by
  induction entries with
  | nil => rfl
  | cons head rest ih =>
    obtain ⟨k, x⟩ := head
    have := h (k, x) (by simp)
    simp only [find?, this]
    simpa using ih fun entry hentry => h entry (by simp [hentry])

theorem mem_of_find?_eq_some [Std.LawfulEqOrd κ] {key : κ} {value : α} {entries : List (κ × α)}
    (h : find? key entries = some value) : (key, value) ∈ entries := by
  induction entries with
  | nil => simp [find?] at h
  | cons head rest ih =>
    obtain ⟨k, x⟩ := head
    unfold find? at h
    split at h
    · next heq =>
      have hk : key = k := Std.LawfulEqOrd.eq_of_compare heq
      simp only [Option.some.injEq] at h
      simp [hk, h]
    · exact List.mem_cons_of_mem _ (ih h)

theorem find?_eq_some_of_mem [Std.TransOrd κ] [Std.LawfulEqOrd κ] {key : κ} {value : α}
    {entries : List (κ × α)} (hasc : Ascending entries) (h : (key, value) ∈ entries) :
    find? key entries = some value := by
  induction entries with
  | nil => simp at h
  | cons head rest ih =>
    obtain ⟨k, x⟩ := head
    have hk := (List.pairwise_cons.1 hasc).1
    rcases List.mem_cons.1 h with heq | hmem
    · obtain ⟨rfl, rfl⟩ := Prod.mk.injEq .. ▸ heq
      simp [find?]
    · have hgt : compare key k = .gt := Std.OrientedCmp.gt_of_lt (hk _ hmem)
      simp [find?, hgt, ih (List.pairwise_cons.1 hasc).2 hmem]

/-- Ordered entries are determined by what they find. -/
theorem eq_of_find?_eq [Std.TransOrd κ] [Std.LawfulEqOrd κ] {left right : List (κ × α)}
    (hl : Ascending left) (hr : Ascending right)
    (h : ∀ key, find? key left = find? key right) : left = right := by
  induction left generalizing right with
  | nil =>
    cases right with
    | nil => rfl
    | cons head rest => simpa [find?] using h head.1
  | cons head rest ih =>
    obtain ⟨k, x⟩ := head
    have hk := (List.pairwise_cons.1 hl).1
    cases right with
    | nil => simpa [find?] using h k
    | cons head' rest' =>
      obtain ⟨k', x'⟩ := head'
      have hk' := (List.pairwise_cons.1 hr).1
      have hkk : k = k' := by
        rcases hc : compare k k' with _ | _ | _
        · have h1 : find? k ((k', x') :: rest') = none := by
            refine find?_eq_none_of_lt fun entry hentry => ?_
            rcases List.mem_cons.1 hentry with rfl | hentry
            · exact hc
            · exact Std.TransCmp.lt_trans hc (hk' _ hentry)
          rw [← h k] at h1
          simp [find?] at h1
        · exact Std.LawfulEqOrd.eq_of_compare hc
        · have hc' : compare k' k = .lt := Std.OrientedCmp.lt_of_gt hc
          have h1 : find? k' ((k, x) :: rest) = none := by
            refine find?_eq_none_of_lt fun entry hentry => ?_
            rcases List.mem_cons.1 hentry with rfl | hentry
            · exact hc'
            · exact Std.TransCmp.lt_trans hc' (hk _ hentry)
          rw [h k'] at h1
          simp [find?] at h1
      subst hkk
      have hx : x = x' := by simpa [find?] using h k
      subst hx
      have hrest : rest = rest' := by
        refine ih (List.pairwise_cons.1 hl).2 (List.pairwise_cons.1 hr).2 fun key => ?_
        have hkey := h key
        by_cases hq : compare key k = .eq
        · have : key = k := Std.LawfulEqOrd.eq_of_compare hq
          subst this
          rw [find?_eq_none_of_lt hk, find?_eq_none_of_lt hk']
        · simpa [find?, hq] using hkey
      rw [hrest]

end Entries

/-! ### Dictionaries -/

/-- A finite map from keys to values, kept in strictly increasing order of the keys. -/
structure Dict (κ α : Type) [Ord κ] where
  entries : List (κ × α)
  ascending : Entries.Ascending entries
deriving DecidableEq

namespace Dict

variable [Ord κ]

/-- The dictionary without entries. -/
def empty : Dict κ α :=
  ⟨[], List.Pairwise.nil⟩

instance : Inhabited (Dict κ α) := ⟨empty⟩

/-- The entries in increasing order of their keys. -/
def toList (dict : Dict κ α) : List (κ × α) :=
  dict.entries

/-- The value at a key. -/
def find? (dict : Dict κ α) (key : κ) : Option α :=
  Entries.find? key dict.entries

/-- Whether a key has a value. -/
def contains (dict : Dict κ α) (key : κ) : Bool :=
  (dict.find? key).isSome

/-- The keys in increasing order. -/
def keys (dict : Dict κ α) : List κ :=
  dict.entries.map Prod.fst

/-- The number of entries. -/
def size (dict : Dict κ α) : Nat :=
  dict.entries.length

/-- Whether there is no entry. -/
def isEmpty (dict : Dict κ α) : Bool :=
  dict.entries.isEmpty

/-- Applies a function to every value. -/
def map (f : α → β) (dict : Dict κ α) : Dict κ β :=
  ⟨dict.entries.map fun entry => (entry.1, f entry.2), by
    have h := dict.ascending
    unfold Entries.Ascending at h ⊢
    rwa [List.pairwise_map]⟩

theorem ascending_keys (dict : Dict κ α) :
    dict.keys.Pairwise fun a b => compare a b = .lt := by
  unfold keys
  rw [List.pairwise_map]
  exact dict.ascending

theorem isEmpty_eq_true_iff {dict : Dict κ α} : dict.isEmpty = true ↔ dict.keys = [] := by
  simp [isEmpty, keys]

theorem eq_empty_of_isEmpty {dict : Dict κ α} (h : dict.isEmpty = true) : dict = empty := by
  obtain ⟨entries, hasc⟩ := dict
  obtain rfl : entries = [] := List.isEmpty_iff.1 h
  rfl

/-- Takes a key out. -/
def erase (dict : Dict κ α) (key : κ) : Dict κ α :=
  ⟨Entries.erase key dict.entries, Entries.ascending_erase key dict.ascending⟩

variable [Std.TransOrd κ] [Std.LawfulEqOrd κ]

/-- Puts a value at a key, in the place of the one that was there. -/
def insert (dict : Dict κ α) (key : κ) (value : α) : Dict κ α :=
  ⟨Entries.insert key value dict.entries, Entries.ascending_insert key value dict.ascending⟩

/-- Puts in a list of entries; of entries with one key the last stays. -/
def ofList (entries : List (κ × α)) : Dict κ α :=
  entries.foldl (fun dict entry => dict.insert entry.1 entry.2) empty

theorem ext_find? {left right : Dict κ α} (h : ∀ key, left.find? key = right.find? key) :
    left = right := by
  obtain ⟨l, hl⟩ := left
  obtain ⟨r, hr⟩ := right
  have : l = r := Entries.eq_of_find?_eq hl hr h
  subst this
  rfl

omit [Std.TransOrd κ] [Std.LawfulEqOrd κ] in
@[simp] theorem find?_empty (key : κ) : (empty : Dict κ α).find? key = none := rfl

theorem find?_insert [DecidableEq κ] (dict : Dict κ α) (key other : κ) (value : α) :
    (dict.insert key value).find? other = if other = key then some value else dict.find? other := by
  split
  · next h => exact h ▸ Entries.find?_insert_self other value dict.entries
  · next h => exact Entries.find?_insert_of_ne h value dict.entries

theorem insert_eq_self [DecidableEq κ] {dict : Dict κ α} {key : κ} {value : α}
    (h : dict.find? key = some value) : dict.insert key value = dict := by
  apply ext_find?
  intro other
  rw [find?_insert]
  split
  · next heq => rw [heq, h]
  · rfl

omit [Std.TransOrd κ] in
theorem find?_erase [DecidableEq κ] (dict : Dict κ α) (key other : κ) :
    (dict.erase key).find? other = if other = key then none else dict.find? other := by
  split
  · next h => exact h ▸ Entries.find?_erase_self other dict.entries
  · next h => exact Entries.find?_erase_of_ne h dict.entries

theorem mem_toList {dict : Dict κ α} {key : κ} {value : α} :
    (key, value) ∈ dict.toList ↔ dict.find? key = some value :=
  ⟨Entries.find?_eq_some_of_mem dict.ascending, Entries.mem_of_find?_eq_some⟩

theorem mem_keys {dict : Dict κ α} {key : κ} :
    key ∈ dict.keys ↔ ∃ value, dict.find? key = some value := by
  unfold keys
  rw [List.mem_map]
  constructor
  · rintro ⟨⟨k, value⟩, hmem, rfl⟩
    exact ⟨value, mem_toList.1 hmem⟩
  · rintro ⟨value, h⟩
    exact ⟨(key, value), mem_toList.2 h, rfl⟩

theorem contains_eq_true_iff {dict : Dict κ α} {key : κ} :
    dict.contains key = true ↔ key ∈ dict.keys := by
  rw [mem_keys, contains, Option.isSome_iff_exists]

theorem find?_foldl_insert [DecidableEq κ] {entries : List (κ × α)}
    (hasc : Entries.Ascending entries) (dict : Dict κ α) (key : κ) :
    (entries.foldl (fun dict entry => dict.insert entry.1 entry.2) dict).find? key =
      (Entries.find? key entries).or (dict.find? key) := by
  induction entries generalizing dict with
  | nil => rfl
  | cons head rest ih =>
    obtain ⟨k, x⟩ := head
    have hk := (List.pairwise_cons.1 hasc).1
    rw [List.foldl_cons, ih (List.pairwise_cons.1 hasc).2, find?_insert]
    by_cases hkey : key = k
    · subst hkey
      simp [Entries.find?_eq_none_of_lt hk, Entries.find?]
    · simp [hkey, Entries.find?]

/-- A dictionary comes back from its entries. -/
theorem ofList_toList [DecidableEq κ] (dict : Dict κ α) : ofList dict.toList = dict := by
  apply ext_find?
  intro key
  unfold ofList toList
  rw [find?_foldl_insert dict.ascending, find?_empty, Option.or_none]
  rfl

omit [Std.TransOrd κ] in
theorem find?_foldl_erase [DecidableEq κ] (keys : List κ) (dict : Dict κ α) (key : κ) :
    (keys.foldl erase dict).find? key = if key ∈ keys then none else dict.find? key := by
  induction keys generalizing dict with
  | nil => simp
  | cons k keys ih =>
    rw [List.foldl_cons, ih, find?_erase]
    by_cases hk : key = k <;> by_cases hmem : key ∈ keys <;> simp [hk, hmem]

omit [Std.TransOrd κ] in
theorem keys_nodup (dict : Dict κ α) : dict.keys.Nodup :=
  dict.ascending_keys.imp fun hlt heq => by
    rw [heq] at hlt
    simp at hlt

end Dict

end ChunkStore
