import ChunkStore.Config.Environment
import ChunkStore.Config.Toml.Reader
import ChunkStore.Proofs.Config.Tables

/-!
# Tables that are read

Whatever a document or an environment says, the table that is read of it has its entries in the
order of the keys at every depth.  A document puts its tables together by changes at rows of keys,
each of which keeps the order; the environment merges one variable after another.
-/

set_option autoImplicit false

namespace ChunkStore.Config

open Value (IsOrdered)

namespace Toml

/-- The values of entries make an ordered table. -/
def InOrder (entries : List (String × Node)) : Prop :=
  (Value.table (entriesToValues entries)).IsOrdered

/-- A change that leaves the entries of an ordered table in order. -/
def KeepsOrder (change : Change) : Prop :=
  ∀ origin entries after changed, InOrder entries →
    change origin entries = some (after, changed) → InOrder changed

variable {change : Change} {entries : List (String × Node)} {node : Node} {value : Value}
  {key : String}

theorem find?_entriesToValues (key : String) (entries : List (String × Node)) :
    Entries.find? key (entriesToValues entries) = (Entries.find? key entries).map Node.toValue := by
  induction entries with
  | nil => rfl
  | cons entry rest ih =>
    obtain ⟨k, node⟩ := entry
    unfold entriesToValues Entries.find?
    split
    · rfl
    · exact ih

theorem entriesToValues_insert (key : String) (node : Node) (entries : List (String × Node)) :
    entriesToValues (Entries.insert key node entries) =
      Entries.insert key node.toValue (entriesToValues entries) := by
  induction entries with
  | nil => rfl
  | cons entry rest ih =>
    obtain ⟨k, other⟩ := entry
    rw [entriesToValues, Entries.insert, Entries.insert]
    cases compare key k with
    | lt | eq => rfl
    | gt => exact congrArg ((k, other.toValue) :: ·) ih

theorem inOrder_nil : InOrder [] :=
  Value.isOrdered_empty

theorem InOrder.insert (h : InOrder entries) (hnode : node.toValue.IsOrdered) :
    InOrder (Entries.insert key node entries) := by
  unfold InOrder
  rw [entriesToValues_insert]
  exact IsOrdered.insert h hnode key

theorem InOrder.find? (h : InOrder entries) (hfind : Entries.find? key entries = some node) :
    node.toValue.IsOrdered := by
  have hvalue : Entries.find? key (entriesToValues entries) = some node.toValue := by
    rw [find?_entriesToValues, hfind]
    rfl
  exact IsOrdered.find? h hvalue

/-- Arrays of tables are arrays, and no keys lead into them. -/
theorem isOrdered_tables (items : List (List (String × Node))) :
    (Node.tables items).toValue.IsOrdered :=
  Value.isOrdered_of_ne_table nofun

/-! ### Changes -/

theorem keepsOrder_changeAt (made : Origin) (hchange : KeepsOrder change) (keys : List String) :
    KeepsOrder (changeAt made change keys) := by
  induction keys with
  | nil => exact hchange
  | cons key rest ih =>
    intro origin entries after changed hentries h
    unfold changeAt at h
    split at h
    · obtain ⟨⟨o, inner⟩, hinner, h⟩ := Option.bind_eq_some_iff.1 h
      obtain ⟨rfl, rfl⟩ := Prod.mk.inj (Option.some.inj h)
      exact hentries.insert (ih _ _ _ _ inOrder_nil hinner)
    · next o inner hfind =>
      split at h
      · exact absurd h (by simp)
      · obtain ⟨⟨o, changed⟩, hchanged, h⟩ := Option.bind_eq_some_iff.1 h
        obtain ⟨rfl, rfl⟩ := Prod.mk.inj (Option.some.inj h)
        exact hentries.insert (ih _ _ _ _ (hentries.find? hfind) hchanged)
    · obtain ⟨⟨o, inner⟩, -, h⟩ := Option.bind_eq_some_iff.1 h
      obtain ⟨rfl, rfl⟩ := Prod.mk.inj (Option.some.inj h)
      exact hentries.insert (isOrdered_tables _)
    · exact absurd h (by simp)

theorem keepsOrder_putValue (isDotted : Bool) (key : String) (hvalue : value.IsOrdered) :
    KeepsOrder (putValue isDotted key value) := by
  intro origin entries after changed hentries h
  unfold putValue at h
  split at h
  · exact absurd h (by simp)
  · split at h
    · obtain ⟨rfl, rfl⟩ := Prod.mk.inj (Option.some.inj h)
      exact hentries.insert hvalue
    · exact absurd h (by simp)

theorem keepsOrder_putEntry (keys : List String) (key : String) (hvalue : value.IsOrdered) :
    KeepsOrder (putEntry keys key value) :=
  keepsOrder_changeAt .dotted (keepsOrder_putValue _ key hvalue) keys

theorem keepsOrder_openTable (key : String) : KeepsOrder (openTable key) := by
  intro origin entries after changed hentries h
  unfold openTable at h
  split at h
  · obtain ⟨rfl, rfl⟩ := Prod.mk.inj (Option.some.inj h)
    exact hentries.insert inOrder_nil
  · next inner hfind =>
    obtain ⟨rfl, rfl⟩ := Prod.mk.inj (Option.some.inj h)
    have hinner : (Node.table .implied inner).toValue.IsOrdered := hentries.find? hfind
    exact hentries.insert hinner
  · exact absurd h (by simp)

theorem keepsOrder_addTable (key : String) : KeepsOrder (addTable key) := by
  intro origin entries after changed hentries h
  unfold addTable at h
  split at h
  · obtain ⟨rfl, rfl⟩ := Prod.mk.inj (Option.some.inj h)
    exact hentries.insert (isOrdered_tables _)
  · obtain ⟨rfl, rfl⟩ := Prod.mk.inj (Option.some.inj h)
    exact hentries.insert (isOrdered_tables _)
  · exact absurd h (by simp)

/-! ### Values -/

theorem isOrdered_moment (row : List Char) : (moment row).IsOrdered :=
  have htext : (Value.text (String.ofList row)).IsOrdered := Value.isOrdered_of_ne_table nofun
  Value.isOrdered_empty.insert htext _

theorem exists_moment_of_moment? {text : List Char} (h : moment? text = some value) :
    ∃ row, value = moment row := by
  unfold moment? at h
  split at h
  · exact ⟨_, (Option.some.inj h).symm⟩
  · split at h
    · obtain ⟨⟨time, left⟩, -, h⟩ := Option.bind_eq_some_iff.1 h
      obtain ⟨offset, -, h⟩ := Option.bind_eq_some_iff.1 h
      exact ⟨_, (Option.some.inj h).symm⟩
    · exact absurd h (by simp)
  · split at h
    · exact ⟨_, (Option.some.inj h).symm⟩
    · exact absurd h (by simp)

theorem exists_signed_of_signed? {negative : Bool} {n : Nat} (h : signed? negative n = some value) :
    ∃ m, value = .signed m := by
  obtain ⟨-, h⟩ := Option.ite_none_right_eq_some.1 h
  exact ⟨_, (Option.some.inj h).symm⟩

theorem exists_signed_of_ofBase? {base : Nat} {text : List Char}
    (h : ofBase? base text = some value) : ∃ m, value = .signed m := by
  obtain ⟨row, -, h⟩ := Option.bind_eq_some_iff.1 h
  exact exists_signed_of_signed? h

theorem exists_signed_of_integer? {text : List Char} (h : integer? text = some value) :
    ∃ m, value = .signed m := by
  unfold integer? at h
  split at h
  · exact exists_signed_of_ofBase? h
  · exact exists_signed_of_ofBase? h
  · exact exists_signed_of_ofBase? h
  · obtain ⟨row, -, h⟩ := Option.bind_eq_some_iff.1 h
    exact exists_signed_of_signed? h

theorem exists_float_of_float? {text : List Char} (h : float? text = some value) :
    ∃ x, value = .float x := by
  have hfinite : ∀ {x : Binary64}, (if x = .infinity false then none else some (.float x)) =
      some value → ∃ x, value = .float x := by
    intro x hx
    exact ⟨x, (Option.some.inj (Option.ite_none_left_eq_some.1 hx).2).symm⟩
  unfold float? at h
  dsimp only at h
  split at h
  · exact ⟨_, (Option.some.inj h).symm⟩
  split at h
  · exact ⟨_, (Option.some.inj h).symm⟩
  split at h
  all_goals
    obtain ⟨exponent, -, h⟩ := Option.bind_eq_some_iff.1 h
    obtain ⟨whole, -, h⟩ := Option.bind_eq_some_iff.1 h
    split at h
    · split at h
      all_goals
        obtain ⟨fraction, -, h⟩ := Option.bind_eq_some_iff.1 h
        exact hfinite h
    · obtain ⟨fraction, -, h⟩ := Option.bind_eq_some_iff.1 h
      exact hfinite h

theorem isOrdered_of_wordValue? {word : List Char} (h : wordValue? word = some value) :
    value.IsOrdered := by
  unfold wordValue? at h
  split at h
  · obtain rfl := Option.some.inj h
    exact Value.isOrdered_of_ne_table nofun
  split at h
  · obtain rfl := Option.some.inj h
    exact Value.isOrdered_of_ne_table nofun
  rcases Option.or_eq_some_iff.1 h with h | ⟨-, h⟩
  · rcases Option.or_eq_some_iff.1 h with h | ⟨-, h⟩
    · obtain ⟨row, rfl⟩ := exists_moment_of_moment? h
      exact isOrdered_moment row
    · obtain ⟨n, rfl⟩ := exists_signed_of_integer? h
      exact Value.isOrdered_of_ne_table nofun
  · obtain ⟨x, rfl⟩ := exists_float_of_float? h
    exact Value.isOrdered_of_ne_table nofun

theorem isOrdered_of_splitWord? {text left : List Char} (h : splitWord? text = some (value, left)) :
    value.IsOrdered := by
  unfold splitWord? at h
  dsimp only at h
  rcases Option.or_eq_some_iff.1 h with h | ⟨-, h⟩
  · split at h
    · obtain ⟨-, h⟩ := Option.ite_none_left_eq_some.1 h
      obtain ⟨moment, hmoment, h⟩ := Option.map_eq_some_iff.1 h
      obtain ⟨rfl, rfl⟩ := Prod.mk.inj h
      obtain ⟨row, rfl⟩ := exists_moment_of_moment? hmoment
      exact isOrdered_moment row
    · exact absurd h (by simp)
  · obtain ⟨word, hword, h⟩ := Option.map_eq_some_iff.1 h
    obtain ⟨rfl, rfl⟩ := Prod.mk.inj h
    exact isOrdered_of_wordValue? hword

/-- Values that are split off with some fuel are ordered. -/
def ValuesInOrder (fuel : Nat) : Prop :=
  ∀ depth text value left, splitValue? fuel depth text = some (value, left) → value.IsOrdered

/-- Fields that are split off with some fuel keep what was found in order. -/
def FieldsInOrder (fuel : Nat) : Prop :=
  ∀ depth found text fields left, InOrder found →
    splitFields? fuel depth found text = some (fields, left) → InOrder fields

theorem valuesInOrder_succ {fuel : Nat} (hfields : FieldsInOrder fuel) :
    ValuesInOrder (fuel + 1) := by
  intro depth text value left h
  unfold splitValue? at h
  split at h
  · obtain ⟨-, h⟩ := Option.ite_none_left_eq_some.1 h
    obtain ⟨⟨items, rest⟩, -, h⟩ := Option.map_eq_some_iff.1 h
    obtain ⟨rfl, rfl⟩ := Prod.mk.inj h
    exact Value.isOrdered_of_ne_table nofun
  · obtain ⟨-, h⟩ := Option.ite_none_left_eq_some.1 h
    split at h
    · obtain ⟨rfl, rfl⟩ := Prod.mk.inj (Option.some.inj h)
      exact Value.isOrdered_empty
    · obtain ⟨⟨fields, rest⟩, hsplit, h⟩ := Option.map_eq_some_iff.1 h
      obtain ⟨rfl, rfl⟩ := Prod.mk.inj h
      exact hfields _ _ _ _ _ inOrder_nil hsplit
  · split at h
    · obtain ⟨⟨inside, rest⟩, -, h⟩ := Option.map_eq_some_iff.1 h
      obtain ⟨rfl, rfl⟩ := Prod.mk.inj h
      exact Value.isOrdered_of_ne_table nofun
    · exact isOrdered_of_splitWord? h
  · exact absurd h (by simp)

theorem fieldsInOrder_succ {fuel : Nat} (hvalues : ValuesInOrder fuel)
    (hfields : FieldsInOrder fuel) : FieldsInOrder (fuel + 1) := by
  intro depth found text fields left hfound h
  unfold splitFields? at h
  obtain ⟨⟨keys, rest⟩, -, h⟩ := Option.bind_eq_some_iff.1 h
  obtain ⟨rest, -, h⟩ := Option.bind_eq_some_iff.1 h
  obtain ⟨⟨value, rest⟩, hvalue, h⟩ := Option.bind_eq_some_iff.1 h
  obtain ⟨⟨after, changed⟩, hchanged, h⟩ := Option.bind_eq_some_iff.1 h
  have hput := keepsOrder_putEntry keys.dropLast (keys.getLast?.getD "") (hvalues _ _ _ _ hvalue)
  have hinOrder : InOrder changed := hput _ _ _ _ hfound hchanged
  dsimp only at h
  split at h
  · exact hfields _ _ _ _ _ hinOrder h
  · obtain ⟨rfl, rfl⟩ := Prod.mk.inj (Option.some.inj h)
    exact hinOrder
  · exact absurd h (by simp)

theorem inOrder_of_split (fuel : Nat) : ValuesInOrder fuel ∧ FieldsInOrder fuel := by
  induction fuel with
  | zero =>
    exact ⟨fun _ _ _ _ h => absurd h (by simp [splitValue?]),
      fun _ _ _ _ _ _ h => absurd h (by simp [splitFields?])⟩
  | succ fuel ih => exact ⟨valuesInOrder_succ ih.2, fieldsInOrder_succ ih.1 ih.2⟩

/-! ### Lines -/

variable {progress after : Progress}

theorem inOrder_of_change? (h : InOrder progress.entries) {keys : List String}
    (hchange : KeepsOrder change) (hafter : progress.change? keys change = some after) :
    InOrder after.entries := by
  obtain ⟨⟨origin, entries⟩, hentries, rfl⟩ := Option.map_eq_some_iff.1 hafter
  exact keepsOrder_changeAt .implied hchange keys _ _ _ _ h hentries

theorem inOrder_of_addHeader? (h : InOrder progress.entries) {keys : List String} {isArray : Bool}
    (hafter : progress.addHeader? keys isArray = some after) : InOrder after.entries := by
  obtain ⟨changed, hchanged, hafter⟩ := Option.bind_eq_some_iff.1 hafter
  obtain rfl := Option.some.inj hafter
  have hchange : ∀ key, KeepsOrder (if isArray = true then addTable key else openTable key) := by
    intro key
    cases isArray with
    | true => exact keepsOrder_addTable key
    | false => exact keepsOrder_openTable key
  have hinOrder : InOrder changed.entries := inOrder_of_change? h (hchange _) hchanged
  exact hinOrder

theorem inOrder_of_splitLineContent? (h : InOrder progress.entries) {text left : List Char}
    (hafter : splitLineContent? progress text = some (after, left)) : InOrder after.entries := by
  unfold splitLineContent? at hafter
  split at hafter
  · obtain ⟨⟨keys, rest⟩, -, hafter⟩ := Option.bind_eq_some_iff.1 hafter
    obtain ⟨rest, -, hafter⟩ := Option.bind_eq_some_iff.1 hafter
    obtain ⟨changed, hchanged, hafter⟩ := Option.bind_eq_some_iff.1 hafter
    obtain ⟨rfl, rfl⟩ := Prod.mk.inj (Option.some.inj hafter)
    exact inOrder_of_addHeader? h hchanged
  · obtain ⟨⟨keys, rest⟩, -, hafter⟩ := Option.bind_eq_some_iff.1 hafter
    obtain ⟨rest, -, hafter⟩ := Option.bind_eq_some_iff.1 hafter
    obtain ⟨changed, hchanged, hafter⟩ := Option.bind_eq_some_iff.1 hafter
    obtain ⟨rfl, rfl⟩ := Prod.mk.inj (Option.some.inj hafter)
    exact inOrder_of_addHeader? h hchanged
  · obtain ⟨⟨keys, rest⟩, -, hafter⟩ := Option.bind_eq_some_iff.1 hafter
    obtain ⟨rest, -, hafter⟩ := Option.bind_eq_some_iff.1 hafter
    obtain ⟨⟨value, rest⟩, hvalue, hafter⟩ := Option.bind_eq_some_iff.1 hafter
    obtain ⟨changed, hchanged, hafter⟩ := Option.bind_eq_some_iff.1 hafter
    obtain ⟨rfl, rfl⟩ := Prod.mk.inj (Option.some.inj hafter)
    have hvalue : value.IsOrdered := (inOrder_of_split _).1 _ _ _ _ hvalue
    exact inOrder_of_change? h (keepsOrder_putEntry _ _ hvalue) hchanged

theorem inOrder_of_readLines? {fuel : Nat} {text : List Char} (h : InOrder progress.entries)
    (hafter : readLines? fuel progress text = some after) : InOrder after.entries := by
  induction fuel generalizing progress text with
  | zero => exact absurd hafter (by simp [readLines?])
  | succ fuel ih =>
    unfold readLines? at hafter
    obtain ⟨text, -, hafter⟩ := Option.bind_eq_some_iff.1 hafter
    split at hafter
    · obtain rfl := Option.some.inj hafter
      exact h
    · obtain ⟨⟨changed, rest⟩, hchanged, hafter⟩ := Option.bind_eq_some_iff.1 hafter
      obtain ⟨rest, -, hafter⟩ := Option.bind_eq_some_iff.1 hafter
      have hchanged := inOrder_of_splitLineContent? h hchanged
      split at hafter
      · obtain rfl := Option.some.inj hafter
        exact hchanged
      · obtain ⟨rest, -, hafter⟩ := Option.bind_eq_some_iff.1 hafter
        exact ih hchanged hafter

/-- The table of a document is ordered. -/
theorem isOrdered_of_ofText? {text : String} {table : Table} (h : ofText? text = some table) :
    (Value.table table).IsOrdered := by
  obtain ⟨progress, hprogress, rfl⟩ := Option.map_eq_some_iff.1 h
  have hstart : InOrder (⟨[], []⟩ : Progress).entries := inOrder_nil
  exact inOrder_of_readLines? hstart hprogress

end Toml

namespace Environment

theorem isOrdered_plainValue (text : List Char) : (plainValue text).IsOrdered := by
  apply Value.isOrdered_of_not_isTable
  unfold plainValue
  dsimp only
  repeat' split
  all_goals simp [Value.IsTable]

/-- Values that are split off with some fuel are ordered. -/
def ValuesInOrder (fuel : Nat) : Prop :=
  ∀ text value left, splitValue? fuel text = some (value, left) → value.IsOrdered

/-- Entries that are split off with some fuel keep what was found in order. -/
def EntriesInOrder (fuel : Nat) : Prop :=
  ∀ found text entries left, (Value.table found).IsOrdered →
    splitEntries? fuel found text = some (entries, left) → (Value.table entries).IsOrdered

theorem valuesInOrder_succ {fuel : Nat} (hentries : EntriesInOrder fuel) :
    ValuesInOrder (fuel + 1) := by
  intro text value left h
  unfold splitValue? at h
  dsimp only at h
  split at h
  · obtain ⟨rfl, rfl⟩ := Prod.mk.inj (Option.some.inj h)
    exact Value.isOrdered_of_ne_table nofun
  split at h
  · obtain ⟨rfl, rfl⟩ := Prod.mk.inj (Option.some.inj h)
    exact Value.isOrdered_of_ne_table nofun
  split at h
  · obtain ⟨⟨found, rest⟩, hfound, h⟩ := Option.bind_eq_some_iff.1 h
    obtain ⟨rfl, rfl⟩ := Prod.mk.inj (Option.some.inj h)
    obtain ⟨⟨entries, rest⟩, hsplit, hfound⟩ := Option.map_eq_some_iff.1 hfound
    obtain ⟨rfl, rfl⟩ := Prod.mk.inj hfound
    exact hentries _ _ _ _ Value.isOrdered_empty hsplit
  · obtain ⟨⟨found, rest⟩, hfound, h⟩ := Option.bind_eq_some_iff.1 h
    obtain ⟨rfl, rfl⟩ := Prod.mk.inj (Option.some.inj h)
    obtain ⟨⟨items, rest⟩, -, hfound⟩ := Option.map_eq_some_iff.1 hfound
    obtain ⟨rfl, rfl⟩ := Prod.mk.inj hfound
    exact Value.isOrdered_of_ne_table nofun
  · obtain ⟨⟨found, rest⟩, hfound, h⟩ := Option.bind_eq_some_iff.1 h
    obtain ⟨rfl, rfl⟩ := Prod.mk.inj (Option.some.inj h)
    obtain ⟨⟨inside, rest⟩, -, hfound⟩ := Option.map_eq_some_iff.1 hfound
    obtain ⟨rfl, rfl⟩ := Prod.mk.inj hfound
    exact Value.isOrdered_of_ne_table nofun
  · obtain ⟨rfl, rfl⟩ := Prod.mk.inj (Option.some.inj h)
    exact Value.isOrdered_of_ne_table nofun
  · exact absurd h (by simp)
  · obtain ⟨rfl, rfl⟩ := Prod.mk.inj (Option.some.inj h)
    exact isOrdered_plainValue _

theorem entriesInOrder_succ {fuel : Nat} (hvalues : ValuesInOrder fuel)
    (hentries : EntriesInOrder fuel) : EntriesInOrder (fuel + 1) := by
  intro found text entries left hfound h
  unfold splitEntries? at h
  split at h
  · obtain ⟨rfl, rfl⟩ := Prod.mk.inj (Option.some.inj h)
    exact hfound
  · obtain ⟨⟨key, rest⟩, -, h⟩ := Option.bind_eq_some_iff.1 h
    obtain ⟨rest, -, h⟩ := Option.bind_eq_some_iff.1 h
    obtain ⟨⟨value, rest⟩, hvalue, h⟩ := Option.bind_eq_some_iff.1 h
    have hinserted := hfound.insert (hvalues _ _ _ hvalue) key
    dsimp only at h
    split at h
    · exact hentries _ _ _ _ hinserted h
    · obtain ⟨rfl, rfl⟩ := Prod.mk.inj (Option.some.inj h)
      exact hinserted
    · exact absurd h (by simp)

theorem inOrder_of_split (fuel : Nat) : ValuesInOrder fuel ∧ EntriesInOrder fuel := by
  induction fuel with
  | zero =>
    exact ⟨fun _ _ _ h => absurd h (by simp [splitValue?]),
      fun _ _ _ _ _ h => absurd h (by simp [splitEntries?])⟩
  | succ fuel ih => exact ⟨valuesInOrder_succ ih.2, entriesInOrder_succ ih.1 ih.2⟩

theorem isOrdered_valueOf (text : String) : (valueOf text).IsOrdered := by
  unfold valueOf
  dsimp only
  split
  · next value hvalue => exact (inOrder_of_split _).1 _ _ _ hvalue
  · exact Value.isOrdered_of_ne_table nofun

theorem isOrdered_addVariable {table : Table} (h : (Value.table table).IsOrdered)
    (named : String × String) : (Value.table (addVariable table named)).IsOrdered := by
  unfold addVariable
  split
  · next key keys hkeys =>
    have hlayer : (Value.table [(key, (valueOf named.2).nested keys)]).IsOrdered :=
      Value.isOrdered_empty.insert ((isOrdered_valueOf named.2).nested keys) key
    have hbefore : ∀ before, some (Value.table table) = some before → before.IsOrdered := by
      rintro before ⟨⟩
      exact h
    exact hlayer.overlay hbefore
  · exact h

/-- The table of an environment is ordered. -/
theorem isOrdered_table (named : List (String × String)) :
    (Value.table (table named)).IsOrdered := by
  unfold table
  generalize named.mergeSort _ = sorted
  suffices h : ∀ before, (Value.table before).IsOrdered →
      (Value.table (sorted.foldl addVariable before)).IsOrdered from h [] Value.isOrdered_empty
  induction sorted with
  | nil => exact fun _ hbefore => hbefore
  | cons head rest ih =>
    intro before hbefore
    exact ih _ (isOrdered_addVariable hbefore head)

end Environment

end ChunkStore.Config
