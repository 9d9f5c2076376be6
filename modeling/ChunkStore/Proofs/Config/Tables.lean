import ChunkStore.Config.Value

/-!
# Merging tables

What a newer value that is merged over an older one makes of a row of keys.  The newer value decides
if it has something there, or something else than a table on the way; else the older value stays.
Where it has anything but a table, that replaces whatever was there before.
-/

set_option autoImplicit false

namespace ChunkStore.Config.Value

/-- A value with further keys below it. -/
def IsTable (value : Value) : Prop :=
  ∃ entries, value = .table entries

/-- Tables have their entries in the order of the keys, one for each key, at every depth. -/
def IsOrdered (value : Value) : Prop :=
  ∀ path entries, value.find? path = some (.table entries) → Entries.Ascending entries

/-- Something else than a table stands on the way of a row of keys. -/
def Blocks (value : Value) (path : List String) : Prop :=
  ∃ above found, above <+: path ∧ above ≠ path ∧ value.find? above = some found ∧ ¬found.IsTable

/-- There is a value at a row of keys, or something else than a table on the way. -/
def Decides (value : Value) (path : List String) : Prop :=
  (∃ found, value.find? path = some found) ∨ value.Blocks path

/-- What a newer value makes of an older one, if there was one. -/
def overlay (before? : Option Value) (newer : Value) : Value :=
  match before? with
  | none => newer
  | some before => merge before newer

variable {value newer before inner found : Value} {before? : Option Value}
  {entries older : List (String × Value)} {key : String} {path rest : List String}

/-! ### Rows of keys -/

theorem isTable_table (entries : List (String × Value)) : (table entries).IsTable :=
  ⟨entries, rfl⟩

theorem find?_table_cons (key : String) (rest : List String) (entries : List (String × Value)) :
    (table entries).find? (key :: rest) = (Entries.find? key entries).bind (·.find? rest) :=
  rfl

theorem find?_cons_of_not_isTable (h : ¬value.IsTable) : value.find? (key :: rest) = none := by
  cases value with
  | table entries => exact absurd (isTable_table entries) h
  | _ => rfl

theorem find?_append (value : Value) (path rest : List String) :
    value.find? (path ++ rest) = (value.find? path).bind (·.find? rest) := by
  induction path generalizing value with
  | nil => rfl
  | cons key path ih =>
    cases value with
    | table entries =>
      rw [List.cons_append, find?_table_cons, find?_table_cons, Option.bind_assoc]
      exact congrArg (Entries.find? key entries).bind (funext fun inner => ih inner)
    | _ => rfl

theorem Blocks.find?_eq_none (h : value.Blocks path) : value.find? path = none := by
  obtain ⟨above, found, ⟨rest, rfl⟩, hne, hfind, hfound⟩ := h
  cases rest with
  | nil => exact absurd (List.append_nil above).symm hne
  | cons key rest =>
    rw [find?_append, hfind]
    exact find?_cons_of_not_isTable hfound

theorem decides_nil (value : Value) : value.Decides [] :=
  .inl ⟨value, rfl⟩

theorem decides_cons_of_not_isTable (h : ¬value.IsTable) : value.Decides (key :: rest) :=
  .inr ⟨[], value, List.nil_prefix, (List.cons_ne_nil key rest).symm, rfl, h⟩

/-- A table decides as far as what it has at the first key does. -/
theorem decides_cons_iff : (table entries).Decides (key :: rest) ↔
    ∃ inner, Entries.find? key entries = some inner ∧ inner.Decides rest := by
  constructor
  · rintro (⟨found, hfind⟩ | ⟨above, found, habove, hne, hfind, hfound⟩)
    · obtain ⟨inner, hkey, hfind⟩ := Option.bind_eq_some_iff.1 hfind
      exact ⟨inner, hkey, .inl ⟨found, hfind⟩⟩
    · cases above with
      | nil =>
        obtain rfl := Option.some.inj hfind
        exact absurd (isTable_table entries) hfound
      | cons other above =>
        obtain ⟨rfl, hprefix⟩ := List.cons_prefix_cons.1 habove
        obtain ⟨inner, hkey, hfind⟩ := Option.bind_eq_some_iff.1 hfind
        have hne : above ≠ rest := fun heq => hne (congrArg (other :: ·) heq)
        exact ⟨inner, hkey, .inr ⟨above, found, hprefix, hne, hfind, hfound⟩⟩
  · rintro ⟨inner, hkey, hdecides⟩
    have hcons : ∀ row, (table entries).find? (key :: row) = inner.find? row := by
      intro row
      rw [find?_table_cons, hkey]
      rfl
    rcases hdecides with ⟨found, hfind⟩ | ⟨above, found, habove, hne, hfind, hfound⟩
    · exact .inl ⟨found, (hcons rest).trans hfind⟩
    · refine .inr ⟨key :: above, found, ?_, ?_, (hcons above).trans hfind, hfound⟩
      · exact (List.prefix_cons_inj key).2 habove
      · exact fun heq => hne (List.cons.inj heq).2

theorem not_decides_cons (hkey : Entries.find? key entries = none) (rest : List String) :
    ¬(table entries).Decides (key :: rest) := by
  intro hdecides
  obtain ⟨inner, hinner, -⟩ := decides_cons_iff.1 hdecides
  exact absurd (hkey.symm.trans hinner) (by simp)

/-! ### Order -/

theorem isOrdered_of_not_isTable (h : ¬value.IsTable) : value.IsOrdered := by
  intro path entries hfind
  cases path with
  | nil => exact absurd ⟨entries, Option.some.inj hfind⟩ h
  | cons key rest =>
    rw [find?_cons_of_not_isTable h] at hfind
    exact absurd hfind (by simp)

theorem isOrdered_of_ne_table (h : ∀ entries, value ≠ table entries) : value.IsOrdered :=
  isOrdered_of_not_isTable fun ⟨entries, heq⟩ => h entries heq

theorem IsOrdered.ascending (h : (table entries).IsOrdered) : Entries.Ascending entries :=
  h [] entries rfl

theorem IsOrdered.find? (h : (table entries).IsOrdered)
    (hkey : Entries.find? key entries = some value) : value.IsOrdered := by
  intro path inner hfind
  apply h (key :: path) inner
  rw [find?_table_cons, hkey]
  exact hfind

theorem isOrdered_table (hascending : Entries.Ascending entries)
    (hvalues : ∀ key value, Entries.find? key entries = some value → value.IsOrdered) :
    (table entries).IsOrdered := by
  intro path inner hfind
  cases path with
  | nil =>
    obtain ⟨⟩ := hfind
    exact hascending
  | cons key rest =>
    rw [find?_table_cons, Option.bind_eq_some_iff] at hfind
    obtain ⟨value, hkey, hfind⟩ := hfind
    exact hvalues key value hkey rest inner hfind

theorem isOrdered_empty : (table []).IsOrdered :=
  isOrdered_table List.Pairwise.nil fun _ _ hkey => absurd hkey (by simp [Entries.find?])

theorem IsOrdered.insert (h : (table entries).IsOrdered) (hvalue : value.IsOrdered) (key : String) :
    (table (Entries.insert key value entries)).IsOrdered := by
  apply isOrdered_table (Entries.ascending_insert key value h.ascending)
  intro other found hfind
  by_cases hother : other = key
  · rw [hother, Entries.find?_insert_self] at hfind
    obtain rfl := Option.some.inj hfind
    exact hvalue
  · rw [Entries.find?_insert_of_ne hother] at hfind
    exact h.find? hfind

theorem IsOrdered.nested (h : value.IsOrdered) (keys : List String) :
    (value.nested keys).IsOrdered := by
  induction keys with
  | nil => exact h
  | cons key rest ih => exact isOrdered_empty.insert ih key

/-! ### Merging -/

theorem merge_of_not_isTable (before : Value) (h : ¬newer.IsTable) :
    merge before newer = newer := by
  cases newer with
  | table entries => exact absurd (isTable_table entries) h
  | _ => rfl

theorem merge_table_of_not_isTable (h : ¬before.IsTable) (entries : List (String × Value)) :
    merge before (table entries) = table entries := by
  cases before with
  | table older => exact absurd (isTable_table older) h
  | _ => rfl

theorem overlay_of_not_isTable (before? : Option Value) (h : ¬newer.IsTable) :
    overlay before? newer = newer := by
  cases before? with
  | none => rfl
  | some before => exact merge_of_not_isTable before h

/-- What is merged over is a table again, with nothing else or the older table below it. -/
theorem overlay_table (before? : Option Value) (entries : List (String × Value)) :
    (overlay before? (table entries) = table entries ∧
        ∀ key rest, before?.bind (·.find? (key :: rest)) = none) ∨
      ∃ older, before? = some (table older) ∧
        overlay before? (table entries) = table (mergeTables older entries) := by
  cases before? with
  | none => exact .inl ⟨rfl, fun _ _ => rfl⟩
  | some before =>
    by_cases hbefore : before.IsTable
    · obtain ⟨older, rfl⟩ := hbefore
      exact .inr ⟨older, rfl, rfl⟩
    · exact .inl ⟨merge_table_of_not_isTable hbefore entries,
        fun _ _ => find?_cons_of_not_isTable hbefore⟩

theorem isTable_overlay (before? : Option Value) (h : newer.IsTable) :
    (overlay before? newer).IsTable := by
  obtain ⟨entries, rfl⟩ := h
  rcases overlay_table before? entries with ⟨hoverlay, -⟩ | ⟨older, -, hoverlay⟩
  · exact ⟨entries, hoverlay⟩
  · exact ⟨_, hoverlay⟩

theorem mergeTables_cons (older : List (String × Value)) (key : String) (value : Value)
    (rest : List (String × Value)) : mergeTables older ((key, value) :: rest) =
      mergeTables (Entries.insert key (overlay (Entries.find? key older) value) older) rest := by
  rw [mergeTables]
  cases Entries.find? key older <;> rfl

theorem ne_of_find?_eq_none (h : Entries.find? key entries = none) :
    ∀ entry ∈ entries, key ≠ entry.1 := by
  induction entries with
  | nil => exact List.forall_mem_nil _
  | cons entry rest ih =>
    unfold Entries.find? at h
    split at h
    · exact absurd h (by simp)
    · next hne => exact List.forall_mem_cons.2 ⟨fun heq => hne (by simp [heq]), ih h⟩

/-- Keys that the newer table does not have stay as they are. -/
theorem find?_mergeTables_of_not_mem (h : ∀ entry ∈ entries, key ≠ entry.1)
    (older : List (String × Value)) :
    Entries.find? key (mergeTables older entries) = Entries.find? key older := by
  induction entries generalizing older with
  | nil => rfl
  | cons entry rest ih =>
    obtain ⟨hhead, htail⟩ := List.forall_mem_cons.1 h
    rw [mergeTables_cons, ih htail, Entries.find?_insert_of_ne hhead]

/-- The newer table with its entries in order has its way at each of its keys. -/
theorem find?_mergeTables_of_mem (hascending : Entries.Ascending entries)
    (h : (key, value) ∈ entries) (older : List (String × Value)) :
    Entries.find? key (mergeTables older entries) =
      some (overlay (Entries.find? key older) value) := by
  induction entries generalizing older with
  | nil => exact absurd h (by simp)
  | cons entry rest ih =>
    obtain ⟨hhead, htail⟩ := List.pairwise_cons.1 hascending
    have hne : ∀ other ∈ rest, entry.1 ≠ other.1 := by
      intro other hother heq
      have hlt := hhead other hother
      rw [heq] at hlt
      exact absurd hlt (by simp)
    rw [mergeTables_cons]
    rcases List.mem_cons.1 h with rfl | hmem
    · rw [find?_mergeTables_of_not_mem hne, Entries.find?_insert_self]
    · rw [ih htail hmem, Entries.find?_insert_of_ne (hne _ hmem).symm]

theorem ascending_mergeTables (h : Entries.Ascending older) (entries : List (String × Value)) :
    Entries.Ascending (mergeTables older entries) := by
  induction entries generalizing older with
  | nil => exact h
  | cons entry rest ih =>
    rw [mergeTables_cons]
    exact ih (Entries.ascending_insert _ _ h)

/-! ### Merging at a row of keys -/

theorem find?_overlay_of_find?_eq_none (before? : Option Value)
    (hkey : Entries.find? key entries = none) :
    (overlay before? (table entries)).find? (key :: rest) =
      before?.bind (·.find? (key :: rest)) := by
  rcases overlay_table before? entries with ⟨hoverlay, hnone⟩ | ⟨older, rfl, hoverlay⟩
  · rw [hoverlay, hnone, find?_table_cons, hkey]
    rfl
  · rw [hoverlay, find?_table_cons, find?_mergeTables_of_not_mem (ne_of_find?_eq_none hkey)]
    rfl

theorem find?_overlay_of_find?_eq_some (before? : Option Value)
    (hascending : Entries.Ascending entries) (hkey : Entries.find? key entries = some inner) :
    (overlay before? (table entries)).find? (key :: rest) =
      (overlay (before?.bind (·.find? [key])) inner).find? rest := by
  rcases overlay_table before? entries with ⟨hoverlay, hnone⟩ | ⟨older, rfl, hoverlay⟩
  · rw [hoverlay, hnone, find?_table_cons, hkey]
    rfl
  · have hmerged := find?_mergeTables_of_mem hascending (Entries.mem_of_find?_eq_some hkey) older
    have hbefore : (table older).find? [key] = Entries.find? key older :=
      Option.bind_fun_some _
    rw [hoverlay, find?_table_cons, hmerged, Option.bind_some, Option.bind_some, hbefore]

theorem bind_find?_cons (before? : Option Value) (key : String) (rest : List String) :
    before?.bind (·.find? (key :: rest)) =
      (before?.bind (·.find? [key])).bind (·.find? rest) := by
  cases before? with
  | none => rfl
  | some before => exact find?_append before [key] rest

/-- Where the newer value does not decide, the older one stays. -/
theorem find?_overlay_of_not_decides (hordered : newer.IsOrdered) (h : ¬newer.Decides path)
    (before? : Option Value) :
    (overlay before? newer).find? path = before?.bind (·.find? path) := by
  -- Behind the first key, a merge goes on with what the two values have there.
  induction path generalizing newer before? with
  | nil => exact absurd (decides_nil newer) h
  | cons key rest ih =>
    by_cases htable : newer.IsTable
    · obtain ⟨entries, rfl⟩ := htable
      cases hkey : Entries.find? key entries with
      | none => exact find?_overlay_of_find?_eq_none before? hkey
      | some inner =>
        rw [find?_overlay_of_find?_eq_some before? hordered.ascending hkey,
          ih (hordered.find? hkey) (fun hinner => h (decides_cons_iff.2 ⟨inner, hkey, hinner⟩)),
          ← bind_find?_cons]
    · exact absurd (decides_cons_of_not_isTable htable) h

/-- Where the newer value has something, that is merged over what was there. -/
theorem find?_overlay_of_find?_eq (hordered : newer.IsOrdered) (h : newer.find? path = some found)
    (before? : Option Value) :
    (overlay before? newer).find? path = some (overlay (before?.bind (·.find? path)) found) := by
  induction path generalizing newer before? with
  | nil =>
    obtain rfl := Option.some.inj h
    cases before? <;> rfl
  | cons key rest ih =>
    by_cases htable : newer.IsTable
    · obtain ⟨entries, rfl⟩ := htable
      rw [find?_table_cons, Option.bind_eq_some_iff] at h
      obtain ⟨inner, hkey, hfind⟩ := h
      rw [find?_overlay_of_find?_eq_some before? hordered.ascending hkey,
        ih (hordered.find? hkey) hfind, ← bind_find?_cons]
    · rw [find?_cons_of_not_isTable htable] at h
      exact absurd h (by simp)

/-- What stands in the way still does. -/
theorem Blocks.overlay (h : newer.Blocks path) (hordered : newer.IsOrdered)
    (before? : Option Value) : (overlay before? newer).Blocks path := by
  obtain ⟨above, found, habove, hne, hfind, hfound⟩ := h
  refine ⟨above, found, habove, hne, ?_, hfound⟩
  rw [find?_overlay_of_find?_eq hordered hfind, overlay_of_not_isTable _ hfound]

theorem ascending_of_overlay (hoverlay : overlay before? newer = table entries)
    (hbefore : ∀ older, before? = some (table older) → Entries.Ascending older)
    (hnewer : ∀ inner, newer = table inner → Entries.Ascending inner) :
    Entries.Ascending entries := by
  by_cases htable : newer.IsTable
  · obtain ⟨inner, rfl⟩ := htable
    rcases overlay_table before? inner with ⟨hinner, -⟩ | ⟨older, rfl, hmerged⟩
    · exact hnewer entries (hinner.symm.trans hoverlay)
    · obtain ⟨⟩ := hmerged.symm.trans hoverlay
      exact ascending_mergeTables (hbefore older rfl) inner
  · rw [overlay_of_not_isTable before? htable] at hoverlay
    exact hnewer entries hoverlay

/-- Merging keeps tables ordered. -/
theorem IsOrdered.overlay (h : newer.IsOrdered)
    (hbefore : ∀ before, before? = some before → before.IsOrdered) :
    (overlay before? newer).IsOrdered := by
  intro path entries hfind
  have hstays : ∀ older, before?.bind (·.find? path) = some (table older) →
      Entries.Ascending older := by
    intro older holder
    obtain ⟨before, rfl, holder⟩ := Option.bind_eq_some_iff.1 holder
    exact hbefore before rfl path older holder
  -- What stands at the path is a merge again, or from one side alone.
  by_cases hdecides : newer.Decides path
  · rcases hdecides with ⟨found, hfound⟩ | hblocks
    · rw [find?_overlay_of_find?_eq h hfound] at hfind
      refine ascending_of_overlay (Option.some.inj hfind) hstays ?_
      rintro inner rfl
      exact h path inner hfound
    · rw [(hblocks.overlay h before?).find?_eq_none] at hfind
      exact absurd hfind (by simp)
  · rw [find?_overlay_of_not_decides h hdecides] at hfind
    exact hstays entries hfind

end ChunkStore.Config.Value
