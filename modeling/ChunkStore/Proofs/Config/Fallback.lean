import ChunkStore.Proofs.Config.Precedence

/-!
# Falling back to defaults

A default stands for a value that is not there, and for nothing else.  A malformed layer makes every
look-up fail, wherever it stands, and a value that does not fit is refused with a default as it is
without one.
-/

set_option autoImplicit false

namespace ChunkStore.Config

/-- A configuration or what is read from it is refused. -/
def IsRefused {α : Type} (result : Except Failure α) : Prop :=
  ∃ description, result = .error (.invalidConfig description)

/-- All layers of a configuration can be read, and there is no value at a key in all of them taken
together. -/
def IsAbsent (config : Config) (key : String) : Prop :=
  ∃ tables : List Table, config.layers = tables.map some ∧
    (mergeAll tables).find? (keysOf key) = none

/-- All layers of a configuration can be read, and taken together they have a value at a key. -/
def Holds (config : Config) (key : String) (found : Value) : Prop :=
  ∃ tables : List Table, config.layers = tables.map some ∧
    (mergeAll tables).find? (keysOf key) = some found

/-- How a look-up with a default relates to the one without. -/
structure FallsBackIfAbsent {α : Type} (config : Config) (key : String)
    (decode : Value → Except Mismatch α) (otherwise : α) : Prop where
  malformed : none ∈ config.layers →
    IsRefused (config.getOrDefault key decode otherwise) ∧ IsRefused (config.get key decode)
  absent : config.IsAbsent key →
    config.getOrDefault key decode otherwise = .ok otherwise ∧ IsRefused (config.get key decode)
  present : ∀ found, config.Holds key found →
    config.getOrDefault key decode otherwise = config.get key decode
  fits : ∀ found x, config.Holds key found → decode found = .ok x →
    config.getOrDefault key decode otherwise = .ok x
  misfits : ∀ found mismatch, config.Holds key found → decode found = .error mismatch →
    IsRefused (config.getOrDefault key decode otherwise)
  falls_back_iff : config.getOrDefault key decode otherwise = .ok otherwise ∧
    (∀ x, config.get key decode ≠ .ok x) ↔ config.IsAbsent key
  agrees : ∀ x, config.get key decode = .ok x → config.getOrDefault key decode otherwise = .ok x

variable {α : Type} {config : Config} {key : String} {found : Value} {x otherwise : α}
  {decode : Value → Except Mismatch α}

theorem IsRefused.ne_ok {result : Except Failure α} (h : IsRefused result) : result ≠ .ok x := by
  obtain ⟨description, rfl⟩ := h
  simp

/-- A key is looked up in a malformed configuration, or there is nothing at it, or there is. -/
theorem cases_of_key (config : Config) (key : String) :
    none ∈ config.layers ∨ config.IsAbsent key ∨ ∃ found, config.Holds key found := by
  rcases malformed_or_readable config.layers with hmalformed | ⟨tables, htables⟩
  · exact .inl hmalformed
  · cases hfind : (mergeAll tables).find? (keysOf key) with
    | none => exact .inr (.inl ⟨tables, htables, hfind⟩)
    | some found => exact .inr (.inr ⟨found, tables, htables, hfind⟩)

theorem isRefused_of_malformed (h : none ∈ config.layers) (decode : Value → Except Mismatch α)
    (otherwise : α) : IsRefused (config.getOrDefault key decode otherwise) ∧
      IsRefused (config.get key decode) := by
  have hmerged := merged?_of_malformed h
  constructor
  · unfold getOrDefault
    rw [hmerged]
    exact ⟨_, rfl⟩
  · unfold get
    rw [hmerged]
    exact ⟨_, rfl⟩

theorem IsAbsent.lacks (h : config.IsAbsent key) : config.Lacks key := by
  obtain ⟨tables, htables, hfind⟩ := h
  exact lacks_of_find? (merged?_of_readable htables) hfind

theorem Holds.reads (h : config.Holds key found) : config.Reads key found := by
  obtain ⟨tables, htables, hfind⟩ := h
  exact reads_of_find? (merged?_of_readable htables) hfind

theorem IsAbsent.getOrDefault_eq (h : config.IsAbsent key) (decode : Value → Except Mismatch α)
    (otherwise : α) : config.getOrDefault key decode otherwise = .ok otherwise := by
  have hcontains := h.lacks.1
  obtain ⟨tables, htables, -⟩ := h
  unfold getOrDefault
  rw [merged?_of_readable htables, hcontains]
  rfl

theorem Holds.getOrDefault_eq (h : config.Holds key found) (decode : Value → Except Mismatch α)
    (otherwise : α) : config.getOrDefault key decode otherwise = config.get key decode := by
  have hcontains := h.reads.1
  obtain ⟨tables, htables, -⟩ := h
  unfold getOrDefault
  rw [merged?_of_readable htables, hcontains]
  rfl

theorem IsAbsent.get_isRefused (h : config.IsAbsent key) (decode : Value → Except Mismatch α) :
    IsRefused (config.get key decode) :=
  ⟨_, h.lacks.2 α decode⟩

theorem Holds.get_eq (h : config.Holds key found) (decode : Value → Except Mismatch α) :
    config.get key decode =
      (decode found).mapError fun mismatch => lookUpFailure key mismatch.message :=
  h.reads.2 α decode

/-- In every configuration and at every key, a default is taken if the layers can be read and have
nothing there, and in no other case. -/
theorem default_only_if_absent (config : Config) (key : String)
    (decode : Value → Except Mismatch α) (otherwise : α) :
    FallsBackIfAbsent config key decode otherwise where
  malformed := fun h => isRefused_of_malformed h decode otherwise
  absent := fun h => ⟨h.getOrDefault_eq decode otherwise, h.get_isRefused decode⟩
  present := fun _ h => h.getOrDefault_eq decode otherwise
  fits := by
    intro found x hholds hfits
    rw [hholds.getOrDefault_eq, hholds.get_eq, hfits]
    rfl
  misfits := by
    intro found mismatch hholds hmisfits
    rw [hholds.getOrDefault_eq, hholds.get_eq, hmisfits]
    exact ⟨_, rfl⟩
  falls_back_iff := by
    constructor
    · rintro ⟨hdefault, hget⟩
      rcases cases_of_key config key with hmalformed | habsent | ⟨found, hholds⟩
      · exact absurd hdefault (isRefused_of_malformed hmalformed decode otherwise).1.ne_ok
      · exact habsent
      · rw [hholds.getOrDefault_eq] at hdefault
        exact absurd hdefault (hget otherwise)
    · intro habsent
      exact ⟨habsent.getOrDefault_eq decode otherwise,
        fun x => (habsent.get_isRefused decode).ne_ok⟩
  agrees := by
    intro x hget
    rcases cases_of_key config key with hmalformed | habsent | ⟨found, hholds⟩
    · exact absurd hget (isRefused_of_malformed hmalformed decode otherwise).2.ne_ok
    · exact absurd hget (habsent.get_isRefused decode).ne_ok
    · rw [hholds.getOrDefault_eq]
      exact hget

/-- Texts of which one is malformed. -/
def malformedTexts : Config :=
  ofTexts ["[engine]\nwriter_threads = 2\n", "[engine\n"]

/-- Texts of which the later one has a value out of range. -/
def misfittingTexts : Config :=
  ofTexts ["[engine]\nwriter_threads = 2\n", "[engine]\nwriter_threads = -1\n"]

theorem default_is_not_taken_otherwise :
    IsRefused (malformedTexts.getOrDefault "engine.writer_threads" Value.asUInt32 4) ∧
      (ofTexts ["[log]\nlevel = 1\n"]).getOrDefault "engine.writer_threads" Value.asUInt32 4 =
        .ok 4 ∧
      IsRefused (misfittingTexts.getOrDefault "engine.writer_threads" Value.asUInt32 4) := by
  have hmalformed : none ∈ malformedTexts.layers := by
    have hsecond : malformedTexts.layers[1]? = some none := by
      cbv
    exact List.mem_of_getElem? hsecond
  have habsent : (ofTexts ["[log]\nlevel = 1\n"]).IsAbsent "engine.writer_threads" := by
    refine ⟨[[("log", .table [("level", .signed 1)])]], ?_, ?_⟩
    · cbv
    · cbv
  have hholds : misfittingTexts.Holds "engine.writer_threads" (.signed (-1)) := by
    refine ⟨[[("engine", .table [("writer_threads", .signed 2)])],
      [("engine", .table [("writer_threads", .signed (-1))])]], ?_, ?_⟩
    · cbv
    · cbv
  exact ⟨((default_only_if_absent _ _ Value.asUInt32 4).malformed hmalformed).1,
    ((default_only_if_absent _ _ Value.asUInt32 4).absent habsent).1,
    (default_only_if_absent _ _ Value.asUInt32 4).misfits _ _ hholds rfl⟩

end ChunkStore.Config
