import ChunkStore.Index.Manifest
import Mathlib

/-!
# Recorded versions

A manifest gives each recorded document version its name.  Adding a version records one name and
removing versions takes their names out; everything else stays.  The version that a document is
given is never one that is recorded: an explicit one is refused if it is, and the automatic one lies
above the highest.
-/

set_option autoImplicit false

namespace ChunkStore.Index.Manifest

/-- The name under which a document version was inserted, if it is recorded. -/
def nameOf? (manifest : Manifest) (docId : String) (version : UInt32) : Option String :=
  (manifest.versionsOf docId).find? version

/-- No document is recorded without versions. -/
def HasNoEmpty (manifest : Manifest) : Prop :=
  ∀ docId known, manifest.versions.find? docId = some known → known.keys ≠ []

theorem le_of_latest? {manifest : Manifest} {docId : String} {latest version : UInt32}
    (hlatest : manifest.latest? docId = some latest)
    (hmem : version ∈ (manifest.versionsOf docId).keys) : version ≤ latest := by
  have hasc := (manifest.versionsOf docId).ascending_keys
  obtain ⟨front, hkeys⟩ := List.getLast?_eq_some_iff.1 hlatest
  rw [hkeys] at hasc hmem
  rcases List.mem_append.1 hmem with hfront | hlast
  · have hlt := (List.pairwise_append.1 hasc).2.2 version hfront latest (by simp)
    exact UInt32.le_of_lt (Std.compare_eq_lt.1 hlt)
  · rw [List.mem_singleton.1 hlast]
    exact UInt32.le_refl _

theorem nameOf?_eq_none_iff {manifest : Manifest} {docId : String} {version : UInt32} :
    manifest.nameOf? docId version = none ↔ version ∉ (manifest.versionsOf docId).keys := by
  rw [Dict.mem_keys]
  unfold nameOf?
  cases (manifest.versionsOf docId).find? version <;> simp

theorem latest?_eq_some_iff {manifest : Manifest} {docId : String} {latest : UInt32} :
    manifest.latest? docId = some latest ↔ latest ∈ (manifest.versionsOf docId).keys ∧
      ∀ known ∈ (manifest.versionsOf docId).keys, known ≤ latest := by
  constructor
  · intro hlatest
    exact ⟨List.mem_of_getLast? hlatest, fun known hknown => le_of_latest? hlatest hknown⟩
  · rintro ⟨hrecorded, hhighest⟩
    cases hlatest : manifest.latest? docId with
    | none =>
      rw [List.getLast?_eq_none_iff.1 hlatest] at hrecorded
      exact absurd hrecorded List.not_mem_nil
    | some other =>
      have hle := hhighest other (List.mem_of_getLast? hlatest)
      rw [UInt32.le_antisymm hle (le_of_latest? hlatest hrecorded)]

/-! ### The version that a document is given -/

/-- Whether a document gets a version: a new one if one is asked for, else there has to be one above
all that are recorded. -/
def Takes (manifest : Manifest) (docId : String) : Option UInt32 → Prop
  | some asked => asked ∉ (manifest.versionsOf docId).keys
  | none => 0xFFFFFFFF ∉ (manifest.versionsOf docId).keys

/-- The version that a document gets: the one that is asked for, if it is new; else the first one,
or the one after the highest. -/
inductive Gives (manifest : Manifest) (docId : String) : Option UInt32 → UInt32 → Prop where
  | asked {version : UInt32} (hnew : version ∉ (manifest.versionsOf docId).keys) :
      Gives manifest docId (some version) version
  | first (hnone : (manifest.versionsOf docId).keys = []) : Gives manifest docId none 1
  | next {highest version : UInt32} (hrecorded : highest ∈ (manifest.versionsOf docId).keys)
      (hhighest : ∀ known ∈ (manifest.versionsOf docId).keys, known ≤ highest)
      (hnext : version.toNat = highest.toNat + 1) : Gives manifest docId none version

section

variable {manifest : Manifest} {docId : String} {requested : Option UInt32} {version : UInt32}

theorem toNat_add_one_of_ne (h : version ≠ 0xFFFFFFFF) :
    (version + 1).toNat = version.toNat + 1 := by
  have hne : version.toNat ≠ 0xFFFFFFFF := fun heq => h (UInt32.toNat_inj.1 heq)
  have hlt := version.toNat_lt
  rw [UInt32.toNat_add, UInt32.toNat_one]
  exact Nat.mod_eq_of_lt (by omega)

theorem gives_of_resolveVersion (h : manifest.resolveVersion docId requested = .ok version) :
    manifest.Gives docId requested version := by
  unfold resolveVersion at h
  cases requested with
  | some asked =>
    dsimp only at h
    split at h
    · exact absurd h (by simp)
    · next hnew =>
      obtain rfl := Except.ok.inj h
      exact .asked fun hknown => hnew (Dict.contains_eq_true_iff.2 hknown)
  | none =>
    dsimp only at h
    cases hlatest : manifest.latest? docId with
    | none =>
      rw [hlatest] at h
      obtain rfl := Except.ok.inj h
      exact .first (List.getLast?_eq_none_iff.1 hlatest)
    | some latest =>
      rw [hlatest] at h
      dsimp only at h
      split at h
      · exact absurd h (by simp)
      · next hne =>
        obtain rfl := Except.ok.inj h
        obtain ⟨hrecorded, hhighest⟩ := latest?_eq_some_iff.1 hlatest
        exact .next hrecorded hhighest (toNat_add_one_of_ne hne)

/-- A version that a document is given is not recorded yet. -/
theorem Gives.not_mem (h : manifest.Gives docId requested version) :
    version ∉ (manifest.versionsOf docId).keys := by
  cases h with
  | asked hnew => exact hnew
  | first hnone =>
    rw [hnone]
    exact List.not_mem_nil
  | next hrecorded hhighest hnext =>
    intro hknown
    have hle := UInt32.le_iff_toNat_le.1 (hhighest version hknown)
    omega

theorem nameOf?_of_resolveVersion (h : manifest.resolveVersion docId requested = .ok version) :
    manifest.nameOf? docId version = none :=
  nameOf?_eq_none_iff.2 (gives_of_resolveVersion h).not_mem

theorem Gives.takes (h : manifest.Gives docId requested version) :
    manifest.Takes docId requested := by
  cases h with
  | asked hnew => exact hnew
  | first hnone =>
    unfold Takes
    rw [hnone]
    exact List.not_mem_nil
  | next hrecorded hhighest hnext =>
    -- No version comes after the highest possible one.
    intro hmost
    have hle := UInt32.le_iff_toNat_le.1 (hhighest _ hmost)
    have hlt := version.toNat_lt
    have hmax : (0xFFFFFFFF : UInt32).toNat = 0xFFFFFFFF := rfl
    omega

theorem Takes.exists_resolveVersion (h : manifest.Takes docId requested) :
    ∃ version, manifest.resolveVersion docId requested = .ok version := by
  unfold resolveVersion
  cases requested with
  | some asked =>
    have hnew : ¬(manifest.versionsOf docId).contains asked = true :=
      fun hknown => h (Dict.contains_eq_true_iff.1 hknown)
    exact ⟨asked, if_neg hnew⟩
  | none =>
    dsimp only
    cases hlatest : manifest.latest? docId with
    | none => exact ⟨1, rfl⟩
    | some latest =>
      have hne : latest ≠ 0xFFFFFFFF := by
        rintro rfl
        exact h (List.mem_of_getLast? hlatest)
      exact ⟨latest + 1, if_neg hne⟩

end

/-! ### Adding and removing versions -/

theorem nameOf?_addVersion (manifest : Manifest) (docId : String) (version : UInt32)
    (document other : String) (version' : UInt32) :
    (manifest.addVersion docId version document).nameOf? other version' =
      if other = docId ∧ version' = version then some document
      else manifest.nameOf? other version' := by
  unfold nameOf? versionsOf addVersion
  simp only [Dict.find?_insert]
  by_cases hdoc : other = docId
  · subst hdoc
    simp [Dict.find?_insert, versionsOf]
  · simp [hdoc]

theorem versionsOf_removeVersions (manifest : Manifest) (docId : String) (doomed : List UInt32)
    (other : String) :
    (manifest.removeVersions docId doomed).versionsOf other =
      if other = docId then doomed.foldl Dict.erase (manifest.versionsOf docId)
      else manifest.versionsOf other := by
  by_cases hempty : (doomed.foldl Dict.erase (manifest.versionsOf docId)).isEmpty = true
  · have hversions : (manifest.removeVersions docId doomed).versions =
        manifest.versions.erase docId := if_pos hempty
    show ((manifest.removeVersions docId doomed).versions.find? other).getD .empty = _
    rw [hversions, Dict.find?_erase, Dict.eq_empty_of_isEmpty hempty]
    split <;> rfl
  · have hversions : (manifest.removeVersions docId doomed).versions =
        manifest.versions.insert docId (doomed.foldl Dict.erase (manifest.versionsOf docId)) :=
      if_neg hempty
    show ((manifest.removeVersions docId doomed).versions.find? other).getD .empty = _
    rw [hversions, Dict.find?_insert]
    split <;> rfl

theorem nameOf?_removeVersions (manifest : Manifest) (docId : String) (doomed : List UInt32)
    (other : String) (version : UInt32) :
    (manifest.removeVersions docId doomed).nameOf? other version =
      if other = docId ∧ version ∈ doomed then none else manifest.nameOf? other version := by
  unfold nameOf?
  rw [versionsOf_removeVersions]
  by_cases hdoc : other = docId
  · simp [hdoc, Dict.find?_foldl_erase]
  · simp [hdoc]

theorem hasNoEmpty_addVersion {manifest : Manifest} (h : manifest.HasNoEmpty) (docId : String)
    (version : UInt32) (document : String) :
    (manifest.addVersion docId version document).HasNoEmpty := by
  intro other known hfind
  unfold addVersion at hfind
  simp only [Dict.find?_insert] at hfind
  split at hfind
  · simp only [Option.some.injEq] at hfind
    subst hfind
    have hmem : version ∈ ((manifest.versionsOf docId).insert version document).keys :=
      Dict.mem_keys.2 ⟨document, by simp [Dict.find?_insert]⟩
    exact List.ne_nil_of_mem hmem
  · exact h other known hfind

theorem hasNoEmpty_removeVersions {manifest : Manifest} (h : manifest.HasNoEmpty) (docId : String)
    (doomed : List UInt32) : (manifest.removeVersions docId doomed).HasNoEmpty := by
  intro other known hfind
  unfold removeVersions at hfind
  simp only at hfind
  split at hfind
  · rw [Dict.find?_erase] at hfind
    split at hfind
    · exact absurd hfind (by simp)
    · exact h other known hfind
  · next hne =>
    rw [Dict.find?_insert] at hfind
    split at hfind
    · simp only [Option.some.injEq] at hfind
      subst hfind
      exact fun hkeys => hne (Dict.isEmpty_eq_true_iff.2 hkeys)
    · exact h other known hfind

end ChunkStore.Index.Manifest
