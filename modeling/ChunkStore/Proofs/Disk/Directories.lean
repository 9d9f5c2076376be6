import ChunkStore.Disk.Path
import Mathlib

/-!
# Directories stay where they are

Paths lead through directories.  As long as the directories stay, a path that led to a directory
leads there still, whatever else happens to the disk.  Making directories only adds some, where
nothing was, and makes none if the path leads to one already.
-/

set_option autoImplicit false

namespace ChunkStore

namespace Location

/-- A location that paths can lead to: every name on the way is one that is given. -/
def IsNamed (location : Location) : Prop :=
  ∀ name ∈ location, ∃ text, name = .given text

/-- Where one part of a path leads to. -/
def enter (part : String) (location : Location) : Location :=
  if part = "" || part = "." then location
  else if part = ".." then location.tail
  else .given part :: location

theorem isNamed_nil : IsNamed [] := by
  intro name hname
  exact absurd hname List.not_mem_nil

theorem IsNamed.enter {location : Location} (h : location.IsNamed) (part : String) :
    (location.enter part).IsNamed := by
  unfold Location.enter
  split
  · exact h
  · split
    · exact fun name hname => h name (List.mem_of_mem_tail hname)
    · intro name hname
      rcases List.mem_cons.1 hname with rfl | hrest
      · exact ⟨part, rfl⟩
      · exact h name hrest

end Location

/-- Where a path leads if all that it goes through are directories. -/
def Path.destination (path : Path) : Location :=
  path.reverse.foldl (fun location part => location.enter part) []

theorem Path.isNamed_destination (path : Path) : path.destination.IsNamed := by
  unfold destination
  generalize path.reverse = parts
  have hparts : ∀ start : Location, start.IsNamed →
      (parts.foldl (fun location part => location.enter part) start).IsNamed := by
    induction parts with
    | nil => exact fun _ hstart => hstart
    | cons part parts ih => exact fun start hstart => ih _ (hstart.enter part)
  exact hparts [] Location.isNamed_nil

namespace Disk

/-- Every directory that a path can lead to is there on another disk as well. -/
def KeepsDirectories (before after : Disk) : Prop :=
  ∀ location number, location.IsNamed → before.nodes location = some (.directory number) →
    after.nodes location = some (.directory number)

/-- A disk with more directories than another, each where nothing was. -/
structure GainsDirectories (before after : Disk) : Prop where
  nodes : ∀ location, after.nodes location = before.nodes location ∨
    before.nodes location = none ∧ (∃ number, after.nodes location = some (.directory number)) ∧
      ∃ text above, location = .given text :: above
  isProtected : after.isProtected = before.isProtected
  held : after.held = before.held
  trouble : after.trouble = before.trouble
  cutsLineEnd : after.cutsLineEnd = before.cutsLineEnd

/-! ### Following paths -/

theorem follow_cons_of_directory {disk : Disk} {location : Location} {number : Nat}
    (h : disk.nodes location = some (.directory number)) (part : String) (rest : List String) :
    disk.follow location (part :: rest) = disk.follow (location.enter part) rest := by
  conv_lhs => unfold follow
  rw [h]
  unfold Location.enter
  dsimp only
  split
  · rfl
  · split <;> rfl

theorem directory_of_follow_cons {disk : Disk} {start location : Location} {part : String}
    {rest : List String} (h : disk.follow start (part :: rest) = .ok location) :
    ∃ number, disk.nodes start = some (.directory number) := by
  unfold follow at h
  split at h
  · exact absurd h (by simp)
  · next number hnode => exact ⟨number, hnode⟩
  · exact absurd h (by simp)

theorem exists_follow_of_append {disk : Disk} {front back : List String}
    {start location : Location} (h : disk.follow start (front ++ back) = .ok location) :
    ∃ between, disk.follow start front = .ok between ∧
      disk.follow between back = .ok location := by
  induction front generalizing start with
  | nil => exact ⟨start, rfl, h⟩
  | cons part front ih =>
    rw [List.cons_append] at h
    obtain ⟨number, hnode⟩ := directory_of_follow_cons h
    rw [follow_cons_of_directory hnode] at h ⊢
    exact ih h

theorem isNamed_of_follow {disk : Disk} {parts : List String} {start location : Location}
    (hstart : start.IsNamed) (h : disk.follow start parts = .ok location) : location.IsNamed := by
  induction parts generalizing start with
  | nil =>
    rw [← Except.ok.inj h]
    exact hstart
  | cons part parts ih =>
    obtain ⟨number, hnode⟩ := directory_of_follow_cons h
    rw [follow_cons_of_directory hnode] at h
    exact ih (hstart.enter part) h

theorem follow_of_keepsDirectories {before after : Disk} (hkeeps : before.KeepsDirectories after)
    {parts : List String} {start location : Location} (hstart : start.IsNamed)
    (h : before.follow start parts = .ok location) : after.follow start parts = .ok location := by
  induction parts generalizing start with
  | nil => exact h
  | cons part parts ih =>
    obtain ⟨number, hnode⟩ := directory_of_follow_cons h
    rw [follow_cons_of_directory hnode] at h
    rw [follow_cons_of_directory (hkeeps start number hstart hnode)]
    exact ih (hstart.enter part) h

theorem locate_eq_ok_iff {disk : Disk} {path : Path} {location : Location} :
    disk.locate path = .ok location ↔
      path.all (· = "") = false ∧ disk.follow [] path.reverse = .ok location ∧
        (disk.nodes location).isSome = true := by
  unfold locate
  cases hempty : path.all (· = "") with
  | true => simp [throw, throwThe, MonadExceptOf.throw, bind, Except.bind]
  | false =>
    cases hfollow : disk.follow [] path.reverse with
    | error fault => simp [bind, Except.bind]
    | ok reached =>
      cases hnode : disk.nodes reached with
      | none =>
        simp only [bind, Except.bind, pure, Except.pure, hnode, throw, throwThe,
          MonadExceptOf.throw]
        simp
        intro heq
        rw [← heq, hnode]
      | some node =>
        simp only [bind, Except.bind, pure, Except.pure, hnode]
        simp
        intro heq
        rw [← heq, hnode]
        simp

theorem isNamed_of_locate {disk : Disk} {path : Path} {location : Location}
    (h : disk.locate path = .ok location) : location.IsNamed :=
  isNamed_of_follow Location.isNamed_nil (locate_eq_ok_iff.1 h).2.1

/-- A path that leads to a directory leads there as long as the directories stay. -/
theorem locate_of_keepsDirectories {before after : Disk} (hkeeps : before.KeepsDirectories after)
    {path : Path} {location : Location} {number : Nat} (h : before.locate path = .ok location)
    (hdirectory : before.nodes location = some (.directory number)) :
    after.locate path = .ok location := by
  obtain ⟨hne, hfollow, -⟩ := locate_eq_ok_iff.1 h
  have hafter := hkeeps location number (isNamed_of_locate h) hdirectory
  rw [locate_eq_ok_iff, hafter]
  exact ⟨hne, follow_of_keepsDirectories hkeeps Location.isNamed_nil hfollow, rfl⟩

theorem foldl_enter_of_follow {disk : Disk} {parts : List String} {start location : Location}
    (h : disk.follow start parts = .ok location) :
    parts.foldl (fun location part => location.enter part) start = location := by
  induction parts generalizing start with
  | nil => exact Except.ok.inj h
  | cons part parts ih =>
    obtain ⟨number, hnode⟩ := directory_of_follow_cons h
    rw [follow_cons_of_directory hnode] at h
    exact ih h

/-- A path leads to its destination or nowhere. -/
theorem destination_of_locate {disk : Disk} {path : Path} {location : Location}
    (h : disk.locate path = .ok location) : path.destination = location :=
  foldl_enter_of_follow (locate_eq_ok_iff.1 h).2.1

theorem isDirectory_eq_true_iff {disk : Disk} {path : Path} :
    disk.isDirectory path = true ↔
      ∃ location number, disk.locate path = .ok location ∧
        disk.nodes location = some (.directory number) := by
  unfold isDirectory directoryNumber?
  cases disk.locate path with
  | error fault => simp
  | ok location =>
    cases hnode : disk.nodes location with
    | none => simp [hnode]
    | some node => cases node <;> simp [hnode]

/-! ### Making directories -/

theorem GainsDirectories.refl (disk : Disk) : disk.GainsDirectories disk :=
  ⟨fun _ => .inl rfl, rfl, rfl, rfl, rfl⟩

theorem GainsDirectories.trans {first second third : Disk} (h : first.GainsDirectories second)
    (h' : second.GainsDirectories third) : first.GainsDirectories third where
  nodes := by
    intro location
    rcases h'.nodes location with hsame | ⟨hnone, hmade, hname⟩
    · rw [hsame]
      exact h.nodes location
    · rcases h.nodes location with hsame | ⟨-, ⟨number, hnode⟩, -⟩
      · exact .inr ⟨hsame ▸ hnone, hmade, hname⟩
      · rw [hnode] at hnone
        exact absurd hnone (by simp)
  isProtected := h'.isProtected.trans h.isProtected
  held := h'.held.trans h.held
  trouble := h'.trouble.trans h.trouble
  cutsLineEnd := h'.cutsLineEnd.trans h.cutsLineEnd

theorem GainsDirectories.keepsDirectories {before after : Disk}
    (h : before.GainsDirectories after) : before.KeepsDirectories after := by
  intro location number _ hnode
  rcases h.nodes location with hsame | ⟨hnone, -, -⟩
  · rw [hsame, hnode]
  · rw [hnode] at hnone
    exact absurd hnone (by simp)

theorem gainsDirectories_putDirectory {disk : Disk} {text : String} {above : Location}
    (h : disk.nodes (.given text :: above) = none) :
    disk.GainsDirectories (disk.putDirectory (.given text :: above)) where
  nodes := by
    intro location
    by_cases heq : location = .given text :: above
    · subst heq
      exact .inr ⟨h, ⟨disk.nextNumber, nodes_put_self ..⟩, text, above, rfl⟩
    · exact .inl (nodes_put_of_ne disk _ heq)
  isProtected := rfl
  held := rfl
  trouble := rfl
  cutsLineEnd := rfl

theorem trimSlashes_inv {path : Path} {part : String} {rest : Path}
    (h : path.trimSlashes = part :: rest) :
    part ≠ "" ∧ ∃ blanks : List String, (∀ blank ∈ blanks, blank = "") ∧
      path.reverse = rest.reverse ++ part :: blanks := by
  have hdrop : path.dropWhile (fun part => decide (part = "")) = part :: rest := h
  have hsplit : path.takeWhile (fun part => part = "") ++ path.dropWhile (fun part => part = "") =
      path := List.takeWhile_append_dropWhile
  refine ⟨?_, (path.takeWhile fun part => part = "").reverse, ?_, ?_⟩
  · have hhead := List.head?_dropWhile_not (fun part => decide (part = "")) path
    rw [hdrop] at hhead
    simpa using hhead
  · intro blank hmem
    simpa using List.mem_takeWhile_imp (List.mem_reverse.1 hmem)
  · conv_lhs => rw [← hsplit, hdrop]
    simp

/-- All that making a directory asks for and does. -/
theorem makeDirectory_inv {disk after : Disk} {path : Path}
    (h : disk.makeDirectory path = .ok after) :
    ∃ part rest above number, path.trimSlashes = part :: rest ∧
      disk.follow [] rest.reverse = .ok above ∧ disk.nodes above = some (.directory number) ∧
      part ≠ "." ∧ part ≠ ".." ∧ disk.nodes (.given part :: above) = none ∧
      after = disk.putDirectory (.given part :: above) := by
  unfold makeDirectory at h
  split at h
  · exact absurd h (by simp)
  · next part rest htrim =>
    split at h
    · exact absurd h (by simp)
    · next above habove =>
      split at h
      · exact absurd h (by simp)
      · next number hnode =>
        simp only at h
        split at h
        · exact absurd h (by simp)
        · next hfree =>
          split at h
          · exact absurd h (by simp)
          · simp only [Bool.or_eq_true, decide_eq_true_eq, not_or, Bool.not_eq_true,
              Option.isSome_eq_false_iff, Option.isNone_iff_eq_none] at hfree
            obtain ⟨⟨hdot, hdots⟩, hnone⟩ := hfree
            exact ⟨part, rest, above, number, htrim, habove, hnode, hdot, hdots, hnone,
              (Except.ok.inj h).symm⟩
      · exact absurd h (by simp)

theorem gainsDirectories_makeDirectory {disk after : Disk} {path : Path}
    (h : disk.makeDirectory path = .ok after) : disk.GainsDirectories after := by
  obtain ⟨part, rest, above, number, -, -, -, -, -, hnone, rfl⟩ := makeDirectory_inv h
  exact gainsDirectories_putDirectory hnone

theorem gainsDirectories_makeDirectories (disk : Disk) (path : Path) :
    disk.GainsDirectories (disk.makeDirectories path).2 := by
  fun_induction makeDirectories disk path with
  | case1 => exact .refl _
  | case2 _ _ _ hmade => exact gainsDirectories_makeDirectory hmade
  | case3 => exact .refl _
  | case4 _ _ _ _ _ _ _ _ hmade ih =>
    rw [hmade] at ih
    exact ih
  | case5 _ _ _ _ _ _ _ habove _ hmade ih =>
    rw [habove] at ih
    exact ih.trans (gainsDirectories_makeDirectory hmade)
  | case6 _ _ _ _ _ _ _ habove _ _ ih =>
    rw [habove] at ih
    exact ih
  | case7 => exact .refl _

/-- A path that leads to a directory cannot be made. -/
theorem makeDirectory_of_isDirectory {disk : Disk} {path : Path}
    (h : disk.isDirectory path = true) : disk.makeDirectory path = .error .alreadyExists := by
  obtain ⟨location, number, hlocate, hlocation⟩ := isDirectory_eq_true_iff.1 h
  obtain ⟨hne, hfollow, -⟩ := locate_eq_ok_iff.1 hlocate
  cases htrim : path.trimSlashes with
  | nil =>
    have hall : path.all (· = "") = true := by
      simpa [Path.trimSlashes, List.dropWhile_eq_nil_iff] using htrim
    rw [hall] at hne
    exact absurd hne (by simp)
  | cons part rest =>
    obtain ⟨hpart, blanks, -, hpath⟩ := trimSlashes_inv htrim
    -- What the path leads to is reached from the directory above its last name.
    rw [hpath] at hfollow
    obtain ⟨above, habove, hlast⟩ := exists_follow_of_append hfollow
    obtain ⟨number', hnode⟩ := directory_of_follow_cons hlast
    rw [follow_cons_of_directory hnode] at hlast
    have hthere : (disk.nodes (above.enter part)).isSome = true := by
      cases blanks with
      | nil =>
        rw [Except.ok.inj hlast, hlocation]
        rfl
      | cons blank blanks =>
        obtain ⟨number'', hnode'⟩ := directory_of_follow_cons hlast
        rw [hnode']
        rfl
    have hrefused : (part = "." || part = ".." ||
        (disk.nodes (.given part :: above)).isSome) = true := by
      by_cases hdot : part = "." ∨ part = ".."
      · rcases hdot with rfl | rfl <;> rfl
      · have henter : above.enter part = .given part :: above := by
          simp [Location.enter, hpart, not_or.1 hdot]
        rw [← henter, hthere, Bool.or_true]
    unfold makeDirectory
    simp only [htrim, habove, hnode]
    exact if_pos hrefused

/-- Nothing is made where a path leads to a directory already. -/
theorem makeDirectories_of_isDirectory {disk : Disk} {path : Path}
    (h : disk.isDirectory path = true) : disk.makeDirectories path = (.ok (), disk) := by
  unfold makeDirectories
  split
  · rfl
  · simp only [makeDirectory_of_isDirectory h]

theorem follow_blanks {disk : Disk} {location : Location} {number : Nat}
    (h : disk.nodes location = some (.directory number)) {blanks : List String}
    (hblanks : ∀ part ∈ blanks, part = "") : disk.follow location blanks = .ok location := by
  induction blanks with
  | nil => rfl
  | cons part blanks ih =>
    have hpart := hblanks part List.mem_cons_self
    rw [follow_cons_of_directory h, hpart]
    exact ih fun other hmem => hblanks other (List.mem_cons_of_mem part hmem)

theorem follow_append_of_ok {disk : Disk} {front back : List String} {start between : Location}
    (h : disk.follow start front = .ok between) :
    disk.follow start (front ++ back) = disk.follow between back := by
  induction front generalizing start with
  | nil =>
    rw [Except.ok.inj h]
    rfl
  | cons part front ih =>
    obtain ⟨number, hnode⟩ := directory_of_follow_cons h
    rw [follow_cons_of_directory hnode] at h
    rw [List.cons_append, follow_cons_of_directory hnode]
    exact ih h

/-- The directory that was made is the one that the path leads to. -/
theorem isDirectory_of_makeDirectory {disk after : Disk} {path : Path}
    (h : disk.makeDirectory path = .ok after) : after.isDirectory path = true := by
  have hkeeps := (gainsDirectories_makeDirectory h).keepsDirectories
  obtain ⟨part, rest, above, number, htrim, habove, hnode, hdot, hdots, -, rfl⟩ :=
    makeDirectory_inv h
  obtain ⟨hpart, blanks, hblanks, hpath⟩ := trimSlashes_inv htrim
  have henter : above.enter part = .given part :: above := by
    simp [Location.enter, hpart, hdot, hdots]
  have hnew : (disk.putDirectory (.given part :: above)).nodes (.given part :: above) =
      some (.directory disk.nextNumber) := nodes_put_self ..
  have habove' := follow_of_keepsDirectories hkeeps Location.isNamed_nil habove
  have hnode' := hkeeps above number (isNamed_of_follow Location.isNamed_nil habove) hnode
  have hne : path.all (· = "") = false := by
    rw [List.all_eq_false]
    refine ⟨part, ?_, by simpa using hpart⟩
    rw [← List.mem_reverse, hpath]
    simp
  have hfollow : (disk.putDirectory (.given part :: above)).follow [] path.reverse =
      .ok (.given part :: above) := by
    rw [hpath, follow_append_of_ok habove', follow_cons_of_directory hnode', henter]
    exact follow_blanks hnew hblanks
  rw [isDirectory_eq_true_iff]
  refine ⟨.given part :: above, disk.nextNumber, ?_, hnew⟩
  rw [locate_eq_ok_iff, hnew]
  exact ⟨hne, hfollow, rfl⟩

/-- Directories that were made are there. -/
theorem isDirectory_of_makeDirectories {disk after : Disk} {path : Path}
    (hne : path.all (· = "") = false)
    (h : disk.makeDirectories path = (.ok (), after)) : after.isDirectory path = true := by
  unfold makeDirectories at h
  rw [hne] at h
  simp only [Bool.false_eq_true, if_false] at h
  split at h
  · next made hmade =>
    rw [← (Prod.mk.inj h).2]
    exact isDirectory_of_makeDirectory hmade
  · split at h
    · exact absurd (Prod.mk.inj h).1 (by simp)
    · split at h
      · exact absurd (Prod.mk.inj h).1 (by simp)
      · split at h
        · next hmade =>
          rw [← (Prod.mk.inj h).2]
          exact isDirectory_of_makeDirectory hmade
        · obtain ⟨hresult, rfl⟩ := Prod.mk.inj h
          by_contra hnot
          rw [if_neg hnot] at hresult
          exact absurd hresult (by simp)
  · obtain ⟨hresult, rfl⟩ := Prod.mk.inj h
    by_contra hnot
    rw [if_neg hnot] at hresult
    exact absurd hresult (by simp)

/-! ### How directories are made -/

section

variable {disk : Disk} {path above : Path}

end

/-! ### Who holds directories -/

end Disk

end ChunkStore
