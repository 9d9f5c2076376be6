import ChunkStore.Disk.Basic
import ChunkStore.Text.Split

/-!
# Paths

A path is a text whose parts are separated by slashes: names, `.` for the directory itself and `..`
for the one above.  Following a path needs a directory at every step but the last, also where the
path only comes back from it.  Directories are made together with those above them; the empty path
needs none.
-/

set_option autoImplicit false

namespace ChunkStore

/-- A path as the parts between its slashes, the last one first. -/
abbrev Path : Type :=
  List String

namespace Path

/-- The path that a text gives. -/
def ofText (text : String) : Path :=
  ((Text.split '/' text.toList).map String.ofList).reverse

/-- Drops empty parts at the end. -/
def trimSlashes (path : Path) : Path :=
  path.dropWhile fun part => part = ""

/-- Drops empty parts and `.` at the end; a `.` that is the whole path stays. -/
def trim : Path → Path
  | [] => []
  | part :: rest => if part = "" || (part = "." && !rest.isEmpty) then trim rest else part :: rest

/-- The path above, if the path is not empty. -/
def parent? (path : Path) : Option Path :=
  match path.trim with
  | [] => none
  | _ :: rest => some (trim rest)

theorem length_trim_le (path : Path) : path.trim.length ≤ path.length := by
  induction path with
  | nil => simp [trim]
  | cons part rest ih =>
    unfold trim
    split
    · simp only [List.length_cons]; omega
    · simp

theorem length_parent?_lt {path above : Path} (h : path.parent? = some above) :
    above.length < path.length := by
  unfold parent? at h
  have hle := length_trim_le path
  split at h
  · simp at h
  · next rest hr =>
    rw [hr] at hle
    have := length_trim_le rest
    simp only [Option.some.injEq] at h
    subst h
    simp only [List.length_cons] at hle
    omega

end Path

namespace Disk

/-- The location that a path leads to from a location; nothing needs to be there. -/
def follow (disk : Disk) (location : Location) : List String → Except DiskFault Location
  | [] => .ok location
  | part :: rest =>
    match disk.nodes location with
    | none => .error .notFound
    | some (.directory _) =>
      if part = "" || part = "." then follow disk location rest
      else if part = ".." then follow disk location.tail rest
      else follow disk (.given part :: location) rest
    | some _ => .error .notADirectory

/-- The location that a path leads to, where something has to be. -/
def locate (disk : Disk) (path : Path) : Except DiskFault Location := do
  if path.all (· = "") then throw .notFound
  let location ← disk.follow [] path.reverse
  if (disk.nodes location).isSome then return location else throw .notFound

/-- Whether a path leads to a directory. -/
def isDirectory (disk : Disk) (path : Path) : Bool :=
  match disk.locate path with
  | .ok location => (disk.directoryNumber? location).isSome
  | .error _ => false

/-- Makes the directory that a path leads to, in a directory that is there. -/
def makeDirectory (disk : Disk) (path : Path) : Except DiskFault Disk :=
  match path.trimSlashes with
  | [] => .error .notFound
  | part :: rest =>
    match disk.follow [] rest.reverse with
    | .error fault => .error fault
    | .ok above =>
      match disk.nodes above with
      | none => .error .notFound
      | some (.directory _) =>
        let location := FileName.given part :: above
        if part = "." || part = ".." || (disk.nodes location).isSome then .error .alreadyExists
        else if disk.isProtected location then .error .permissionDenied
        else .ok (disk.putDirectory location)
      | some _ => .error .notADirectory

/-- Makes the directory that a path leads to and those above it.  What was made stays also if a
later step fails. -/
def makeDirectories (disk : Disk) (path : Path) : Except DiskFault Unit × Disk :=
  if path.all (· = "") then (.ok (), disk)
  else
    match disk.makeDirectory path with
    | .ok disk => (.ok (), disk)
    | .error .notFound =>
      match h : path.parent? with
      | none => (.error .notFound, disk)
      | some above =>
        have := Path.length_parent?_lt h
        match makeDirectories disk above with
        | (.error fault, disk) => (.error fault, disk)
        | (.ok (), disk) =>
          match disk.makeDirectory path with
          | .ok disk => (.ok (), disk)
          | .error fault => (if disk.isDirectory path then .ok () else .error fault, disk)
    | .error fault => (if disk.isDirectory path then .ok () else .error fault, disk)
termination_by path.length

end Disk

end ChunkStore
