import ChunkStore.Index.Contents

/-!
# Disks

A disk is a tree of directories and files, given as what stands at each location.  Beside plain
texts there are the two kinds of files that an index consists of: data files, which are named after
the segment that they hold and so never change, and one description, which lists the segments and
carries the text of the manifest.  A directory has a number of its own that is never given again, so
that a directory which was removed and made anew is another one; whoever writes to an index holds
its directory by this number.
-/

set_option autoImplicit false

namespace ChunkStore

open ChunkStore.Index (Segment)

/-- The name of a file or directory in its directory. -/
inductive FileName where
  | given (name : String)
  | data (segment : Segment)
deriving DecidableEq

/-- A place on a disk: the names on the way to it, the last one first.  The working directory is
`[]`. -/
abbrev Location : Type :=
  List FileName

/-- What an index consists of, as committed. -/
structure Commit where
  segments : List Segment
  manifestText : Option String
deriving DecidableEq

/-- What stands at a location.  A fragment is what is left of a file whose copying broke off. -/
inductive Node where
  | directory (number : Nat)
  | text (content : String)
  | description (commit : Commit)
  | foreignDescription
  | data
  | fragment
deriving DecidableEq

/-- Why a disk refuses something. -/
inductive DiskFault where
  | alreadyExists
  | notADirectory
  | isADirectory
  | notFound
  | permissionDenied
  | noSpace
deriving DecidableEq, Repr

namespace DiskFault

/-- The message of a fault. -/
def message : DiskFault → String
  | .alreadyExists => "File exists (os error 17)"
  | .notADirectory => "Not a directory (os error 20)"
  | .isADirectory => "Is a directory (os error 21)"
  | .notFound => "No such file or directory (os error 2)"
  | .permissionDenied => "Permission denied (os error 13)"
  | .noSpace => "No space left on device (os error 28)"

end DiskFault

/-- The state of a disk.  A disk in trouble fails writers: each call that changes an index can stage
so many changes and no more, and cannot commit; each save can copy so many files and breaks off in
the middle of the next one.

The data files of two segments can have parts in common, as those of a segment have with those of
what was left of it after a removal; then whatever cuts the one short cuts the other one short.  And
what is missing of a description that was cut short can be no more than its line end. -/
structure Disk where
  nodes : Location → Option Node
  isProtected : Location → Bool
  nextNumber : Nat
  held : List Nat
  trouble : Option Nat
  sharesParts : Segment → Segment → Bool
  cutsLineEnd : Bool

namespace Disk

/-- A disk with nothing on it but the working directory. -/
def empty : Disk :=
  ⟨fun location => if location = [] then some (.directory 0) else none, fun _ => false, 1, [], none,
    fun _ _ => false, false⟩

/-- Puts something at a location. -/
def put (disk : Disk) (location : Location) (node : Node) : Disk :=
  { disk with nodes := fun other => if other = location then some node else disk.nodes other }

/-- Removes what stands at a location and below it. -/
def removeTree (disk : Disk) (location : Location) : Disk :=
  { disk with nodes := fun other => if location.isSuffixOf other then none else disk.nodes other }

/-- Makes a directory, with a number of its own. -/
def putDirectory (disk : Disk) (location : Location) : Disk :=
  { disk.put location (.directory disk.nextNumber) with nextNumber := disk.nextNumber + 1 }

/-- The number of the directory at a location. -/
def directoryNumber? (disk : Disk) (location : Location) : Option Nat :=
  match disk.nodes location with
  | some (.directory number) => some number
  | _ => none

/-- Writes a file in place of what was there; a directory is not replaced. -/
def write (disk : Disk) (location : Location) (node : Node) : Except DiskFault Disk :=
  match disk.nodes location with
  | some (.directory _) => .error .isADirectory
  | _ =>
    if disk.isProtected location then .error .permissionDenied
    else .ok (disk.put location node)

@[simp] theorem nodes_put_self (disk : Disk) (location : Location) (node : Node) :
    (disk.put location node).nodes location = some node := by
  simp [put]

theorem nodes_put_of_ne (disk : Disk) {location other : Location} (node : Node)
    (h : other ≠ location) : (disk.put location node).nodes other = disk.nodes other := by
  simp [put, h]

end Disk

end ChunkStore
