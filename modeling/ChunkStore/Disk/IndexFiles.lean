import ChunkStore.Disk.Path

/-!
# Index files

An index is a directory with a file `meta.json`, the description of what was committed last, and a
data file for each segment that the description lists.  The description decides what the index
holds; data files that it does not list are of no account.  So an index changes when its description
is written, and not before.
-/

set_option autoImplicit false

namespace ChunkStore

open ChunkStore.Index (Segment)

/-- Why a description cannot be used. -/
inductive DescriptionFault where
  | missing
  | isADirectory
  | corrupted
  | otherSchema
deriving DecidableEq, Repr

namespace DescriptionFault

/-- The message of a fault. -/
def message : DescriptionFault → String
  | .missing => "Failed to open file for read: 'FileDoesNotExist(\"meta.json\")'"
  | .isADirectory =>
    "Failed to open file for read: 'IoError \x7b io_error: Os \x7b code: 21, " ++
      "kind: IsADirectory, message: \"Is a directory\" \x7d, filepath: \"meta.json\" \x7d'"
  | .corrupted => "Data corrupted"
  | .otherSchema => "Schema error: 'An index exists but the schema does not match.'"

end DescriptionFault

/-- The place of the description of an index. -/
def descriptionOf (home : Location) : Location :=
  .given "meta.json" :: home

/-- The place of the data file of a segment. -/
def dataOf (home : Location) (segment : Segment) : Location :=
  .data segment :: home

namespace Disk

/-- What the description of an index says. -/
def readDescription (disk : Disk) (home : Location) : Except DescriptionFault Commit :=
  match disk.nodes (descriptionOf home) with
  | none => .error .missing
  | some (.directory _) => .error .isADirectory
  | some (.description commit) => .ok commit
  | some .foreignDescription => .error .otherSchema
  | some _ => .error .corrupted

/-- Whether every segment that a commit lists has its data file. -/
def holdsSegments (disk : Disk) (home : Location) (commit : Commit) : Bool :=
  commit.segments.all fun segment => disk.nodes (dataOf home segment) == some .data

/-- The disk with data files for segments. -/
def putData (home : Location) (segments : List Segment) (disk : Disk) : Disk :=
  { disk with nodes := fun
      | .data segment :: above =>
        if above = home ∧ segment ∈ segments then some .data
        else disk.nodes (.data segment :: above)
      | location => disk.nodes location }

/-- Commits to an index: puts the description there, and data files for those segments that were
not known before.  It succeeds or changes nothing. -/
def publish (disk : Disk) (home : Location) (known : List Segment) (commit : Commit) :
    Except DiskFault Disk :=
  match disk.nodes home with
  | none => .error .notFound
  | some (.directory _) =>
    let added := commit.segments.filter fun segment => !known.contains segment
    (disk.write (descriptionOf home) (.description commit)).map (putData home added)
  | some _ => .error .notADirectory

/-- Whether a location is that of a data file in a directory that shares parts with the one of a
segment there. -/
def isCutWith (disk : Disk) (home : Location) (segment : Segment) : Location → Bool
  | .data other :: above => above == home && disk.sharesParts segment other
  | _ => false

/-- Leaves a fragment in place of a data file, and of those that share parts with it. -/
def cutData (disk : Disk) (home : Location) (segment : Segment) : Disk :=
  let nodes (location : Location) : Option Node :=
    if disk.isCutWith home segment location then (disk.nodes location).map fun _ => .fragment
    else disk.nodes location
  { disk with nodes }.put (dataOf home segment) .fragment

/-- Copies a data file from one directory to another, if it is there.  A file that cannot be opened
for writing stays as it was; any other one is emptied first, so that a copy that breaks off leaves a
fragment. -/
def copyData (source target : Location) (segment : Segment) (breaksOff : Bool) (disk : Disk) :
    Except DiskFault Unit × Disk :=
  match disk.nodes (dataOf source segment) with
  | none => (.ok (), disk)
  | some node =>
    match disk.write (dataOf target segment) .data with
    | .error fault => (.error fault, disk)
    | .ok copied =>
      if breaksOff then (.error .noSpace, disk.cutData target segment)
      else (.ok (), if node = .data then copied else disk.cutData target segment)

/-- Copies data files from one directory to another, as far as they are there.  If there is room for
so many and no more, the next copy breaks off. -/
def copySegments (source target : Location) :
    List Segment → Option Nat → Disk → Except DiskFault Unit × Disk
  | [], _, disk => (.ok (), disk)
  | segment :: rest, room, disk =>
    match disk.copyData source target segment (room == some 0) with
    | (.error fault, disk) => (.error fault, disk)
    | (.ok (), disk) => copySegments source target rest (room.map (· - 1)) disk

/-- What is left in place of a description whose copying broke off: a fragment, or all but the line
end of what was to be copied, which says as much as the whole. -/
def cutDescription (disk : Disk) (home : Location) (node : Node) : Disk :=
  disk.put (descriptionOf home) (if disk.cutsLineEnd then node else .fragment)

/-- Copies a description from one directory to another, as data files are copied. -/
def copyDescription (source target : Location) (breaksOff : Bool) (disk : Disk) :
    Except DiskFault Unit × Disk :=
  match disk.nodes (descriptionOf source) with
  | none => (.error .notFound, disk)
  | some node =>
    match disk.write (descriptionOf target) node with
    | .error fault => (.error fault, disk)
    | .ok copied =>
      if breaksOff then (.error .noSpace, disk.cutDescription target node) else (.ok (), copied)

end Disk

end ChunkStore
