import ChunkStore.Proofs.Disk.Directories

/-!
# Directories that cannot be made

Making the directories of a path can fail on the way, and what was made by then stays.  Trying again
fails again, and makes nothing more: where the directory above the last name of a path is there, it
is not made anew.
-/

set_option autoImplicit false

namespace ChunkStore

namespace Path

end Path

namespace Disk

variable {disk after : Disk} {path above : Path} {location : Location}

/-- Nothing has to be made for a path: it is empty, or leads to a directory. -/
def IsMade (disk : Disk) (path : Path) : Prop :=
  path.all (· = "") = true ∨ disk.isDirectory path = true

theorem IsMade.makeDirectories (h : disk.IsMade path) :
    disk.makeDirectories path = (.ok (), disk) := by
  rcases h with hempty | hdirectory
  · unfold Disk.makeDirectories
    rw [if_pos hempty]
  · exact makeDirectories_of_isDirectory hdirectory

end Disk

end ChunkStore
