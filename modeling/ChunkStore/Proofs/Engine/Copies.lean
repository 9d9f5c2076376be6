import ChunkStore.Proofs.Engine.Reachable
import ChunkStore.Proofs.Engine.Sharing

/-!
# Copies that were saved

An engine that is opened on a copy that was saved shares a disk with the engine that was saved, and
starts from what that one holds.  So each of the two goes on as the one would have gone on if
nothing had been saved.
-/

set_option autoImplicit false

namespace ChunkStore.Engine

open ChunkStore.Index (Contents)

section

variable {engine : Engine} {disk : Disk}

/-- An engine that was saved, and one on the copy. -/
inductive Side where
  | saved
  | copy
deriving DecidableEq

/-- Two engines by their sides. -/
def pair (saved copy : Engine) : Side → Engine
  | .saved => saved
  | .copy => copy

end

end ChunkStore.Engine
