import ChunkStore.Metadata.Kind
import ChunkStore.Number.Numeral

/-!
# Failures

Every way in which a call on a store can fail, as a cause, and the message of each cause.
-/

set_option autoImplicit false

namespace ChunkStore

/-- Why a call failed.  The first six causes carry the description that the engine gave. -/
inductive Failure where
  | construction (description : String)
  | insert (description : String)
  | query (description : String)
  | save (description : String)
  | delete (description : String)
  | sources (description : String)
  | indexOutOfRange (index length : Nat)
  | typeMismatch (expected found : Metadata.Kind)
  | invalidArgument (description : String)
  | invalidConfig (description : String)
deriving DecidableEq, Repr

namespace Failure

/-- The message that a caller sees. -/
def message : Failure → String
  | .construction description => "Failed to open engine: " ++ description
  | .insert description => "Insert failed: " ++ description
  | .query description => "Query failed: " ++ description
  | .save description => "Save failed: " ++ description
  | .delete description => "Delete failed: " ++ description
  | .sources description => "Listing sources failed: " ++ description
  | .indexOutOfRange index length =>
    "Index " ++ Numeral.text index ++ " out of range for length " ++ Numeral.text length
  | .typeMismatch expected found =>
    "Metadata type mismatch: expected " ++ expected.name ++ ", found " ++ found.name
  | .invalidArgument description => "Invalid argument: " ++ description
  | .invalidConfig description => "Invalid configuration: " ++ description

end Failure

/-- Refuses an index that is not below the length. -/
def checkIndex (index length : Nat) : Except Failure Unit :=
  if index < length then .ok () else .error (.indexOutOfRange index length)

/-- A computation in two steps succeeds exactly if both steps do. -/
theorem bind_eq_ok_iff {ε α β : Type} {first : Except ε α} {next : α → Except ε β} {result : β} :
    (first >>= next) = .ok result ↔ ∃ value, first = .ok value ∧ next value = .ok result := by
  cases first <;> simp [bind, Except.bind]

/-- A computation in two steps fails exactly if one of the steps does. -/
theorem bind_eq_error_iff {ε α β : Type} {first : Except ε α} {next : α → Except ε β}
    {failure : ε} :
    (first >>= next) = .error failure ↔
      first = .error failure ∨ ∃ value, first = .ok value ∧ next value = .error failure := by
  cases first <;> simp [bind, Except.bind]

/-- A result that is mapped succeeds exactly if it does before. -/
theorem map_eq_ok_iff {ε α β : Type} {first : Except ε α} {f : α → β} {result : β} :
    first.map f = .ok result ↔ ∃ value, first = .ok value ∧ f value = result := by
  cases first <;> simp [Except.map]

end ChunkStore
