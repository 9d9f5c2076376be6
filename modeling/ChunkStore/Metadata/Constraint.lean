import ChunkStore.Metadata.Value

/-!
# Constraints on metadata

A constraint asks one key's value to compare in one way to a given value.  A key without a value, or
with a value that does not compare, fails every constraint.
-/

set_option autoImplicit false

namespace ChunkStore.Metadata

/-- How a value has to compare. -/
inductive Operator where
  | equal
  | less
  | greater
deriving DecidableEq, Repr

namespace Operator

/-- The operator with a number at the C boundary. -/
def ofCode? (code : Int) : Option Operator :=
  if code = 0 then some .equal
  else if code = 1 then some .less
  else if code = 2 then some .greater
  else none

/-- The number of an operator at the C boundary. -/
def code : Operator → Int
  | .equal => 0
  | .less => 1
  | .greater => 2

/-- The result of a comparison that the operator asks for. -/
def ordering : Operator → Ordering
  | .equal => .eq
  | .less => .lt
  | .greater => .gt

theorem ofCode?_eq_some_iff (code : Int) (operator : Operator) :
    ofCode? code = some operator ↔ code = operator.code := by
  cases operator <;> simp only [ofCode?, Operator.code] <;> repeat' split
  all_goals simp_all

end Operator

/-- A condition on the value of one key. -/
structure Constraint where
  operator : Operator
  value : Value
deriving DecidableEq

namespace Constraint

/-- Whether the value of the key, if it has one, compares as asked. -/
def admits (constraint : Constraint) (candidate : Option Value) : Bool :=
  candidate.bind (·.compare? constraint.value) == some constraint.operator.ordering

end Constraint

end ChunkStore.Metadata

namespace ChunkStore

/-- Constraints by the key that they speak of. -/
abbrev Constraints : Type :=
  Dict String Metadata.Constraint

/-- Whether metadata meets every constraint. -/
def Metadata.satisfies (metadata : Metadata) (constraints : Constraints) : Bool :=
  constraints.toList.all fun (key, constraint) => constraint.admits (metadata.find? key)

end ChunkStore
