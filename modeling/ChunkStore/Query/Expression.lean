import ChunkStore.Number.Binary64

/-!
# Query expressions

What a query text says, before the words in it are analysed: literals with the field that they name,
boosts, and lists of clauses, each with a sign or without one.
-/

set_option autoImplicit false

namespace ChunkStore.Query

/-- How a clause takes part in a list. -/
inductive Sign where
  | must
  | mustNot
  | should
deriving DecidableEq, Repr

/-- One end of a range. -/
inductive Bound where
  | open
  | inclusive (text : String)
  | exclusive (text : String)
deriving DecidableEq, Repr

/-- What is looked for in a field: a word or a quoted phrase, a range, or a set. -/
inductive Literal where
  | word (text : String)
  | quoted (text : String) (slop : Nat) (isOpenEnded : Bool)
  | range (lower upper : Bound)
  | set (elements : List String)
deriving DecidableEq, Repr

/-- A factor on scores, written in decimal: `digits / 10 ^ places`. -/
structure Factor where
  digits : Nat
  places : Nat
deriving DecidableEq, Repr

namespace Factor

/-- Whether a factor is so near to one that it changes nothing. -/
def isOne (factor : Factor) : Bool :=
  let one := Nat.pow 10 factor.places
  (max factor.digits one - min factor.digits one) * 0x800000 < one

/-- The factor as a single precision number. -/
def toFloat32 (factor : Factor) : Float32 :=
  (Float.ofBits (Binary64.ofDecimal false factor.digits (-(factor.places : Int))).bits).toFloat32

end Factor

/-- What a query text says. -/
inductive Expression where
  | all
  | nothing
  | literal (field : Option String) (literal : Literal)
  | boost (factor : Factor) (expression : Expression)
  | clauses (list : List (Option Sign × Expression))

namespace Expression

mutual

/-- Gives a field to every literal without one. -/
def inField (name : String) : Expression → Expression
  | .all => .nothing
  | .nothing => .nothing
  | .literal field l => .literal (field.or (some name)) l
  | .boost factor e => .boost factor (inField name e)
  | .clauses list => .clauses (listInField name list)

/-- Gives a field to every literal without one in a list of clauses. -/
def listInField (name : String) :
    List (Option Sign × Expression) → List (Option Sign × Expression)
  | [] => []
  | (sign, e) :: rest => (sign, inField name e) :: listInField name rest

end

end Expression

/-- The word before an item that joins it to the one before. -/
inductive Connective where
  | and
  | or
deriving DecidableEq, Repr

/-- One part of an expression as it is written. -/
structure Item where
  connective : Option Connective
  sign : Option Sign
  expression : Expression

namespace Item

/-- An item that stands alone as a group; a negative item among alternatives becomes an alternative
that is a negation. -/
def alone (item : Item) (otherwise : Option Sign) : Option Sign × Expression :=
  if item.sign = some .mustNot ∧ otherwise = some .should then
    (some .should, .clauses [(some .mustNot, item.expression)])
  else (item.sign.or otherwise, item.expression)

/-- The sign of an item without a sign of its own, from the connectives before and after it. -/
def defaultSign (before after : Option Connective) : Option Sign :=
  match after, before with
  | some .and, _ => some .must
  | some .or, _ => some .should
  | none, some .or => some .should
  | none, _ => none

/-- Puts an item into the last group if it follows AND, otherwise into a group of its own.  Groups
and their members stand in reverse order. -/
def group (groups : List (List (Option Sign × Expression))) (item : Item)
    (after : Option Connective) : List (List (Option Sign × Expression)) :=
  match item.connective with
  | some .and =>
    let member := (item.sign.or (some .must), item.expression)
    match groups with
    | last :: rest => (member :: last) :: rest
    | [] => [[member]]
  | before => [item.alone (defaultSign before after)] :: groups

/-- The groups of items, in reverse order. -/
def groups (found : List (List (Option Sign × Expression))) :
    List Item → List (List (Option Sign × Expression))
  | [] => found
  | item :: rest => groups (group found item (rest.head?.bind (·.connective))) rest

/-- What a list of items says. -/
def combine (items : List Item) : Expression :=
  match ((groups [] items).map List.reverse).reverse with
  | [] => .clauses []
  | [[(sign, e)]] => if sign = some .mustNot then .clauses [(sign, e)] else e
  | [members] => .clauses members
  | several => .clauses (several.map fun
    | [member] => member
    | members => (some .should, .clauses members))

end Item

end ChunkStore.Query
