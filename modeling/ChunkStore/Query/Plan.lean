import ChunkStore.Index.Record
import ChunkStore.Query.Expression
import ChunkStore.Text.Token

/-!
# Query plans

What a query expression looks for in an index: its words are analysed in the way in which the text
of the chunks was, and what cannot match is left out.  A plan that only excludes is given everything
to exclude from.
-/

set_option autoImplicit false

namespace ChunkStore.Query

open ChunkStore.Index (Field)

/-- One end of a range of terms or numbers. -/
inductive Limit (α : Type) where
  | open
  | inclusive (value : α)
  | exclusive (value : α)

/-- What is looked for. -/
inductive Plan where
  | all
  | term (field : Field) (text : String)
  | chunkId (id : UInt64)
  | word (text : String)
  | phrase (words : List (Nat × String)) (slop : Nat)
  | openPhrase (words : List (Nat × String)) (last : Nat × String)
  | wordRange (lower upper : Limit String)
  | chunkIdRange (lower upper : Limit UInt64)
  | anyWord (list : List String)
  | anyTerm (field : Field) (list : List String)
  | anyChunkId (list : List UInt64)
  | boost (factor : Factor) (plan : Plan)
  | clauses (list : List (Sign × Plan))

namespace Plan

/-- The plan that looks for nothing. -/
def nothing : Plan :=
  .clauses []

/-- The number that a text stands for: digits, with a plus sign or without. -/
def chunkIdOf? (text : String) : Option UInt64 :=
  let row := match text.toList with
    | '+' :: rest => rest
    | chars => chars
  if row.isEmpty || !row.all Numeral.isDigit || UInt64.size ≤ Numeral.ofDigits row then none
  else some (UInt64.ofNat (Numeral.ofDigits row))

/-- The one word that a text consists of. -/
def wordOf? (stopWords : List String) (text : String) : Option String :=
  match Text.tokens stopWords text with
  | [token] => some token.word
  | _ => none

/-- A bound on values that texts stand for; a text that stands for none is an open end. -/
def limitOf {α : Type} (value? : String → Option α) : Bound → Limit α
  | .open => .open
  | .inclusive text => match value? text with
    | some value => .inclusive value
    | none => .open
  | .exclusive text => match value? text with
    | some value => .exclusive value
    | none => .open

/-- A range, unless both its ends are open. -/
def rangeOf {α : Type} (plan : Limit α → Limit α → Plan) (value? : String → Option α)
    (lower upper : Bound) : Plan :=
  match limitOf value? lower, limitOf value? upper with
  | .open, .open => nothing
  | low, high => plan low high

/-- What a text in quotes or a word looks for in the text of the chunks. -/
def ofText (stopWords : List String) (text : String) (slop : Nat) (isOpenEnded : Bool) : Plan :=
  match (Text.tokens stopWords text).map fun token => (token.position, token.word) with
  | [] => nothing
  | [(_, only)] => if isOpenEnded then nothing else .word only
  | found =>
    if isOpenEnded then
      match found.getLast? with
      | some last => .openPhrase found.dropLast last
      | none => nothing
    else .phrase found slop

/-- What a literal looks for in the text of the chunks. -/
def inText (stopWords : List String) : Literal → Plan
  | .word text => ofText stopWords text 0 false
  | .quoted text slop isOpenEnded => ofText stopWords text slop isOpenEnded
  | .range lower upper => rangeOf .wordRange (wordOf? stopWords) lower upper
  | .set elements => .anyWord (elements.filterMap (wordOf? stopWords))

/-- What a literal looks for in the chunk ids. -/
def inChunkId : Literal → Plan
  | .word text => ((chunkIdOf? text).map Plan.chunkId).getD nothing
  | .quoted text _ _ => ((chunkIdOf? text).map Plan.chunkId).getD nothing
  | .range lower upper => rangeOf .chunkIdRange chunkIdOf? lower upper
  | .set elements => .anyChunkId (elements.filterMap chunkIdOf?)

/-- What a literal looks for in a field that is indexed as a whole. -/
def inWhole (field : Field) : Literal → Plan
  | .word text => .term field text
  | .quoted text _ isOpenEnded => if isOpenEnded then nothing else .term field text
  | .range _ _ => nothing
  | .set elements => .anyTerm field elements

/-- What a literal looks for in the field that it names. -/
def ofLiteral (stopWords : List String) (name : Option String) (literal : Literal) : Plan :=
  match name with
  | none =>
    match literal with
    | .range _ _ => nothing
    | .set _ => nothing
    | literal => inText stopWords literal
  | some name =>
    match Field.ofName? name with
    | some .text => inText stopWords literal
    | some .chunkId => inChunkId literal
    | some .docId => inWhole .docId literal
    | some .versionKey => inWhole .versionKey literal
    | _ => nothing

mutual

/-- What an expression looks for; a clause without a sign is optional. -/
def ofExpression (stopWords : List String) : Expression → Plan
  | .all => .all
  | .nothing => nothing
  | .literal name literal => ofLiteral stopWords name literal
  | .boost factor e => .boost factor (ofExpression stopWords e)
  | .clauses list => .clauses (ofClauses stopWords list)

/-- What a list of clauses looks for. -/
def ofClauses (stopWords : List String) : List (Option Sign × Expression) → List (Sign × Plan)
  | [] => []
  | (sign, e) :: rest => (sign.getD .should, ofExpression stopWords e) :: ofClauses stopWords rest

end

mutual

/-- Whether a plan only excludes. -/
def onlyExcludes : Plan → Bool
  | .boost _ plan => onlyExcludes plan
  | .clauses list => listOnlyExcludes list
  | _ => false

/-- Whether every clause of a list excludes. -/
def listOnlyExcludes : List (Sign × Plan) → Bool
  | [] => true
  | (sign, plan) :: rest => (sign = .mustNot || onlyExcludes plan) && listOnlyExcludes rest

end

/-- Gives a list of clauses everything as one more alternative. -/
def includeAll : Plan → Plan
  | .boost factor plan => .boost factor (includeAll plan)
  | .clauses list => .clauses (list ++ [(.should, .all)])
  | plan => plan

mutual

/-- A plan without empty lists in its lists; `none` is an empty list.  A factor stays, even on what
looks for nothing. -/
def trim? : Plan → Option Plan
  | .clauses list =>
    match trimList list with
    | [] => none
    | rest => some (.clauses rest)
  | .boost factor plan => some (.boost factor ((trim? plan).getD nothing))
  | plan => some plan

/-- The clauses of a list that are not empty. -/
def trimList : List (Sign × Plan) → List (Sign × Plan)
  | [] => []
  | (sign, plan) :: rest =>
    match trim? plan with
    | some plan => (sign, plan) :: trimList rest
    | none => trimList rest

end

/-- What a query looks for; `none` matches nothing. -/
def ofQuery? (stopWords : List String) (expression : Expression) : Option Plan :=
  match ofExpression stopWords expression with
  | .clauses [] => none
  | plan => trim? (if onlyExcludes plan then includeAll plan else plan)

end Plan

end ChunkStore.Query
