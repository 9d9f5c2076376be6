import ChunkStore.Index.Contents
import ChunkStore.Number.Binary32
import ChunkStore.Query.Parser
import ChunkStore.Query.Plan

/-!
# Ranking

Which entries match a plan, and how well.  A word scores by how rare it is among the entries and how
often it stands in the text, against the length of the text; lengths count in steps, finer for short
texts.  All arithmetic is in single precision.  `rank` lists the matching entries by falling scores;
equal scores keep the order of the entries.
-/

set_option autoImplicit false

namespace ChunkStore.Query

open ChunkStore.Index (Entry Field)

/-- Rounds a length beyond forty down: from `start` on, eight steps of one size, then eight of twice
that size, and so on. -/
def roundLength : Nat → Nat → Nat → Nat → Nat
  | 0, _, _, length => length
  | fuel + 1, start, step, length =>
    if length < start + 8 * step then start + (length - start) / step * step
    else roundLength fuel (start + 8 * step) (2 * step) length

/-- The length that a text counts for. -/
def countedLength (length : Nat) : Nat :=
  if length ≤ 40 then length else roundLength 32 40 2 length

/-- What scores depend on besides the entry itself. -/
structure Corpus where
  entries : List Entry
  size : Nat
  wordCount : Nat

namespace Corpus

/-- The corpus of entries. -/
def ofEntries (entries : List Entry) : Corpus :=
  ⟨entries, entries.length, entries.foldl (fun count entry => count + entry.words.length) 0⟩

/-- How rare it is that an entry has a property. -/
def rarity (corpus : Corpus) (has : Entry → Bool) : Float32 :=
  let n := corpus.entries.countP has
  (1 + ((corpus.size - n).toFloat32 + 0.5) / (n.toFloat32 + 0.5)).log

/-- The score of an entry in which something of a given rarity occurs `count` times. -/
def score (corpus : Corpus) (rarity : Float32) (entry : Entry) (count : Nat) : Float32 :=
  let average := corpus.wordCount.toFloat32 / corpus.size.toFloat32
  let length := (countedLength entry.words.length).toFloat32
  let norm : Float32 := 1.2 * (1 - 0.75 + 0.75 * length / average)
  let count := count.toFloat32
  rarity * (1 + 1.2) * (count / (count + norm))

end Corpus

/-- The positions of a word. -/
def positions (entry : Entry) (word : String) : List Nat :=
  (entry.words.filter fun placed => placed.2 = word).map Prod.fst

/-- How often words stand in an entry in the distances in which they stand in a phrase. -/
def phraseCount (entry : Entry) : List (Nat × String) → Nat
  | [] => 0
  | (first, word) :: rest =>
    (positions entry word).countP fun start =>
      rest.all fun (position, other) => entry.words.contains (start + (position - first), other)

/-- Pairs the places of two increasing lists that are at most `slop` apart, each place once; a place
on the left gives way to a later one that does not pass its partner.  The partners on the right are
kept. -/
def pairUp (slop : Nat) : Nat → List Nat → List Nat → List Nat
  | 0, _, _ => []
  | fuel + 1, left, right =>
    match left, right with
    | l :: ls, r :: rs =>
      if (max l r - min l r) ≤ slop then
        match ls with
        | next :: _ =>
          if next ≤ r then pairUp slop fuel ls right else r :: pairUp slop fuel ls rs
        | [] => [r]
      else if l < r then pairUp slop fuel ls right
      else pairUp slop fuel left rs
    | _, _ => []

/-- How often words stand in an entry in nearly the distances of a phrase. -/
def nearPhraseCount (entry : Entry) (words : List (Nat × String)) (slop : Nat) : Nat :=
  let last := (words.map Prod.fst).foldl max 0
  let places := words.map fun (position, word) =>
    (positions entry word).map (· + (last - position))
  match places with
  | [] => 0
  | first :: rest =>
    (rest.foldl (fun found next =>
      pairUp slop (found.length + next.length) found next) first).length

/-- Whether words stand in an entry as in a phrase, with a word behind them that starts in a given
way. -/
def hasOpenPhrase (entry : Entry) (words : List (Nat × String)) (last : Nat × String) : Bool :=
  match words with
  | [] => false
  | (first, word) :: rest =>
    (positions entry word).any fun start =>
      (rest.all fun (position, other) =>
        entry.words.contains (start + (position - first), other)) &&
        entry.words.any fun (position, other) =>
          position = start + (last.1 - first) && last.2.toList.isPrefixOf other.toList

/-- Whether a value is not below a lower limit. -/
def Limit.allowsFrom {α : Type} [Ord α] : Limit α → α → Bool
  | .open, _ => true
  | .inclusive low, value => (compare low value).isLE
  | .exclusive low, value => compare low value == .lt

/-- Whether a value is not above an upper limit. -/
def Limit.allowsTo {α : Type} [Ord α] : Limit α → α → Bool
  | .open, _ => true
  | .inclusive high, value => (compare value high).isLE
  | .exclusive high, value => compare value high == .lt

/-- The chunk ids of an entry. -/
def chunkIds (entry : Entry) : List UInt64 :=
  (entry.record.values Index.FieldNumbers.standard.chunkId).filterMap fun
    | .number id => some id
    | .text _ => none

/-- A fixed score for a match. -/
def fixed (score : Float32) (isMatch : Bool) : Option Float32 :=
  if isMatch then some score else none

/-- The score of something that occurs `count` times, if it occurs. -/
def counted (corpus : Corpus) (rarity : Float32) (factor : Float32) (entry : Entry) (count : Nat) :
    Option Float32 :=
  if count = 0 then none else some (corpus.score (rarity * factor) entry count)

/-- The score of a list of clauses from the scores of the clauses.  One clause stands for itself
unless it excludes; of several, all that must match do and none that must not, and one matches
anyhow. -/
def combineScores (scores : List (Sign × Option Float32)) : Option Float32 :=
  match scores with
  | [(.mustNot, _)] => none
  | [(_, score)] => score
  | scores =>
    let of (sign : Sign) : List (Option Float32) :=
      (scores.filter fun clause => clause.1 = sign).map Prod.snd
    let required := of .must
    let optional := (of .should).filterMap id
    if (of .mustNot).any Option.isSome || !required.all Option.isSome then none
    else if required.isEmpty && optional.isEmpty then none
    else some (((required.filterMap id) ++ optional).foldl (· + ·) 0)

mutual

/-- The score of an entry, if it matches. -/
def Plan.score (corpus : Corpus) (entry : Entry) (factor : Float32) : Plan → Option Float32
  | .all => some factor
  | .term field text =>
    fixed (corpus.rarity (·.hasTerm field text) * factor) (entry.hasTerm field text)
  | .chunkId id => fixed (corpus.rarity (·.hasChunkId id) * factor) (entry.hasChunkId id)
  | .word text =>
    match (positions entry text).length with
    | 0 => none
    | count =>
      counted corpus (corpus.rarity fun other => !(positions other text).isEmpty) factor entry count
  | .phrase words slop =>
    match if slop = 0 then phraseCount entry words else nearPhraseCount entry words slop with
    | 0 => none
    | count =>
      let rarity := (words.map fun word =>
        corpus.rarity fun other => !(positions other word.2).isEmpty).foldl (· + ·) 0
      counted corpus rarity factor entry count
  | .openPhrase words last => fixed factor (hasOpenPhrase entry words last)
  | .wordRange lower upper =>
    fixed factor (entry.words.any fun word => lower.allowsFrom word.2 && upper.allowsTo word.2)
  | .chunkIdRange lower upper =>
    fixed factor ((chunkIds entry).any fun id => lower.allowsFrom id && upper.allowsTo id)
  | .anyWord list => fixed factor (entry.words.any fun word => list.contains word.2)
  | .anyTerm field list => fixed factor (list.any fun text => entry.hasTerm field text)
  | .anyChunkId list => fixed factor ((chunkIds entry).any list.contains)
  | .boost by_ plan => plan.score corpus entry (factor * by_.toFloat32)
  | .clauses list => combineScores (Plan.scores corpus entry factor list)

/-- The scores of an entry for a list of clauses. -/
def Plan.scores (corpus : Corpus) (entry : Entry) (factor : Float32) :
    List (Sign × Plan) → List (Sign × Option Float32)
  | [] => []
  | (sign, plan) :: rest =>
    (sign, plan.score corpus entry factor) :: Plan.scores corpus entry factor rest

end

/-- The matching entries by falling scores; equal scores keep the order of the entries. -/
def rank (stopWords : List String) (text : String) (entries : List Entry) :
    List (Entry × Binary32) :=
  match Plan.ofQuery? stopWords (parse text) with
  | none => []
  | some plan =>
    let corpus := Corpus.ofEntries entries
    let scored := entries.filterMap fun entry =>
      (plan.score corpus entry 1).map fun score => (entry, Binary32.mk score.toBits)
    scored.mergeSort fun a b => decide (b.2.rank ≤ a.2.rank)

end ChunkStore.Query
