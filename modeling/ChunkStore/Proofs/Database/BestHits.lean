import ChunkStore.Database.OnScript
import ChunkStore.Proofs.Number.ScoreOrder

/-!
# Which hits a query gives, and in which order

Whatever engine is behind a database, a query answers for the hits that it passes on: if one of them
has no finite score, the query fails and names the first of these; otherwise it gives the best of
them, by falling scores.  Hits are told apart by their positions in the engine's answer, so that a
hit that stands there twice counts twice.

Hits of one score stay in the engine's order, with one exception: the zeros are equal as numbers,
but the sort tells them apart, and a positive zero comes before a negative one that the engine had
put in front of it.
-/

set_option autoImplicit false

namespace ChunkStore

namespace Results

variable {hits : List Hit} {topK : Nat}

/-! ### The order of results -/

theorem precedes_iff {a b : Hit} : precedes a b = true ↔ b.score.rank ≤ a.score.rank := by
  unfold precedes Binary32.compareTotal
  exact Int.isLE_compare

theorem precedes_trans (a b c : Hit) (h : precedes a b = true) (h' : precedes b c = true) :
    precedes a c = true :=
  precedes_iff.2 (le_trans (precedes_iff.1 h') (precedes_iff.1 h))

theorem precedes_total (a b : Hit) : (precedes a b || precedes b a) = true := by
  rw [Bool.or_eq_true, precedes_iff, precedes_iff]
  exact le_total _ _

/-- All hits with their positions, in the order of results. -/
def ordered (hits : List Hit) : List (Hit × Nat) :=
  hits.zipIdx.mergeSort (List.zipIdxLE precedes)

/-- The positions of the best hits, the best one first. -/
def bestPositions (topK : Nat) (hits : List Hit) : List Nat :=
  ((ordered hits).take topK).map Prod.snd

theorem mem_ordered_iff {placed : Hit × Nat} :
    placed ∈ ordered hits ↔ hits[placed.2]? = some placed.1 := by
  unfold ordered
  rw [List.mem_mergeSort, List.mem_zipIdx_iff_getElem?]

theorem pairwise_ordered (hits : List Hit) :
    (ordered hits).Pairwise fun a b => List.zipIdxLE precedes a b = true :=
  List.pairwise_mergeSort (List.zipIdxLE_trans precedes_trans)
    (List.zipIdxLE_total precedes_total) _

theorem nodup_positions (hits : List Hit) : ((ordered hits).map Prod.snd).Nodup := by
  have hperm : ((ordered hits).map Prod.snd).Perm (hits.zipIdx.map Prod.snd) :=
    (List.mergeSort_perm _ _).map _
  rw [hperm.nodup_iff, List.zipIdx_map_snd]
  exact List.nodup_range'

theorem length_ordered (hits : List Hit) : (ordered hits).length = hits.length := by
  unfold ordered
  rw [List.length_mergeSort, List.length_zipIdx]

/-- A hit of a lower score does not come before one of a higher score. -/
theorem value_le_of_zipIdxLE {a b : Hit × Nat} (h : List.zipIdxLE precedes a b = true) :
    b.1.score.value ≤ a.1.score.value := by
  unfold List.zipIdxLE at h
  split at h
  · next hprecedes => exact Binary32.value_le_of_rank_le (precedes_iff.1 hprecedes)
  · exact absurd h Bool.false_ne_true

/-- If every hit has a finite score, the best are the first in the order of results. -/
theorem best_eq_ok (hfinite : ∀ hit ∈ hits, hit.score.isFinite = true) (topK : Nat) :
    best topK hits = .ok ⟨((ordered hits).take topK).map Prod.fst⟩ := by
  have hnone : hits.find? (fun hit => !hit.score.isFinite) = none := by
    rw [List.find?_eq_none]
    intro hit hhit
    simp [hfinite hit hhit]
  have hsorted : (ordered hits).map Prod.fst = hits.mergeSort precedes := List.mergeSort_zipIdx
  unfold best
  rw [hnone, List.map_take, hsorted]

/-! ### Which hits are given -/

/-- Results that are as many as asked for of an engine's hits, or all of them: the hits at these
positions, which are different, by falling scores, and no better hit is left out. -/
structure AreBest (hits : List Hit) (topK : Nat) (positions : List Nat) (results : Results) :
    Prop where
  size : results.hits.length = min topK hits.length
  distinct : positions.Nodup
  taken : results.hits.map some = positions.map (hits[·]?)
  falling : results.hits.Pairwise fun earlier later => later.score.value ≤ earlier.score.value
  leftOut : ∀ position hit, hits[position]? = some hit → position ∉ positions →
    ∀ kept ∈ results.hits, hit.score.value ≤ kept.score.value

theorem areBest (hits : List Hit) (topK : Nat) :
    AreBest hits topK (bestPositions topK hits) ⟨((ordered hits).take topK).map Prod.fst⟩ where
  size := by
    rw [List.length_map, List.length_take, length_ordered]
  distinct := by
    unfold bestPositions
    rw [List.map_take]
    exact (nodup_positions hits).sublist (List.take_sublist _ _)
  taken := by
    unfold bestPositions
    rw [List.map_map, List.map_map]
    apply List.map_congr_left
    intro placed hplaced
    exact (mem_ordered_iff.1 (List.mem_of_mem_take hplaced)).symm
  falling := by
    rw [List.pairwise_map]
    exact ((pairwise_ordered hits).sublist (List.take_sublist _ _)).imp value_le_of_zipIdxLE
  leftOut := by
    intro position hit hhit hposition kept hkept
    obtain ⟨placed, hplaced, rfl⟩ := List.mem_map.1 hkept
    have hmem : (hit, position) ∈ (ordered hits).take topK ++ (ordered hits).drop topK := by
      rw [List.take_append_drop]
      exact mem_ordered_iff.2 hhit
    have hdropped : (hit, position) ∈ (ordered hits).drop topK := by
      rcases List.mem_append.1 hmem with htaken | hdropped
      · exact absurd (List.mem_map.2 ⟨_, htaken, rfl⟩) hposition
      · exact hdropped
    have hpairwise := pairwise_ordered hits
    rw [← List.take_append_drop topK (ordered hits), List.pairwise_append] at hpairwise
    exact value_le_of_zipIdxLE (hpairwise.2.2 placed hplaced _ hdropped)

/-- A hit that comes before one of the best in the order of results is one of the best as well, and
stands before it. -/
theorem sublist_bestPositions {a b : Hit × Nat} (ha : a ∈ ordered hits)
    (hbefore : List.zipIdxLE precedes b a = false) (hb : b ∈ ordered hits)
    (hbest : b.2 ∈ bestPositions topK hits) : [a.2, b.2].Sublist (bestPositions topK hits) := by
  obtain ⟨placed, hplaced, hposition⟩ := List.mem_map.1 hbest
  have hsame : placed = b := by
    refine List.inj_on_of_nodup_map (nodup_positions hits) ?_ hb hposition
    exact List.mem_of_mem_take hplaced
  subst hsame
  obtain ⟨front, back, hsplit⟩ := List.append_of_mem hplaced
  have hall : ordered hits = front ++ placed :: (back ++ (ordered hits).drop topK) := by
    rw [← List.cons_append, ← List.append_assoc, ← hsplit, List.take_append_drop]
  have hfront : a ∈ front := by
    rw [hall] at ha
    rcases List.mem_append.1 ha with hfront | hlater
    · exact hfront
    · -- Whatever does not come before `b` would have `b` before it.
      have hpairwise := pairwise_ordered hits
      rw [hall, List.pairwise_append, List.pairwise_cons] at hpairwise
      rcases List.mem_cons.1 hlater with rfl | hlater
      · have hself := List.zipIdxLE_total precedes_total a a
        rw [Bool.or_self, hbefore] at hself
        exact absurd hself Bool.false_ne_true
      · have hle := hpairwise.2.1.1 a hlater
        rw [hbefore] at hle
        exact absurd hle Bool.false_ne_true
  unfold bestPositions
  rw [hsplit, List.map_append, List.map_cons]
  have hsingle : [a.2].Sublist (front.map Prod.snd) :=
    List.singleton_sublist.2 (List.mem_map_of_mem hfront)
  exact hsingle.append (List.singleton_sublist.2 List.mem_cons_self)

/-- Of two hits of one score the one that the engine put first comes first, unless it is a negative
zero and the other one a positive zero. -/
theorem zipIdxLE_of_tie {first second : Hit} {i j : Nat} (hij : i < j)
    (hsame : first.score.value = second.score.value)
    (hzeros : ¬(first.score = .negativeZero ∧ second.score = .positiveZero)) :
    List.zipIdxLE precedes (second, j) (first, i) = false := by
  have hprecedes : precedes first second = true := by
    rw [precedes_iff]
    rcases Binary32.rank_le_of_value_eq hsame.symm with hrank | ⟨hsecond, hfirst⟩
    · exact hrank
    · exact absurd ⟨hfirst, hsecond⟩ hzeros
  simp only [List.zipIdxLE, hprecedes, if_true]
  split
  · exact decide_eq_false (by omega)
  · rfl

end Results

namespace Database

open Results

variable {σ : Type} [Retrieval σ]

/-- Asking for no results gives none, and the engine is left as it is.  Otherwise a query gives the
best of the hits that the engine answers with, by falling scores, unless one of them has no finite
score: then it fails and names the first of these, also if so many are not asked for. -/
theorem query_gives_best_hits (text : String) (topK : Nat) (constraints : Constraints) (state : σ) :
    query text 0 constraints state = (.ok ⟨[]⟩, state) ∧
    ∀ hits after, 0 < topK → Retrieval.query text topK constraints state = (.ok hits, after) →
      ((∃ hit ∈ hits, hit.score.isFinite = false) →
        ∃ before hit behind, hits = before ++ hit :: behind ∧
          (∀ earlier ∈ before, earlier.score.isFinite = true) ∧ hit.score.isFinite = false ∧
          query text topK constraints state =
            (.error (.query ("engine returned score " ++ hit.score.nonFiniteText ++ " for chunk " ++
              Numeral.text hit.chunk.id.toNat)), after)) ∧
      ((∀ hit ∈ hits, hit.score.isFinite = true) →
        ∃ positions results, query text topK constraints state = (.ok results, after) ∧
          AreBest hits topK positions results) := by
  refine ⟨rfl, fun hits after hpositive hanswer => ?_⟩
  have hquery : query text topK constraints state = (best topK hits, after) := by
    unfold query
    rw [if_neg (by omega), hanswer]
  refine ⟨?_, ?_⟩
  · rintro ⟨odd, hodd, hnone⟩
    have hfound : (hits.find? fun hit => !hit.score.isFinite).isSome = true :=
      List.find?_isSome.2 ⟨odd, hodd, by simp [hnone]⟩
    obtain ⟨hit, hhit⟩ := Option.isSome_iff_exists.1 hfound
    obtain ⟨hscore, before, behind, hsplit, hbefore⟩ := List.find?_eq_some_iff_append.1 hhit
    refine ⟨before, hit, behind, hsplit, ?_, by simpa using hscore, ?_⟩
    · intro earlier hearlier
      simpa using hbefore earlier hearlier
    · rw [hquery]
      unfold best
      rw [hhit]
      rfl
  · intro hfinite
    exact ⟨_, _, by rw [hquery, best_eq_ok hfinite], areBest hits topK⟩

/-- A script that answers queries with these hits. -/
def answering (hits : List Hit) : Script :=
  ⟨[], hits, [], []⟩

/-- A hit that is told by its chunk id. -/
def numberedHit (id : UInt64) (score : Binary32) : Hit :=
  ⟨⟨id, "", "a.txt", "a", 1, .empty⟩, score⟩

/-- Scores one, two, minus two and one again. -/
def unsortedHits : List Hit :=
  [numberedHit 7 ⟨0x3f800000⟩, numberedHit 8 ⟨0x40000000⟩, numberedHit 9 ⟨0xc0000000⟩,
    numberedHit 7 ⟨0x3f800000⟩]

theorem unsortedHits_are_ranked :
    Retrieval.query "x" 3 .empty (answering unsortedHits) =
        (.ok unsortedHits, { answering unsortedHits with calls := [.query "x" 3 []] }) ∧
      ∃ positions results,
        query "x" 3 .empty (answering unsortedHits) =
          (.ok results, { answering unsortedHits with calls := [.query "x" 3 []] }) ∧
        AreBest unsortedHits 3 positions results :=
  ⟨rfl, ((query_gives_best_hits "x" 3 .empty (answering unsortedHits)).2 unsortedHits _
    (by decide) rfl).2 (by decide)⟩

/-- The engine's order among hits of one score survives, except that a positive zero comes before a
negative one that stood in front of it.  If hits have finite scores and the score of one is that of
a later one, then a query that gives the later one gives the earlier one as well, in front of it; if
they are a negative zero and a positive one, it is the other way round. -/
theorem ties_keep_engine_order (text : String) (topK : Nat) (constraints : Constraints) (state : σ)
    {hits : List Hit} (hanswer : (Retrieval.query text topK constraints state).1 = .ok hits)
    (hfinite : ∀ hit ∈ hits, hit.score.isFinite = true) :
    ∃ positions results, (query text topK constraints state).1 = .ok results ∧
      AreBest hits topK positions results ∧
      ∀ i j first second, i < j → hits[i]? = some first → hits[j]? = some second →
        first.score.compare? second.score = some .eq →
        (¬(first.score = .negativeZero ∧ second.score = .positiveZero) →
          j ∈ positions → [i, j].Sublist positions) ∧
        (first.score = .negativeZero → second.score = .positiveZero →
          i ∈ positions → [j, i].Sublist positions) := by
  have hquery : (query text topK constraints state).1 =
      .ok ⟨((ordered hits).take topK).map Prod.fst⟩ := by
    unfold query
    split
    · next hnone =>
      subst hnone
      rfl
    · rw [← best_eq_ok hfinite]
      split
      · next hfailed =>
        rw [hfailed] at hanswer
        exact absurd hanswer (by simp)
      · next hfound =>
        rw [hfound] at hanswer
        rw [Except.ok.inj hanswer]
  refine ⟨bestPositions topK hits, _, hquery, areBest hits topK, ?_⟩
  intro i j first second hij hi hj hequal
  rw [Binary32.compare?_eq_compare_value (hfinite first (List.mem_of_getElem? hi))
    (hfinite second (List.mem_of_getElem? hj))] at hequal
  have hsame := Std.LawfulEqOrd.eq_of_compare (Option.some.inj hequal)
  have hfirst : (first, i) ∈ ordered hits := mem_ordered_iff.2 hi
  have hsecond : (second, j) ∈ ordered hits := mem_ordered_iff.2 hj
  refine ⟨fun hzeros hbest => ?_, fun hnegative hpositive hbest => ?_⟩
  · exact sublist_bestPositions hfirst (zipIdxLE_of_tie hij hsame hzeros) hsecond hbest
  · have hlater : List.zipIdxLE precedes (first, i) (second, j) = false := by
      have hprecedes : precedes first second = false := by
        rw [precedes, hnegative, hpositive]
        rfl
      simp [List.zipIdxLE, hprecedes]
    exact sublist_bestPositions hsecond hlater hfirst hbest

/-- A positive zero, a one, a negative zero and a one. -/
def tiedHits : List Hit :=
  [numberedHit 1 .positiveZero, numberedHit 2 ⟨0x3f800000⟩, numberedHit 3 .negativeZero,
    numberedHit 4 ⟨0x3f800000⟩]

theorem tiedHits_keep_engine_order :
    (Retrieval.query "x" 4 .empty (answering tiedHits)).1 = .ok tiedHits ∧
      ∃ positions results, (query "x" 4 .empty (answering tiedHits)).1 = .ok results ∧
        AreBest tiedHits 4 positions results ∧
        (2 ∈ positions → [0, 2].Sublist positions) ∧
        (3 ∈ positions → [1, 3].Sublist positions) := by
  obtain ⟨positions, results, hquery, hbest, hties⟩ :=
    ties_keep_engine_order "x" 4 .empty (answering tiedHits) rfl (by decide)
  refine ⟨rfl, positions, results, hquery, hbest, ?_, ?_⟩
  · exact (hties 0 2 _ _ (by decide) rfl rfl (by decide)).1 (by decide)
  · exact (hties 1 3 _ _ (by decide) rfl rfl (by decide)).1 (by decide)

/-- A negative zero in front of a positive one. -/
def oppositeZeros : List Hit :=
  [numberedHit 1 .negativeZero, numberedHit 2 .positiveZero]

/-- The zeros are equal as numbers, and yet of these two hits only the second one is given if one is
asked for, and the second one first if both are. -/
theorem positive_zero_overtakes_negative_zero :
    (∀ hit ∈ oppositeZeros, hit.score.isFinite = true) ∧
      Binary32.negativeZero.compare? .positiveZero = some .eq ∧
      (query "x" 1 .empty (answering oppositeZeros)).1 =
        .ok ⟨[numberedHit 2 .positiveZero]⟩ ∧
      (query "x" 2 .empty (answering oppositeZeros)).1 =
        .ok ⟨[numberedHit 2 .positiveZero, numberedHit 1 .negativeZero]⟩ := by
  have hsorted : oppositeZeros.mergeSort precedes =
      [numberedHit 2 .positiveZero, numberedHit 1 .negativeZero] := by
    have hprecedes : precedes (numberedHit 1 .negativeZero) (numberedHit 2 .positiveZero) = false :=
      by decide
    simp [oppositeZeros, List.mergeSort, hprecedes]
  have hbest : ∀ topK, best topK oppositeZeros =
      .ok ⟨[numberedHit 2 .positiveZero, numberedHit 1 .negativeZero].take topK⟩ := by
    intro topK
    rw [← hsorted]
    rfl
  exact ⟨by decide, by decide, hbest 1, hbest 2⟩

end Database

end ChunkStore
