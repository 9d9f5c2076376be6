import ChunkStore.Engine.Searching
import Mathlib

/-!
# A search is a scan of the ranking

A search without constraints looks at as many of the best entries as are asked for, one with
constraints at the whole ranking.  Both do what one scan of the whole ranking does that keeps the
chunks which satisfy the constraints and stops when it has enough of them: a match is never lost
because better ones are refused, and an entry that is no chunk fails the search exactly if the scan
comes to it.
-/

set_option autoImplicit false

namespace ChunkStore.Engine

open ChunkStore.Index (DecodeFault Entry)

/-- The chunks of a ranking that satisfy constraints, in its order and with its scores. -/
def matching (constraints : Constraints) (ranking : List (Entry × Binary32)) : List Hit :=
  ranking.filterMap fun ranked =>
    match ranked.1.toChunk with
    | .ok chunk =>
      if Metadata.satisfies chunk.metadata constraints then some ⟨chunk, ranked.2⟩ else none
    | .error _ => none

/-- An entry that a scan comes to: fewer matches than are asked for are in front of it. -/
def Reaches (constraints : Constraints) (limit : Nat) (ranking : List (Entry × Binary32))
    (ranked : Entry × Binary32) : Prop :=
  ∃ before behind, ranking = before ++ ranked :: behind ∧
    (matching constraints before).length < limit

/-- The fault of the first entry that is no chunk, where a scan comes to it. -/
def Meets (constraints : Constraints) (limit : Nat) (ranking : List (Entry × Binary32))
    (fault : DecodeFault) : Prop :=
  ∃ before odd behind, ranking = before ++ odd :: behind ∧
    (matching constraints before).length < limit ∧
    (∀ earlier ∈ before, ∃ chunk, earlier.1.toChunk = .ok chunk) ∧
    odd.1.toChunk = .error fault

/-- Constraints that refuse no chunk of a ranking. -/
def AdmitsAll (constraints : Constraints) (ranking : List (Entry × Binary32)) : Prop :=
  ∀ ranked ∈ ranking, ∀ chunk, ranked.1.toChunk = .ok chunk →
    Metadata.satisfies chunk.metadata constraints = true

variable {constraints : Constraints} {limit : Nat} {ranking : List (Entry × Binary32)}
  {ranked : Entry × Binary32} {fault : DecodeFault} {chunk : Chunk}

theorem matching_cons (constraints : Constraints) (ranked : Entry × Binary32)
    (rest : List (Entry × Binary32)) :
    matching constraints (ranked :: rest) =
      matching constraints [ranked] ++ matching constraints rest := by
  show matching constraints ([ranked] ++ rest) = _
  exact List.filterMap_append

theorem matching_singleton (h : ranked.1.toChunk = .ok chunk) :
    matching constraints [ranked] =
      if Metadata.satisfies chunk.metadata constraints then [⟨chunk, ranked.2⟩] else [] := by
  unfold matching
  rw [List.filterMap_cons, h, List.filterMap_nil]
  cases hsatisfies : Metadata.satisfies chunk.metadata constraints <;> simp [hsatisfies]

theorem mem_matching_iff {hit : Hit} :
    hit ∈ matching constraints ranking ↔ ∃ ranked ∈ ranking, ranked.1.toChunk = .ok hit.chunk ∧
      Metadata.satisfies hit.chunk.metadata constraints = true ∧ ranked.2 = hit.score := by
  obtain ⟨found, score⟩ := hit
  unfold matching
  rw [List.mem_filterMap]
  apply exists_congr
  intro ranked
  cases hchunk : ranked.1.toChunk with
  | error fault => simp
  | ok chunk =>
    simp only [Option.ite_none_right_eq_some, Option.some.injEq, Hit.mk.injEq, Except.ok.injEq]
    constructor
    · rintro ⟨hmem, hsatisfies, rfl, rfl⟩
      exact ⟨hmem, rfl, hsatisfies, rfl⟩
    · rintro ⟨hmem, rfl, hsatisfies, rfl⟩
      exact ⟨hmem, hsatisfies, rfl, rfl⟩

theorem length_matching_le (constraints : Constraints) (ranking : List (Entry × Binary32)) :
    (matching constraints ranking).length ≤ ranking.length :=
  List.length_filterMap_le _ _

theorem Reaches.mem (h : Reaches constraints limit ranking ranked) : ranked ∈ ranking := by
  obtain ⟨before, behind, rfl, -⟩ := h
  exact List.mem_append_right _ List.mem_cons_self

theorem admitsAll_empty (ranking : List (Entry × Binary32)) : AdmitsAll .empty ranking := by
  intro ranked hranked chunk hchunk
  rfl

theorem AdmitsAll.matching_eq (h : AdmitsAll constraints ranking) :
    matching constraints ranking = matching .empty ranking := by
  apply List.filterMap_congr
  intro ranked hranked
  cases hchunk : ranked.1.toChunk with
  | error fault => rfl
  | ok chunk =>
    dsimp only
    rw [h ranked hranked chunk hchunk, admitsAll_empty ranking ranked hranked chunk hchunk]

theorem AdmitsAll.left {before behind : List (Entry × Binary32)}
    (h : AdmitsAll constraints (before ++ behind)) : AdmitsAll constraints before :=
  fun ranked hranked => h ranked (List.mem_append_left _ hranked)

theorem AdmitsAll.tail {first : Entry × Binary32} (h : AdmitsAll constraints (first :: ranking)) :
    AdmitsAll constraints ranking :=
  fun ranked hranked => h ranked (List.mem_cons_of_mem _ hranked)

/-- What a scan comes to is the first entry, and what the rest of the scan comes to. -/
theorem reaches_cons_iff {first : Entry × Binary32} :
    Reaches constraints limit (first :: ranking) ranked ↔
      0 < limit ∧ ranked = first ∨
        Reaches constraints (limit - (matching constraints [first]).length) ranking ranked := by
  constructor
  · rintro ⟨before, behind, hsplit, hfew⟩
    cases before with
    | nil =>
      obtain ⟨rfl, rfl⟩ := List.cons.inj hsplit
      exact .inl ⟨hfew, rfl⟩
    | cons first' before =>
      obtain ⟨rfl, rfl⟩ := List.cons.inj hsplit
      rw [matching_cons, List.length_append] at hfew
      exact .inr ⟨before, behind, rfl, by omega⟩
  · rintro (⟨hlimit, rfl⟩ | ⟨before, behind, rfl, hfew⟩)
    · exact ⟨[], ranking, rfl, hlimit⟩
    · refine ⟨first :: before, behind, rfl, ?_⟩
      rw [matching_cons, List.length_append]
      omega

/-! ### What a scan gives -/

theorem scan_nil (constraints : Constraints) (limit : Nat) :
    scan constraints limit [] = .ok [] := by
  cases limit <;> rfl

theorem scan_zero (constraints : Constraints) (ranking : List (Entry × Binary32)) :
    scan constraints 0 ranking = .ok [] := by
  unfold scan
  rfl

theorem scan_cons_of_error (h : ranked.1.toChunk = .error fault) (hlimit : 0 < limit) :
    scan constraints limit (ranked :: ranking) = .error fault := by
  obtain ⟨limit, rfl⟩ := Nat.exists_eq_succ_of_ne_zero (Nat.ne_of_gt hlimit)
  obtain ⟨entry, score⟩ := ranked
  unfold scan
  rw [h]
  rfl

theorem scan_cons (h : ranked.1.toChunk = .ok chunk) (hlimit : 0 < limit) :
    scan constraints limit (ranked :: ranking) =
      (scan constraints (limit - (matching constraints [ranked]).length) ranking).map
        (matching constraints [ranked] ++ ·) := by
  rw [matching_singleton h]
  obtain ⟨limit, rfl⟩ := Nat.exists_eq_succ_of_ne_zero (Nat.ne_of_gt hlimit)
  obtain ⟨entry, score⟩ := ranked
  rw [scan, h]
  simp only [bind, Except.bind]
  split
  · rw [List.length_singleton, Nat.succ_sub_one]
    cases scan constraints limit ranking <;> rfl
  · rw [List.length_nil, Nat.sub_zero]
    cases scan constraints limit.succ ranking <;> rfl

/-- A scan that comes to chunks only gives the first matches, as many as are asked for. -/
theorem scan_of_reaches (h : ∀ ranked, Reaches constraints limit ranking ranked →
    ∃ chunk, ranked.1.toChunk = .ok chunk) :
    scan constraints limit ranking = .ok ((matching constraints ranking).take limit) := by
  induction ranking generalizing limit with
  | nil =>
    rw [scan_nil]
    exact congrArg Except.ok List.take_nil.symm
  | cons first rest ih =>
    rcases Nat.eq_zero_or_pos limit with rfl | hlimit
    · rw [scan_zero, List.take_zero]
    · obtain ⟨chunk, hchunk⟩ := h first (reaches_cons_iff.2 (.inl ⟨hlimit, rfl⟩))
      have hlater := ih fun ranked hreaches => h ranked (reaches_cons_iff.2 (.inr hreaches))
      have hone : (matching constraints [first]).length ≤ limit :=
        (length_matching_le constraints [first]).trans hlimit
      rw [scan_cons hchunk hlimit, hlater, matching_cons constraints first rest, List.take_append,
        List.take_of_length_le hone]
      rfl

/-- A scan that comes to an entry that is no chunk fails. -/
theorem Meets.scan_eq (h : Meets constraints limit ranking fault) :
    scan constraints limit ranking = .error fault := by
  obtain ⟨before, odd, behind, rfl, hfew, hdecodes, hodd⟩ := h
  induction before generalizing limit with
  | nil => exact scan_cons_of_error hodd hfew
  | cons first before ih =>
    obtain ⟨⟨chunk, hchunk⟩, hrest⟩ := List.forall_mem_cons.1 hdecodes
    rw [matching_cons, List.length_append] at hfew
    rw [List.cons_append, scan_cons hchunk (by omega), ih (by omega) hrest]
    rfl

/-- A scan meets a fault, or all that it comes to are chunks. -/
theorem reaches_or_meets (constraints : Constraints) (limit : Nat)
    (ranking : List (Entry × Binary32)) :
    (∀ ranked, Reaches constraints limit ranking ranked → ∃ chunk, ranked.1.toChunk = .ok chunk) ∨
      ∃ fault, Meets constraints limit ranking fault := by
  induction ranking generalizing limit with
  | nil =>
    left
    intro ranked hreaches
    exact absurd hreaches.mem List.not_mem_nil
  | cons first rest ih =>
    rcases Nat.eq_zero_or_pos limit with rfl | hlimit
    · left
      rintro ranked ⟨before, behind, -, hfew⟩
      exact absurd hfew (Nat.not_lt_zero _)
    · cases hfirst : first.1.toChunk with
      | error fault => exact .inr ⟨fault, [], first, rest, rfl, hlimit, by simp, hfirst⟩
      | ok chunk =>
        rcases ih (limit - (matching constraints [first]).length) with
          hchunks | ⟨fault, before, odd, behind, rfl, hfew, hdecodes, hodd⟩
        · left
          intro ranked hreaches
          rcases reaches_cons_iff.1 hreaches with ⟨-, rfl⟩ | hlater
          · exact ⟨chunk, hfirst⟩
          · exact hchunks ranked hlater
        · refine .inr ⟨fault, first :: before, odd, behind, rfl, ?_, ?_, hodd⟩
          · rw [matching_cons, List.length_append]
            omega
          · exact List.forall_mem_cons.2 ⟨⟨chunk, hfirst⟩, hdecodes⟩

theorem scan_eq_ok_iff {hits : List Hit} :
    scan constraints limit ranking = .ok hits ↔
      (∀ ranked, Reaches constraints limit ranking ranked → ∃ chunk, ranked.1.toChunk = .ok chunk) ∧
        hits = (matching constraints ranking).take limit := by
  constructor
  · intro h
    rcases reaches_or_meets constraints limit ranking with hchunks | ⟨fault, hmeets⟩
    · rw [scan_of_reaches hchunks] at h
      exact ⟨hchunks, (Except.ok.inj h).symm⟩
    · rw [hmeets.scan_eq] at h
      exact absurd h (by simp)
  · rintro ⟨hchunks, rfl⟩
    exact scan_of_reaches hchunks

theorem scan_eq_error_iff :
    scan constraints limit ranking = .error fault ↔ Meets constraints limit ranking fault := by
  constructor
  · intro h
    rcases reaches_or_meets constraints limit ranking with hchunks | ⟨found, hmeets⟩
    · rw [scan_of_reaches hchunks] at h
      exact absurd h (by simp)
    · rw [hmeets.scan_eq] at h
      exact Except.error.inj h ▸ hmeets
  · exact Meets.scan_eq

/-- Where nothing is refused, a scan does not look behind the entries that are asked for. -/
theorem AdmitsAll.scan_take (h : AdmitsAll constraints ranking) (limit : Nat) :
    scan constraints limit (ranking.take limit) = scan constraints limit ranking := by
  induction ranking generalizing limit with
  | nil => rw [List.take_nil]
  | cons first rest ih =>
    rcases Nat.eq_zero_or_pos limit with rfl | hlimit
    · rw [scan_zero, scan_zero]
    · obtain ⟨below, rfl⟩ := Nat.exists_eq_succ_of_ne_zero (Nat.ne_of_gt hlimit)
      rw [List.take_succ_cons]
      cases hfirst : first.1.toChunk with
      | error fault => rw [scan_cons_of_error hfirst hlimit, scan_cons_of_error hfirst hlimit]
      | ok chunk =>
        have hone : matching constraints [first] = [⟨chunk, first.2⟩] := by
          rw [matching_singleton hfirst, h first List.mem_cons_self chunk hfirst, if_pos rfl]
        rw [scan_cons hfirst hlimit, scan_cons hfirst hlimit, hone, List.length_singleton,
          Nat.succ_sub_one, ih h.tail]

/-! ### The ranking -/

/-- Of a list whose members are given something each, or left out, the members stay in order. -/
theorem map_fst_filterMap_sublist {α β : Type} {f : α → Option (α × β)}
    (h : ∀ a given, f a = some given → given.1 = a) (list : List α) :
    ((list.filterMap f).map Prod.fst).Sublist list := by
  induction list with
  | nil => exact List.Sublist.refl _
  | cons a rest ih =>
    cases hgiven : f a with
    | none =>
      rw [List.filterMap_cons_none hgiven]
      exact ih.cons a
    | some given =>
      rw [List.filterMap_cons_some hgiven, List.map_cons, h a given hgiven]
      exact ih.cons_cons a

/-- The ranking has each entry of the index at most once. -/
theorem ranking_subperm (engine : Engine) (text : String) :
    ((engine.ranking text).map Prod.fst).Subperm engine.entries := by
  have hentries : (bySize engine.segments).flatten.Perm engine.entries :=
    (List.mergeSort_perm engine.segments _).flatten
  refine List.Subperm.trans ?_ hentries.subperm
  unfold ranking Query.rank
  split
  · exact List.nil_subperm
  · refine ((List.mergeSort_perm _ _).map Prod.fst).subperm.trans ?_
    refine (map_fst_filterMap_sublist ?_ _).subperm
    intro entry ranked hranked
    obtain ⟨score, -, rfl⟩ := Option.map_eq_some_iff.1 hranked
    rfl

theorem mem_entries_of_mem_ranking {engine : Engine} {text : String}
    (h : ranked ∈ engine.ranking text) : ranked.1 ∈ engine.entries :=
  (engine.ranking_subperm text).subset (List.mem_map_of_mem h)

theorem length_ranking_le (engine : Engine) (text : String) :
    (engine.ranking text).length ≤ engine.entries.length := by
  have hlength := (engine.ranking_subperm text).length_le
  rwa [List.length_map] at hlength

/-- The ranking is by falling scores. -/
theorem pairwise_ranking (engine : Engine) (text : String) :
    (engine.ranking text).Pairwise fun before behind => behind.2.rank ≤ before.2.rank := by
  unfold ranking Query.rank
  split
  · exact List.Pairwise.nil
  · refine (List.pairwise_mergeSort ?_ ?_ _).imp of_decide_eq_true
    · intro a b c hab hbc
      simp only [decide_eq_true_eq] at hab hbc ⊢
      exact hbc.trans hab
    · intro a b
      simp only [Bool.or_eq_true, decide_eq_true_eq]
      exact Int.le_total b.2.rank a.2.rank

/-! ### What a search gives -/

/-- A search is the scan of the whole ranking, however many entries it looks at. -/
theorem search_eq_scan (engine : Engine) (text : String) (limit : Nat) (constraints : Constraints) :
    engine.search text limit constraints = scan constraints limit (engine.ranking text) := by
  have hlength := engine.length_ranking_le text
  unfold search
  split
  · next hnone =>
    rcases hnone with rfl | hempty
    · rw [scan_zero]
    · have hranking : engine.ranking text = [] := by
        rw [List.isEmpty_iff.1 hempty] at hlength
        exact List.length_eq_zero_iff.1 (Nat.le_zero.1 hlength)
      rw [hranking, scan_nil]
  · unfold candidates
    split
    · next hempty =>
      obtain rfl := Dict.eq_empty_of_isEmpty hempty
      exact (admitsAll_empty _).scan_take limit
    · rw [List.take_of_length_le hlength]

/-- A search with a limit goes lazily through a ranking: it gives the first chunks that satisfy the
constraints, in the order of the ranking and with its scores, if all entries that it comes to are
chunks, and it fails exactly if it comes to one that is none. -/
structure ScansLazily (ranking : List (Entry × Binary32))
    (search : Nat → Constraints → Except DecodeFault (List Hit)) : Prop where
  succeeds : ∀ limit constraints hits, search limit constraints = .ok hits ↔
    (∀ ranked, Reaches constraints limit ranking ranked →
      ∃ chunk, ranked.1.toChunk = .ok chunk) ∧
      hits = (matching constraints ranking).take limit
  fails : ∀ limit constraints fault,
    search limit constraints = .error fault ↔ Meets constraints limit ranking fault

variable {search : Nat → Constraints → Except DecodeFault (List Hit)}

/-- Constraints that refuse nothing make no difference. -/
theorem ScansLazily.eq_unconstrained (h : ScansLazily ranking search)
    (hadmits : AdmitsAll constraints ranking) (limit : Nat) :
    search limit constraints = search limit .empty := by
  cases hfree : search limit .empty with
  | ok hits =>
    obtain ⟨hdecodes, rfl⟩ := (h.succeeds limit .empty hits).1 hfree
    refine (h.succeeds limit constraints _).2 ⟨?_, by rw [hadmits.matching_eq]⟩
    rintro ranked ⟨before, behind, rfl, hfew⟩
    rw [hadmits.left.matching_eq] at hfew
    exact hdecodes ranked ⟨before, behind, rfl, hfew⟩
  | error fault =>
    obtain ⟨before, odd, behind, rfl, hfew, hrest⟩ := (h.fails limit .empty fault).1 hfree
    rw [← hadmits.left.matching_eq] at hfew
    exact (h.fails limit constraints fault).2 ⟨before, odd, behind, rfl, hfew, hrest⟩

/-- To ask for less gives the first of what asking for more gives. -/
theorem ScansLazily.take_of_le (h : ScansLazily ranking search) {more : Nat} {hits : List Hit}
    (hless : limit ≤ more) (hhits : search more constraints = .ok hits) :
    search limit constraints = .ok (hits.take limit) := by
  obtain ⟨hdecodes, rfl⟩ := (h.succeeds more constraints hits).1 hhits
  refine (h.succeeds limit constraints _).2 ⟨?_, ?_⟩
  · rintro ranked ⟨before, behind, hsplit, hfew⟩
    exact hdecodes ranked ⟨before, behind, hsplit, hfew.trans_le hless⟩
  · rw [List.take_take, Nat.min_eq_left hless]

/-- Fewer hits than asked for are all that there are. -/
theorem ScansLazily.eq_matching (h : ScansLazily ranking search) {hits : List Hit}
    (hhits : search limit constraints = .ok hits) (hfew : hits.length < limit) :
    hits = matching constraints ranking := by
  obtain ⟨-, rfl⟩ := (h.succeeds limit constraints hits).1 hhits
  rw [List.length_take] at hfew
  exact List.take_of_length_le (by omega)

/-- Every search goes lazily through one ranking by falling scores, in which each entry of the index
stands at most once.  So constraints that refuse nothing make no difference, asking for less gives
the first of what asking for more gives, and fewer hits than asked for are all chunks of the ranking
that satisfy the constraints. -/
theorem search_goes_through_ranking (engine : Engine) (text : String) :
    ((engine.ranking text).Pairwise fun before behind => behind.2.rank ≤ before.2.rank) ∧
      ((engine.ranking text).map Prod.fst).Subperm engine.entries ∧
      ScansLazily (engine.ranking text) (engine.search text) ∧
      (∀ limit constraints, AdmitsAll constraints (engine.ranking text) →
        engine.search text limit constraints = engine.search text limit .empty) ∧
      (∀ limit more constraints hits, limit ≤ more →
        engine.search text more constraints = .ok hits →
        engine.search text limit constraints = .ok (hits.take limit)) ∧
      ∀ limit constraints hits, engine.search text limit constraints = .ok hits →
        hits.length < limit → hits = matching constraints (engine.ranking text) := by
  have hlazy : ScansLazily (engine.ranking text) (engine.search text) := by
    constructor
    · intro limit constraints hits
      rw [search_eq_scan]
      exact scan_eq_ok_iff
    · intro limit constraints fault
      rw [search_eq_scan]
      exact scan_eq_error_iff
  refine ⟨engine.pairwise_ranking text, engine.ranking_subperm text, hlazy, ?_, ?_, ?_⟩
  · intro limit constraints hadmits
    exact hlazy.eq_unconstrained hadmits limit
  · intro limit more constraints hits hless hhits
    exact hlazy.take_of_le hless hhits
  · intro limit constraints hits hhits hfew
    exact hlazy.eq_matching hhits hfew

end ChunkStore.Engine
