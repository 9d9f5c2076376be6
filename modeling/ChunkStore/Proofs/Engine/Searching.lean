import ChunkStore.Database.OnEngine
import ChunkStore.Proofs.Engine.Changing
import ChunkStore.Proofs.Engine.Scanning

/-!
# A search finds stored chunks

Whatever the query and the scores, a ranking has only entries of the index in it.  So if all entries
are chunks, a search does not fail, and what it finds are chunks of the index.
-/

set_option autoImplicit false

namespace ChunkStore

/-- A search of an index that consists of chunks does not fail, and finds chunks of the index. -/
theorem Engine.exists_search_eq_ok {engine : Engine}
    (h : ∀ entry ∈ engine.entries, ∃ chunk, entry.toChunk = .ok chunk) (text : String) (limit : Nat)
    (constraints : Constraints) :
    ∃ hits, engine.search text limit constraints = .ok hits ∧
      ∀ hit ∈ hits, ∃ entry ∈ engine.entries, entry.toChunk = .ok hit.chunk := by
  refine ⟨(matching constraints (engine.ranking text)).take limit, ?_, ?_⟩
  · rw [search_eq_scan]
    refine scan_eq_ok_iff.2 ⟨?_, rfl⟩
    intro ranked hreaches
    exact h ranked.1 (mem_entries_of_mem_ranking hreaches.mem)
  · intro hit hmem
    obtain ⟨ranked, hranked, hdecodes, -⟩ := mem_matching_iff.1 (List.mem_of_mem_take hmem)
    exact ⟨ranked.1, mem_entries_of_mem_ranking hranked, hdecodes⟩

/-- The best hits are among the hits, unless one of them has no score. -/
theorem Results.best_outcome (topK : Nat) (hits : List Hit) :
    (∃ results, Results.best topK hits = .ok results ∧ ∀ hit ∈ results.hits, hit ∈ hits) ∨
      ∃ hit, Results.best topK hits = .error (scoreFailure hit) := by
  unfold Results.best
  split
  · next hit _ => exact .inr ⟨hit, rfl⟩
  · refine .inl ⟨_, rfl, ?_⟩
    intro hit hmem
    exact List.mem_mergeSort.1 (List.mem_of_mem_take hmem)

/-- A query to a database whose index consists of chunks gives chunks of the index, unless one of
the hits has no score. -/
theorem Database.query_outcome {engine : Engine}
    (h : ∀ entry ∈ engine.entries, ∃ chunk, entry.toChunk = .ok chunk) (text : String) (topK : Nat)
    (constraints : Constraints) (disk : Disk) :
    (∃ results, (Database.query text topK constraints (engine, disk)).1 = .ok results ∧
        ∀ hit ∈ results.hits, ∃ entry ∈ engine.entries, entry.toChunk = .ok hit.chunk) ∨
      ∃ hit, (Database.query text topK constraints (engine, disk)).1 =
        .error (Results.scoreFailure hit) := by
  obtain ⟨hits, hsearch, hhits⟩ := Engine.exists_search_eq_ok h text topK constraints
  unfold Database.query
  split
  · exact .inl ⟨⟨[]⟩, rfl, by simp⟩
  · simp only [Retrieval.query, hsearch, Except.mapError]
    rcases Results.best_outcome topK hits with ⟨results, hbest, hmem⟩ | hfailed
    · exact .inl ⟨results, hbest, fun hit hhit => hhits hit (hmem hit hhit)⟩
    · exact .inr hfailed

/-- A query changes nothing. -/
theorem Database.query_state (text : String) (topK : Nat) (constraints : Constraints)
    (state : Engine × Disk) : (Database.query text topK constraints state).2 = state := by
  unfold Database.query
  split
  · rfl
  · simp only [Retrieval.query]
    cases state.1.search text topK constraints <;> rfl

end ChunkStore
