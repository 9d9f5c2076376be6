import ChunkStore.Proofs.Engine.Alike
import ChunkStore.Proofs.Engine.Searching
import ChunkStore.Proofs.Engine.Waiting
import ChunkStore.Proofs.Query.Words

/-!
# Every chunk is found by its own words

The stop words of an engine are not stored with the index, so chunks are found by their words only
as long as an index is opened with the same stop words.  Then every entry was indexed in the way in
which queries are read, whatever was inserted and deleted, saved, closed and opened again: a word of
a chunk that is no stop word, and short enough to be indexed, finds the chunk if as many hits are
asked for as there are chunks.
-/

set_option autoImplicit false

namespace ChunkStore

open ChunkStore.Index (Entry isIndexed)
open ChunkStore.Text (IsMaximalRun lowerForm)

namespace Index.Entry

/-- A chunk is indexed under each word of its text, unless the word is a stop word or too long. -/
theorem exists_mem_words {stopWords : List String} {chunk : Chunk} {run : List Char}
    (hrun : IsMaximalRun run chunk.text.toList) (hstop : lowerForm run ∉ stopWords)
    (hindexed : isIndexed (lowerForm run) = true) :
    ∃ position, (position, lowerForm run) ∈ (ofChunk stopWords chunk).words := by
  obtain ⟨token, htoken, hword⟩ := Text.exists_mem_tokens hrun hstop
  have hwords : (ofChunk stopWords chunk).words =
      ((Text.tokens stopWords chunk.text).filter fun token => isIndexed token.word).map
        fun token => (0 + token.position, token.word) := rfl
  refine ⟨0 + token.position, ?_⟩
  rw [hwords, List.mem_map]
  refine ⟨token, List.mem_filter.2 ⟨htoken, ?_⟩, by rw [hword]⟩
  rw [hword]
  exact hindexed

end Index.Entry

namespace Engine

open ChunkStore.Index (Contents)

/-! ### How entries were indexed -/

/-- An engine has these stop words, and every entry that it has was indexed with them. -/
structure IndexesBy (engine : Engine) (words : List String) : Prop where
  stopWords : engine.stopWords = words
  entries : ∀ entry, engine.Holds entry → ∃ chunk, entry = .ofChunk words chunk

variable {engine engine' : Engine} {disk disk' : Disk} {stopWords : List String}

theorem IndexesBy.exists_eq_ofChunk (h : engine.IndexesBy stopWords) {entry : Entry}
    (hentry : entry ∈ engine.entries) : ∃ chunk, entry = .ofChunk stopWords chunk :=
  h.entries entry (.inl hentry)

theorem IndexesBy.mem_entries (h : engine.IndexesBy stopWords) {chunk : Chunk}
    (hlive : chunk ∈ engine.contents.chunks) : .ofChunk stopWords chunk ∈ engine.entries := by
  obtain ⟨entry, hentry, hdecodes⟩ := List.mem_filterMap.1 hlive
  obtain ⟨stored, rfl⟩ := h.exists_eq_ofChunk hentry
  rw [Entry.toChunk_ofChunk] at hdecodes
  obtain rfl := Option.some.inj hdecodes
  exact hentry

/-- There are as many chunks as entries. -/
theorem IndexesBy.length_chunks (h : engine.IndexesBy stopWords) :
    engine.contents.chunks.length = engine.entries.length := by
  apply List.filterMap_length_eq_length.2
  intro entry hentry
  obtain ⟨chunk, rfl⟩ := h.exists_eq_ofChunk hentry
  rw [Entry.toChunk_ofChunk]
  rfl

/-- A search for a word finds the chunks that have it, if as many hits are asked for as there are
chunks. -/
theorem IndexesBy.exists_mem_search (h : engine.IndexesBy stopWords) {chunk : Chunk}
    (hlive : chunk ∈ engine.contents.chunks) {run : List Char}
    (hrun : IsMaximalRun run chunk.text.toList) (hstop : lowerForm run ∉ stopWords)
    (hindexed : isIndexed (lowerForm run) = true) {limit : Nat}
    (hlimit : engine.contents.chunks.length ≤ limit) :
    ∃ hits, engine.search (String.ofList run) limit .empty = .ok hits ∧
      ∃ hit ∈ hits, hit.chunk = chunk := by
  have hentry := h.mem_entries hlive
  have hranking : (engine.ranking (String.ofList run)).length ≤ limit := by
    have hmost := engine.length_ranking_le (String.ofList run)
    have hlength := h.length_chunks
    omega
  obtain ⟨position, hposition⟩ := Entry.exists_mem_words hrun hstop hindexed
  have hsegments : Entry.ofChunk stopWords chunk ∈ (bySize engine.segments).flatten := by
    obtain ⟨segment, hsegment, hmem⟩ := List.mem_flatten.1 hentry
    exact List.mem_flatten.2 ⟨segment, List.mem_mergeSort.2 hsegment, hmem⟩
  obtain ⟨score, hscore⟩ := Query.exists_mem_rank_word hrun.toIsWord hstop hsegments hposition
  rw [← h.stopWords] at hscore
  have hdecodes : ∀ entry ∈ engine.entries, ∃ chunk, entry.toChunk = .ok chunk := by
    intro entry hentry
    obtain ⟨stored, rfl⟩ := h.exists_eq_ofChunk hentry
    exact ⟨stored, Entry.toChunk_ofChunk stopWords stored⟩
  obtain ⟨hits, hsearch, -⟩ := exists_search_eq_ok hdecodes (String.ofList run) limit .empty
  refine ⟨hits, hsearch, ⟨chunk, score⟩, ?_, rfl⟩
  rw [search_eq_scan] at hsearch
  obtain ⟨-, rfl⟩ := scan_eq_ok_iff.1 hsearch
  rw [List.take_of_length_le ((length_matching_le _ _).trans hranking)]
  exact mem_matching_iff.2 ⟨_, hscore, Entry.toChunk_ofChunk stopWords chunk, rfl, rfl⟩

/-! ### Every run -/

theorem Holds.of_rollback {entry : Entry} (h : engine.rollback.Holds entry) : engine.Holds entry :=
  h.of_contents rfl rfl

/-- What an engine has after a call is what it had before and chunks that it has indexed. -/
theorem holds_runEngine {command : HandleCommand} {entry : Entry}
    (h : (Handle.runEngine (engine, disk) command).2.1.Holds entry) :
    engine.Holds entry ∨ ∃ chunk, entry = .ofChunk engine.stopWords chunk := by
  cases command with
  | insert texts maps document docId requested =>
    have hcall : engine.insert texts maps document docId requested disk = _ := rfl
    rcases insert_cases hcall with ⟨-, hsame | hback, -⟩ | ⟨version, -, hnumbers⟩
    · exact .inl (hsame ▸ h)
    · exact .inl (hback ▸ h).of_rollback
    · refine (hnumbers.entries entry h).imp_right ?_
      rintro ⟨chunk, -, heq⟩
      exact ⟨chunk, heq⟩
  | delete docId keepLatest =>
    have hcall : engine.delete docId keepLatest disk = _ := rfl
    rcases delete_cases hcall with ⟨hsame | hback, -⟩ | ⟨-, -, -, -, hentries⟩
    · exact .inl (hsame ▸ h)
    · exact .inl (hback ▸ h).of_rollback
    · exact .inl (hentries entry h)
  | query text topK constraints =>
    rw [runEngine_query] at h
    exact .inl h
  | sources | versionsOf | save | path | close => exact .inl h

/-- A call that does not close an engine leaves its entries indexed alike. -/
theorem IndexesBy.runEngine (h : engine.IndexesBy stopWords) (hstored : engine.IsStored disk)
    {command : HandleCommand} (hcommand : command ≠ .close) :
    (Handle.runEngine (engine, disk) command).2.1.IndexesBy stopWords where
  stopWords := (hstored.runEngine hcommand).2.trans h.stopWords
  entries := by
    intro entry hentry
    rcases holds_runEngine hentry with hbefore | hnew
    · exact h.entries entry hbefore
    · rw [h.stopWords] at hnew
      exact hnew

/-- An engine that is opened has no entries but those of its index. -/
theorem IndexesBy.of_open {path : String} {settings : Settings} {contents : Contents}
    (h : ∀ entry ∈ contents.entries, ∃ chunk, entry = .ofChunk stopWords chunk)
    (hopen : Engine.open path settings disk = (.ok engine', disk'))
    (hwords : settings.stopWords = stopWords) (hcontents : engine'.contents = contents) :
    engine'.IndexesBy stopWords where
  stopWords := (stopWords_of_open hopen).trans hwords
  entries := by
    rintro entry (hentry | hwaits)
    · rw [hcontents] at hentry
      exact h entry hentry
    · rw [staged_of_open hopen] at hwaits
      exact absurd hwaits List.not_mem_nil

/-- The states that an engine and its disk can come to by any calls, from an index that is made
where none was, if this index and its copies are always opened with the same stop words. -/
inductive ReachableBy (stopWords : List String) : Engine → Disk → Prop where
  | opened {path : String} {settings : Settings} {disk after : Disk} {engine : Engine}
      (hwords : settings.stopWords = stopWords)
      (hopen : Engine.open path settings disk = (.ok engine, after))
      (hfresh : disk.nodes (descriptionOf engine.home) = none) : ReachableBy stopWords engine after
  | called {engine : Engine} {disk : Disk} {command : HandleCommand}
      (before : ReachableBy stopWords engine disk) (hcommand : command ≠ .close) :
      ReachableBy stopWords (Handle.runEngine (engine, disk) command).2.1
        (Handle.runEngine (engine, disk) command).2.2
  | reopened {engine engine' : Engine} {disk between after : Disk} {path : String}
      {settings : Settings} (before : ReachableBy stopWords engine disk)
      (huntouched : engine.Untouched (engine.close disk) between)
      (hwords : settings.stopWords = stopWords)
      (hopen : Engine.open path settings between = (.ok engine', after))
      (hhome : engine'.home = engine.home) : ReachableBy stopWords engine' after
  | copied {engine copy : Engine} {disk saved after : Disk} {path : String} {settings : Settings}
      (before : ReachableBy stopWords engine disk)
      (hsave : engine.save path disk = (.ok (), saved)) (hwords : settings.stopWords = stopWords)
      (hopen : Engine.open path settings saved = (.ok copy, after)) :
      ReachableBy stopWords copy after
  | meanwhile {engine : Engine} {disk after : Disk} (before : ReachableBy stopWords engine disk)
      (huntouched : engine.Untouched disk after) : ReachableBy stopWords engine after

theorem ReachableBy.isStored_and_indexesBy (h : ReachableBy stopWords engine disk) :
    engine.IsStored disk ∧ engine.IndexesBy stopWords := by
  induction h with
  | opened hwords hopen hfresh =>
    obtain ⟨hstored, hempty⟩ := isStored_of_open_fresh hopen hfresh
    exact ⟨hstored, .of_open (by simp [Contents.empty, Contents.entries]) hopen hwords hempty⟩
  | called _ hcommand ih => exact ⟨(ih.1.runEngine hcommand).1, ih.2.runEngine ih.1 hcommand⟩
  | reopened _ huntouched hwords hopen hhome ih =>
    obtain ⟨hstored, hcontents⟩ := isStored_of_reopen ih.1 huntouched hopen hhome
    exact ⟨hstored, .of_open (fun _ => ih.2.exists_eq_ofChunk) hopen hwords hcontents⟩
  | copied _ hsave hwords hopen ih =>
    obtain ⟨hstored, hcontents⟩ := isStored_of_open_saved ih.1 hsave hopen
    exact ⟨hstored, .of_open (fun _ => ih.2.exists_eq_ofChunk) hopen hwords hcontents⟩
  | meanwhile _ huntouched ih => exact ⟨ih.1.of_untouched huntouched, ih.2⟩

/-- Whatever was called, a search for a word of a chunk, without constraints and with as many hits
as there are chunks, finds the chunk: for every run of letters and digits in its text that cannot be
made longer, unless its lower-case form is a stop word or too long to be indexed. -/
theorem every_word_finds_its_chunk (h : ReachableBy stopWords engine disk) {chunk : Chunk}
    (hlive : chunk ∈ engine.contents.chunks) {run : List Char}
    (hrun : IsMaximalRun run chunk.text.toList) (hstop : lowerForm run ∉ stopWords)
    (hindexed : isIndexed (lowerForm run) = true) {limit : Nat}
    (hlimit : engine.contents.chunks.length ≤ limit) :
    ∃ hits, engine.search (String.ofList run) limit .empty = .ok hits ∧
      ∃ hit ∈ hits, hit.chunk = chunk :=
  h.isStored_and_indexesBy.2.exists_mem_search hlive hrun hstop hindexed hlimit

/-- An engine and its disk after a chunk was inserted whose first word gets longer in lower case. -/
def cityInserted : Engine × Disk :=
  (Handle.runEngine (newEngine .default, newDisk)
    (.insert ["İstanbul, 1923"] [.empty] "cities.txt" "cities" none)).2

theorem city_is_found_by_its_name :
    ReachableBy Settings.defaultStopWords cityInserted.1 cityInserted.2 ∧
      cityInserted.1.contents.chunks = [⟨0, "İstanbul, 1923", "cities.txt", "cities", 1, .empty⟩] ∧
      lowerForm "İstanbul".toList = "i\u0307stanbul" ∧
      ∃ hits, cityInserted.1.search "İstanbul" 1 .empty = .ok hits ∧
        ∃ hit ∈ hits, hit.chunk = ⟨0, "İstanbul, 1923", "cities.txt", "cities", 1, .empty⟩ := by
  have hopened : ReachableBy Settings.defaultStopWords (newEngine .default) newDisk :=
    .opened rfl (open_empty Settings.opens_default) rfl
  have hreachable : ReachableBy Settings.defaultStopWords cityInserted.1 cityInserted.2 :=
    hopened.called (by simp)
  have hchunks : cityInserted.1.contents.chunks =
      [⟨0, "İstanbul, 1923", "cities.txt", "cities", 1, .empty⟩] := by decide +kernel
  have hlower : lowerForm "İstanbul".toList = "i\u0307stanbul" := by decide +kernel
  have hletters : ("İstanbul".toList.all Text.isAlphanumeric) = true := by decide +kernel
  have hrun : IsMaximalRun "İstanbul".toList "İstanbul, 1923".toList := by
    refine ⟨⟨by simp, by simpa using hletters⟩, [], ", 1923".toList, by simp, by simp, ?_⟩
    intro c hc
    obtain rfl := Option.some.inj hc
    decide +kernel
  have hlive := hchunks ▸ List.mem_singleton_self _
  have hlimit : cityInserted.1.contents.chunks.length ≤ 1 := by
    rw [hchunks]
    exact Nat.le_refl 1
  have hstop : lowerForm "İstanbul".toList ∉ Settings.defaultStopWords := by decide +kernel
  have hindexed : isIndexed (lowerForm "İstanbul".toList) = true := by decide +kernel
  exact ⟨hreachable, hchunks, hlower,
    every_word_finds_its_chunk hreachable hlive hrun hstop hindexed hlimit⟩

end Engine

end ChunkStore
