import ChunkStore.Proofs.Boundary.Runs
import ChunkStore.Proofs.Index.Listing

/-!
# What is handed over comes back

Throughout a run in which everything enters through the boundary, the results of a query give back
what was staged for their chunks, and no text that is to be handed out has a null byte in it.
-/

set_option autoImplicit false

namespace ChunkStore.Boundary

open CString

/-- The results that a call left at `target` give back chunks of a lineage under their ids, as long
as they are there. -/
def GivesBack (lineage : Lineage) (target : String) (after : State) : Prop :=
  ∃ size : Nat,
    (∀ later : State, later.results.find? target = after.results.find? target →
      Reads later (.resultsSize (some target)) (.number size)) ∧
    ∀ index < size, ∃ id item, (id, item) ∈ lineage ∧
      ∀ later : State, later.results.find? target = after.results.find? target →
        ReadsItem later (some target) index id item

/-- Whether a call makes a collection of texts that are to be handed out. -/
def Call.collects : Call → Bool
  | .query .. | .resultMetadata .. | .listSources .. => true
  | _ => false

/-- A failure because a text has a null byte in it. -/
def IsNullByteFailure (failure : Failure) : Prop :=
  ∃ what, failure = .query (what ++ " contains a NUL byte")

variable {trace : List Step} {ledger : Ledger} {start state : State}

theorem givesBack_of_find? {lineage : Lineage} {target : String} {after : State} {results : Results}
    (hfind : after.results.find? target = some results) (hitems : ∀ hit ∈ results.hits, ∃ item,
      (hit.chunk.id.toNat, item) ∈ lineage ∧ IsItem hit.chunk item) :
    GivesBack lineage target after := by
  refine ⟨results.size, ?_, ?_⟩
  · intro later hlater
    rw [hfind] at hlater
    exact Prod.ext (congrArg Except.ok (sizeOf_of_find? hlater Results.size)) rfl
  · intro index hindex
    have hhit : results.hits[index]? = some results.hits[index] := List.getElem?_eq_getElem hindex
    obtain ⟨item, hmem, hitem⟩ := hitems _ (List.getElem_mem hindex)
    refine ⟨_, item, hmem, ?_⟩
    intro later hlater
    rw [hfind] at hlater
    exact hitem.reads hlater hhit

/-! ### Failures of the calls that hand out texts -/

theorem not_isNullByteFailure_invalidArgument (description : String) :
    ¬IsNullByteFailure (.invalidArgument description) := by
  rintro ⟨what, h⟩
  exact absurd h (by simp)

theorem getLast?_append_numeral (start : String) (n : Nat) :
    (start ++ Numeral.text n).toList.getLast? = (Numeral.digits n).getLast? := by
  rw [String.toList_append, Numeral.text, String.toList_ofList,
    List.getLast?_append_of_ne_nil _ (Numeral.digits_ne_nil n)]

/-- The failure of a score ends in a digit. -/
theorem not_isNullByteFailure_scoreFailure (hit : Hit) :
    ¬IsNullByteFailure (Results.scoreFailure hit) := by
  rintro ⟨what, h⟩
  have hdigits := getLast?_append_numeral
    ("engine returned score " ++ hit.score.nonFiniteText ++ " for chunk ") hit.chunk.id.toNat
  have hbyte : (what ++ " contains a NUL byte").toList.getLast? = some 'e' := by
    rw [String.toList_append, List.getLast?_append_of_ne_nil _ (by decide)]
    decide
  rw [Failure.query.inj h, hbyte] at hdigits
  exact absurd (Numeral.isDigit_of_mem_digits (List.mem_of_getLast? hdigits.symm)) (by decide)

/-- A listing is refused at its arguments only. -/
theorem invalidArgument_of_listSources (h : Rooted trace state) {target : String}
    {database : Pointer} {failure : Failure}
    (hfailed : (perform state (.listSources target database)).1 = .error failure) :
    ∃ description, failure = .invalidArgument description := by
  rcases bind_eq_error_iff.1 (settle_eq_error_iff.1 hfailed) with
    hdatabase | ⟨⟨name, engine⟩, hdatabase, hfailed⟩
  · exact invalidArgument_of_object hdatabase
  · obtain ⟨-, hfind⟩ := object_eq_ok_iff.1 hdatabase
    obtain ⟨lineage, hdescends⟩ := h.engines name engine hfind
    have hcheck : checkListing (Source.sort engine.sources) = .ok (Source.sort engine.sources) := by
      apply checkListing_eq_ok
      intro source hsource
      have hname := Index.Manifest.mem_sources_iff.1 (Source.mem_sort.1 hsource)
      exact hdescends.faithful.names source.docId source.version source.document hname
    have hsources : (Database.sources (engine, state.disk)).1 =
        .ok (Source.sort engine.sources) := rfl
    simp only [bind, Except.bind, hsources, hcheck] at hfailed
    exact absurd hfailed (by simp [pure, Except.pure])

/-- The metadata of a result is refused at the arguments only. -/
theorem atArguments_of_resultMetadata (h : Backed state) {target : String} {results : Pointer}
    {index : Nat} {failure : Failure}
    (hfailed : (perform state (.resultMetadata target results index)).1 = .error failure) :
    (∃ description, failure = .invalidArgument description) ∨
      ∃ length, failure = .indexOutOfRange index length := by
  rcases bind_eq_error_iff.1 (settle_eq_error_iff.1 hfailed) with
    hresults | ⟨⟨name, found⟩, hresults, hfailed⟩
  · exact .inl (invalidArgument_of_object hresults)
  · obtain ⟨-, hfind⟩ := object_eq_ok_iff.1 hresults
    cases hhit : found.hits[index]? with
    | none =>
      have hmetadata : found.metadataOf index = .error (.indexOutOfRange index found.size) := by
        unfold Results.metadataOf Results.get
        rw [hhit]
        rfl
      simp only [bind, Except.bind, hmetadata] at hfailed
      exact .inr ⟨found.size, (Except.error.inj hfailed).symm⟩
    | some hit =>
      obtain ⟨item, hitem⟩ := h name found hfind hit (List.mem_of_getElem? hhit)
      have hmetadata : found.metadataOf index = .ok hit.chunk.metadata :=
        map_eq_ok_iff.2 ⟨hit, get_eq_ok hhit, rfl⟩
      have hcheck := checkMetadata_eq_ok hitem.metadata
      simp only [bind, Except.bind, hmetadata, hcheck] at hfailed
      exact absurd hfailed (by simp [pure, Except.pure])

/-- A call that makes a collection never fails because of a null byte. -/
theorem Upheld.not_isNullByteFailure (h : Upheld trace ledger state) {call : Call}
    (hcollects : call.collects = true) {failure : Failure}
    (hfailed : (perform state call).1 = .error failure) : ¬IsNullByteFailure failure := by
  cases call with
  | query target database text topK constraints =>
    rcases h.rooted.query_outcome database text topK constraints with
      ⟨name, engine, lineage, results, -, -, hquery, -⟩ | ⟨description, hquery⟩ | ⟨hit, hquery⟩
    · rw [perform_query hquery] at hfailed
      exact absurd hfailed (by simp)
    · rw [perform_query_of_error hquery] at hfailed
      obtain rfl := Except.error.inj hfailed
      exact not_isNullByteFailure_invalidArgument description
    · rw [perform_query_of_error hquery] at hfailed
      obtain rfl := Except.error.inj hfailed
      exact not_isNullByteFailure_scoreFailure hit
  | listSources target database =>
    obtain ⟨description, rfl⟩ := invalidArgument_of_listSources h.rooted hfailed
    exact not_isNullByteFailure_invalidArgument description
  | resultMetadata target results index =>
    rcases atArguments_of_resultMetadata h.backed hfailed with ⟨description, rfl⟩ | ⟨length, rfl⟩
    · exact not_isNullByteFailure_invalidArgument description
    · rintro ⟨what, heq⟩
      exact absurd heq (by simp)
  | _ => exact absurd hcollects (by simp [Call.collects])

/-- In a run in which everything enters through the boundary, every result of every query that
succeeds gives back the text, the document name, the document id and the metadata that were staged
for the chunk of its id, and the version under which the chunk was inserted; unless the ids run out,
they are the numbers from zero on, so each stands for one chunk.  And no query, listing or reading
of metadata fails because of a null byte. -/
theorem queries_give_back_what_was_staged (hrun : Run start trace ledger state)
    (hstart : start.IsFresh) :
    (∀ target database text topK constraints after,
      perform state (.query target database text topK constraints) = (.ok .handle, after) →
        ∃ name engine lineage, state.database database = .ok (name, engine) ∧
          Descends trace lineage engine ∧
          ((∀ step ∈ trace, ¬step.RanOut) →
            lineage.map Prod.fst = List.range lineage.length) ∧
          GivesBack lineage target after) ∧
      ∀ call, call.collects = true → ∀ failure, (perform state call).1 = .error failure →
        ¬IsNullByteFailure failure := by
  have hupheld := hrun.upheld hstart
  refine ⟨?_, fun call hcollects failure hfailed => hupheld.not_isNullByteFailure hcollects hfailed⟩
  intro target database text topK constraints after hquery
  rcases hupheld.rooted.query_outcome database text topK constraints with
    ⟨name, engine, lineage, results, hdatabase, hdescends, hresults, hitems⟩ |
      ⟨description, hfailed⟩ | ⟨hit, hfailed⟩
  · rw [perform_query hresults] at hquery
    obtain rfl := (Prod.mk.inj hquery).2
    refine ⟨name, engine, lineage, hdatabase, hdescends,
      fun hroom => (hdescends.counted hroom).ids, givesBack_of_find? ?_ hitems⟩
    show (state.results.insert target results).find? target = some results
    rw [Dict.find?_insert, if_pos rfl]
  · rw [perform_query_of_error hfailed] at hquery
    exact absurd (Prod.mk.inj hquery).1 (by simp)
  · rw [perform_query_of_error hfailed] at hquery
    exact absurd (Prod.mk.inj hquery).1 (by simp)

/-! ### A first document -/

theorem Reads.unique {call : Call} {returned returned' : Returned}
    (h : Reads state call returned) (h' : (perform state call).1 = .ok returned') :
    returned = returned' := by
  rw [h] at h'
  exact Except.ok.inj h'

theorem ReadsText.eq_ofText {call : Call} {name : CString} {text : String}
    (h : ReadsText state call name) (h' : (perform state call).1 = .ok (.text text)) :
    name = ofText text := by
  obtain ⟨s, hreads, hspells⟩ := h
  obtain rfl := Returned.text.inj (hreads.unique h')
  exact hspells.eq_ofText

/-- A key that is read off a metadata list was set, and what is read with it is its value. -/
theorem ReadsMetadata.exists_value {list : Pointer} {sent : SentMetadata} {size : Int}
    {index : Nat} {key : String} (h : ReadsMetadata state list sent)
    (hsize : (perform state (.metadataSize list)).1 = .ok (.number size))
    (hindex : (index : Int) < size)
    (hkey : (perform state (.metadataKey list index)).1 = .ok (.text key)) :
    ∃ value, sent (ofText key) = some value ∧
      ReadsEntry state list index (ofText key, value) := by
  obtain ⟨entries, -, hentries, hlength, hreads⟩ := h
  have hcount := Returned.number.inj (hlength.unique hsize)
  have hthere : index < entries.length := by omega
  have hentry := hreads index _ (List.getElem?_eq_getElem hthere)
  have hname := hentry.key.eq_ofText hkey
  refine ⟨entries[index].2, (hentries _ _).1 ?_, ?_⟩
  · rw [← hname]
    exact List.getElem_mem hthere
  · rw [← hname]
    exact hentry

/-- The calls that stage a document with one chunk and insert it. -/
def firstCalls : List Call :=
  let text (s : String) : RawText := some (bytesOf s)
  [.newDocument "draft" (text "a.txt") (text "a"), .addChunk (some "draft") (text "alpha"),
    .setMetadata (some "draft") 0 (text "color") (.text (text "blue")),
    .setMetadata (some "draft") 0 (text "size") (.float ⟨0x8000000000000000⟩),
    .openDatabase "database" (text "."), .insert (some "database") (some "draft")]

/-- What is answered to a query that finds the chunk, and the state after it. -/
def firstQuery : Except Failure Returned × State :=
  perform (replay .empty firstCalls).2.2
    (.query "hits" (some "database") (some (bytesOf "text:[alpha TO beta]")) 5 none)

/-- What is answered when the metadata of the first result is asked for, and the state after it. -/
def firstMetadata : Except Failure Returned × State :=
  perform firstQuery.2 (.resultMetadata "list" (some "hits") 0)

theorem firstQuery_reads :
    firstQuery.1 = .ok .handle ∧
      (perform firstQuery.2 (.resultsSize (some "hits"))).1 = .ok (.number 1) ∧
      (perform firstQuery.2 (.resultField (some "hits") 0 .id)).1 = .ok (.number 0) ∧
      (perform firstQuery.2 (.resultField (some "hits") 0 .text)).1 = .ok (.text "alpha") ∧
      (perform firstQuery.2 (.resultField (some "hits") 0 .document)).1 = .ok (.text "a.txt") ∧
      (perform firstQuery.2 (.resultField (some "hits") 0 .docId)).1 = .ok (.text "a") ∧
      (perform firstQuery.2 (.resultField (some "hits") 0 .version)).1 = .ok (.number 1) := by
  decide +kernel

theorem firstMetadata_reads :
    (perform firstMetadata.2 (.metadataSize (some "list"))).1 = .ok (.number 2) ∧
      (perform firstMetadata.2 (.metadataKey (some "list") 0)).1 = .ok (.text "color") ∧
      (perform firstMetadata.2 (.metadataKind (some "list") 0)).1 = .ok (.number 3) ∧
      (perform firstMetadata.2 (.metadataValue (some "list") 0 .str)).1 = .ok (.text "blue") ∧
      (perform firstMetadata.2 (.metadataKey (some "list") 1)).1 = .ok (.text "size") ∧
      (perform firstMetadata.2 (.metadataKind (some "list") 1)).1 = .ok (.number 2) ∧
      (perform firstMetadata.2 (.metadataValue (some "list") 1 .float)).1 =
        .ok (.float ⟨0x8000000000000000⟩) := by
  decide +kernel

/-- The chunk that was staged, as it was handed over: its text, the name and id of its document, the
first version, and both of its metadata values. -/
def IsFirstItem (item : Item) : Prop :=
  item.text = ofText "alpha" ∧ item.name = ofText "a.txt" ∧ item.docId = ofText "a" ∧
    item.version.toNat = 1 ∧
    item.metadata (ofText "color") = some (.text (ofText "blue")) ∧
    item.metadata (ofText "size") = some (.float ⟨0x8000000000000000⟩)

theorem isFirstItem_of_readsItem {id : Nat} {item : Item}
    (h : ReadsItem firstQuery.2 (some "hits") 0 id item) : id = 0 ∧ IsFirstItem item := by
  obtain ⟨-, -, hid, htext, hname, hdocId, hversion⟩ := firstQuery_reads
  obtain ⟨hsize, hcolor, hcolorKind, hblue, hsizeKey, hsizeKind, hzero⟩ := firstMetadata_reads
  obtain ⟨after, hmetadata, hreads⟩ := h.metadata "list"
  have hafter : firstMetadata.2 = after := congrArg Prod.snd hmetadata
  have hlist := hreads firstMetadata.2 (by rw [hafter])
  obtain ⟨color, hcolorSent, hcolorEntry⟩ := hlist.exists_value hsize (by decide) hcolor
  obtain ⟨size, hsizeSent, hsizeEntry⟩ := hlist.exists_value hsize (by decide) hsizeKey
  have hcolorValue : color = .text (ofText "blue") := by
    have hkind := hcolorEntry.kind.unique hcolorKind
    have hvalue := hcolorEntry.value
    cases color with
    | text s => exact congrArg _ (hvalue.eq_ofText hblue)
    | bool | int | float => exact absurd hkind (by simp [SentValue.kind, Metadata.Kind.tag])
  have hsizeValue : size = .float ⟨0x8000000000000000⟩ := by
    have hkind := hsizeEntry.kind.unique hsizeKind
    have hvalue := hsizeEntry.value
    cases size with
    | float x => exact congrArg _ (Returned.float.inj (hvalue.unique hzero))
    | bool | int | text => exact absurd hkind (by simp [SentValue.kind, Metadata.Kind.tag])
  have hnumber := Returned.number.inj (h.id.unique hid)
  have hversionNumber := Returned.number.inj (h.version.unique hversion)
  refine ⟨by exact_mod_cast hnumber, h.text.eq_ofText htext, h.name.eq_ofText hname,
    h.docId.eq_ofText hdocId, by exact_mod_cast hversionNumber, ?_, ?_⟩
  · rw [hcolorSent, hcolorValue]
  · rw [hsizeSent, hsizeValue]

/-- The query finds the chunk, and what is read of its result is what was staged. -/
theorem first_document_is_given_back :
    (∀ step ∈ (replay .empty firstCalls).1, ¬step.RanOut) ∧
      firstQuery.1 = .ok .handle ∧ Reads firstQuery.2 (.resultsSize (some "hits")) (.number 1) ∧
      ∃ lineage item, lineage.map Prod.fst = List.range lineage.length ∧
        GivesBack lineage "hits" firstQuery.2 ∧ (0, item) ∈ lineage ∧ IsFirstItem item ∧
        ReadsItem firstQuery.2 (some "hits") 0 0 item := by
  have hroom : ∀ step ∈ (replay .empty firstCalls).1, ¬step.RanOut := by decide +kernel
  obtain ⟨hquery, hone, -⟩ := firstQuery_reads
  obtain ⟨hgiven, -⟩ :=
    queries_give_back_what_was_staged (run_replay .empty firstCalls) isFresh_empty
  obtain ⟨name, engine, lineage, -, -, hids, hback⟩ := hgiven _ _ _ _ _ _ (Prod.ext hquery rfl)
  obtain ⟨size, hsize, hitems⟩ := hback
  have hread := hsize firstQuery.2 rfl
  obtain rfl : size = 1 := by exact_mod_cast Returned.number.inj (hread.unique hone)
  obtain ⟨id, item, hmem, hitem⟩ := hitems 0 Nat.one_pos
  have hfirst := hitem firstQuery.2 rfl
  obtain ⟨rfl, hstaged⟩ := isFirstItem_of_readsItem hfirst
  exact ⟨hroom, hquery, hread, lineage, item, hids hroom, ⟨1, hsize, hitems⟩, hmem, hstaged, hfirst⟩

end ChunkStore.Boundary
