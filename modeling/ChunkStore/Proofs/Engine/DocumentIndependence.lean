import ChunkStore.Proofs.Engine.Alike
import ChunkStore.Proofs.Engine.History
import ChunkStore.Proofs.Index.Documents

/-!
# Documents are independent

A run of insertions and deletions on a new index does to each document what the calls that name it
would do if there were no others.  So two runs that have the same calls for each document, in
whatever order these are mixed, answer each call alike and end with the same documents; nothing but
the ids of the chunks tells the orders apart.
-/

set_option autoImplicit false

namespace ChunkStore

open ChunkStore.Index (Contents)

namespace HandleCommand

/-- The document that a command is to change. -/
def docId? : HandleCommand → Option String
  | .insert _ _ _ docId _ | .delete docId _ => some docId
  | _ => none

/-- Whether a command is to change a document. -/
def changes (docId : String) (command : HandleCommand) : Bool :=
  command.docId? = some docId

/-- The number of chunks that a command hands in. -/
def handedIn : HandleCommand → Nat
  | .insert texts .. => texts.length
  | _ => 0

theorem exists_docId?_of_isChange {command : HandleCommand} (h : command.isChange = true) :
    ∃ docId, command.docId? = some docId := by
  cases command with
  | insert texts maps document docId requested => exact ⟨docId, rfl⟩
  | delete docId keepLatest => exact ⟨docId, rfl⟩
  | _ => exact absurd h (by simp [isChange])

end HandleCommand

/-- Lists are the same up to order if they have the same members of each key in the same order. -/
theorem perm_of_filter_eq {α β : Type} [DecidableEq β] (key : α → β) {left right : List α}
    (h : ∀ b, left.filter (fun a => key a = b) = right.filter (fun a => key a = b)) :
    left.Perm right := by
  induction left generalizing right with
  | nil =>
    cases right with
    | nil => exact .nil
    | cons a right => exact absurd (h (key a)).symm (by simp)
  | cons a left ih =>
    have hfirst : right.filter (fun b => key b = key a) =
        a :: left.filter (fun b => key b = key a) := by
      rw [← h, List.filter_cons_of_pos (by simp)]
    obtain ⟨before, later, rfl, hbefore, -, -⟩ := List.filter_eq_cons_iff.1 hfirst
    refine ((ih ?_).cons a).trans List.perm_middle.symm
    intro b
    have hb := h b
    by_cases hkey : key a = b
    · subst hkey
      have hnone : before.filter (fun b => key b = key a) = [] :=
        List.filter_eq_nil_iff.2 hbefore
      simpa [List.filter_append, hnone] using hb
    · simpa [List.filter_append, hkey] using hb

namespace Index.Contents.Becomes

variable {stopWords : List String} {before after : Contents} {command : HandleCommand}

theorem isOrderly (h : before.Becomes stopWords command after) (horderly : before.IsOrderly) :
    after.IsOrderly := by
  cases h with
  | same => exact horderly
  | inserted hinsert => exact horderly.insert hinsert
  | deleted hdelete => exact horderly.delete hdelete

/-- A command leaves all documents but its own. -/
theorem sameDocument (h : before.Becomes stopWords command after) (horderly : before.IsOrderly)
    {docId : String} (hother : command.changes docId = false) :
    SameDocument docId before after := by
  have hne : ∀ own, command.docId? = some own → docId ≠ own := by
    rintro own hown rfl
    unfold HandleCommand.changes at hother
    rw [hown] at hother
    exact absurd hother (by simp)
  cases h with
  | same => exact .refl docId before
  | inserted hinsert => exact sameDocument_insert_of_ne hinsert (hne _ rfl)
  | deleted hdelete => exact sameDocument_delete_of_ne horderly hdelete (hne _ rfl)

end Index.Contents.Becomes

namespace Engine

/-- What came of a call: the answer, and the versions of its document that were not recorded before
it. -/
structure Outcome where
  command : HandleCommand
  answer : Answer
  recorded : List UInt32

/-- The number of chunks that a call inserts. -/
def Outcome.inserted (outcome : Outcome) : Nat :=
  match outcome.answer with
  | .done => outcome.command.handedIn
  | _ => 0

/-- Makes a call and notes what came of it. -/
def outcome (state : Engine × Disk) (command : HandleCommand) : Outcome where
  command := command
  answer := (Handle.runEngine state command).1
  recorded := match command.docId? with
    | some docId => ((Handle.runEngine state command).2.1.versionsOf docId).filter fun version =>
      version ∉ state.1.versionsOf docId
    | none => []

/-- What came of calls that are made one after another. -/
def outcomes : List HandleCommand → Engine × Disk → List Outcome
  | [], _ => []
  | command :: rest, state =>
    outcome state command :: outcomes rest (Handle.runEngine state command).2

/-- The engine and its disk after calls that are made one after another. -/
def afterAll (commands : List HandleCommand) (state : Engine × Disk) : Engine × Disk :=
  commands.foldl (fun state command => (Handle.runEngine state command).2) state

/-- What came of the calls that are to change a document. -/
def outcomesOf (docId : String) (seen : List Outcome) : List Outcome :=
  seen.filter fun outcome => outcome.command.changes docId

/-- The number of chunks that calls hand in. -/
def allHandedIn (commands : List HandleCommand) : Nat :=
  (commands.map HandleCommand.handedIn).sum

/-- An engine on a new index. -/
def IsNew (state : Engine × Disk) : Prop :=
  ∃ path settings disk, Engine.open path settings disk = (.ok state.1, state.2) ∧
    disk.nodes (descriptionOf state.1.home) = none

/-- An engine that is stored on its disk, has nothing staged and an orderly index, and has ids for
some number of chunks. -/
structure HasRoom (state : Engine × Disk) (number : Nat) : Prop where
  stored : state.1.IsStored state.2
  idle : state.1.staged = []
  orderly : state.1.contents.IsOrderly
  room : state.1.manifest.nextChunkId.toNat + number < UInt64.size

/-- Two engines hold the same of a document, with their disks in the same trouble. -/
structure HoldSame (docId : String) (left right : Engine × Disk) : Prop where
  trouble : right.2.trouble = left.2.trouble
  document : Contents.SameDocument docId left.1.contents right.1.contents

variable {left right state : Engine × Disk} {command : HandleCommand} {docId : String}
  {number : Nat}

/-! ### One call -/

theorem runEngine_insert (state : Engine × Disk) (texts : List String) (maps : List Metadata)
    (document docId : String) (requested : Option UInt32) :
    Handle.runEngine state (.insert texts maps document docId requested) =
      (.ofFallible (state.1.insert texts maps document docId requested state.2).1,
        (state.1.insert texts maps document docId requested state.2).2) :=
  rfl

theorem runEngine_delete (state : Engine × Disk) (docId : String) (keepLatest : Bool) :
    Handle.runEngine state (.delete docId keepLatest) =
      (.ofFallible (state.1.delete docId keepLatest state.2).1,
        (state.1.delete docId keepLatest state.2).2) :=
  rfl

/-- Settling is refused on both of two engines or goes through on both. -/
theorem HoldSame.settle (h : HoldSame docId left right) (hleft : left.1.IsStored left.2)
    (hright : right.1.IsStored right.2) {after after' : Contents}
    (hsame : Contents.SameDocument docId after after') :
    (left.1.settle after left.2).1 = (right.1.settle after' right.2).1 ∧
      Contents.SameDocument docId (left.1.settle after left.2).2.1.contents
        (right.1.settle after' right.2).2.1.contents := by
  rcases settle_outcome hleft after with ⟨hsome, hsettle⟩ | ⟨hnone, _, hsettle⟩
  · rcases settle_outcome hright after' with ⟨-, hsettle'⟩ | ⟨hnone', -⟩
    · rw [hsettle, hsettle']
      exact ⟨rfl, h.document⟩
    · rw [h.trouble, hsome] at hnone'
      exact absurd hnone' (by simp)
  · rcases settle_outcome hright after' with ⟨hsome', -⟩ | ⟨-, _, hsettle'⟩
    · rw [h.trouble, hnone] at hsome'
      exact absurd hsome' (by simp)
    · rw [hsettle, hsettle']
      exact ⟨rfl, hsame⟩

/-- A call takes as many ids as it inserts chunks. -/
theorem toNat_nextChunkId_runEngine (h : HasRoom state (command.handedIn + number))
    (hchange : command.isChange = true) :
    (Handle.runEngine state command).2.1.manifest.nextChunkId.toNat =
      state.1.manifest.nextChunkId.toNat + (outcome state command).inserted := by
  have hroom := h.room
  cases command with
  | insert texts maps document docId requested =>
    have hfits : state.1.manifest.nextChunkId.toNat + texts.length < UInt64.size := by
      simp only [HandleCommand.handedIn] at hroom
      omega
    have hids : (state.1.insert texts maps document docId requested state.2).1 ≠
        .error .idsExhausted :=
      insert_ne_idsExhausted hfits
    cases hinsert : state.1.insert texts maps document docId requested state.2 with
    | mk result after =>
      rw [hinsert] at hids
      rw [runEngine_insert, hinsert]
      unfold Outcome.inserted outcome
      dsimp only
      rw [runEngine_insert, hinsert]
      rcases insert_inv h.idle hinsert hids with ⟨⟨fault, rfl⟩, hengine, -⟩ |
        ⟨rfl, contents, hcontents, hengine, -⟩
      · rw [hengine]
        rfl
      · obtain ⟨_, -, -, -, hmanifest, -⟩ := Contents.insert_inv hcontents
        rw [hengine]
        show contents.manifest.nextChunkId.toNat = _
        rw [hmanifest]
        exact UInt64.toNat_ofNat_of_lt' hfits
  | delete docId keepLatest =>
    have hnothing : (outcome state (.delete docId keepLatest)).inserted = 0 := by
      unfold Outcome.inserted
      split
      · rfl
      · rfl
    cases hdelete : state.1.delete docId keepLatest state.2 with
    | mk result after =>
      rw [hnothing, runEngine_delete, hdelete]
      rcases delete_inv h.idle hdelete with ⟨hengine, -⟩ | ⟨-, contents, hcontents, hengine, -⟩
      · rw [hengine]
        rfl
      · rw [hengine]
        show contents.manifest.nextChunkId.toNat = _
        rw [(Contents.delete_inv hcontents).1]
        rfl
  | _ => exact absurd hchange (by simp [HandleCommand.isChange])

theorem outcome_inserted_le (state : Engine × Disk) (command : HandleCommand) :
    (outcome state command).inserted ≤ command.handedIn := by
  unfold Outcome.inserted
  split
  · exact Nat.le_refl _
  · exact Nat.zero_le _

/-- All that a call can do to what an engine holds. -/
theorem HasRoom.becomes (h : HasRoom state (command.handedIn + number))
    (hchange : command.isChange = true) :
    (Handle.runEngine state command).2.1.IsStored (Handle.runEngine state command).2.2 ∧
      (Handle.runEngine state command).2.1.staged = [] ∧
      state.1.contents.Becomes state.1.stopWords command
        (Handle.runEngine state command).2.1.contents := by
  have hopen : command ≠ .close := by
    rintro rfl
    exact absurd hchange (by simp [HandleCommand.isChange])
  have hids := runEngine_ne_idsExhausted state.1 state.2 ⟨command, .done, []⟩ (by
    have hroom := h.room
    show state.1.manifest.nextChunkId.toNat + command.handedIn < UInt64.size
    omega)
  obtain ⟨hstored, hidle, -, -, hbecomes⟩ := runEngine_inv h.stored h.idle rfl hopen hids
  exact ⟨hstored, hidle, hbecomes⟩

/-- After a call there is room for what is still to come. -/
theorem HasRoom.runEngine (h : HasRoom state (command.handedIn + number))
    (hchange : command.isChange = true) : HasRoom (Handle.runEngine state command).2 number := by
  obtain ⟨hstored, hidle, hbecomes⟩ := h.becomes hchange
  refine ⟨hstored, hidle, hbecomes.isOrderly h.orderly, ?_⟩
  have hroom := h.room
  have hnext := toNat_nextChunkId_runEngine h hchange
  have hle := outcome_inserted_le state command
  omega

/-- A call to change a document is answered by what is held of it, and makes the same of it. -/
theorem HoldSame.answer_and_document {number' : Nat} (h : HoldSame docId left right)
    (hleft : HasRoom left (command.handedIn + number))
    (hright : HasRoom right (command.handedIn + number')) (hown : command.changes docId = true) :
    (Handle.runEngine left command).1 = (Handle.runEngine right command).1 ∧
      Contents.SameDocument docId (Handle.runEngine left command).2.1.contents
        (Handle.runEngine right command).2.1.contents := by
  have hroom := hleft.room
  have hroom' := hright.room
  cases command with
  | insert texts maps document own requested =>
    obtain rfl : own = docId := Option.some.inj (of_decide_eq_true hown)
    simp only [HandleCommand.handedIn] at hroom hroom'
    have hfits : left.1.manifest.nextChunkId.toNat + texts.length < UInt64.size := by omega
    have hfits' : right.1.manifest.nextChunkId.toNat + texts.length < UInt64.size := by omega
    rw [runEngine_insert, runEngine_insert]
    rcases h.document.insert left.1.stopWords right.1.stopWords maps document requested hfits
        hfits' with
      ⟨fault, hfault, hinsert, hinsert'⟩ | ⟨after, after', hinsert, hinsert', hsame⟩
    · rw [insert_eq hleft.idle (by rw [hinsert]; simpa using hfault),
        insert_eq hright.idle (by rw [hinsert']; simpa using hfault), hinsert, hinsert']
      exact ⟨rfl, h.document⟩
    · rw [insert_eq hleft.idle (by rw [hinsert]; simp),
        insert_eq hright.idle (by rw [hinsert']; simp), hinsert, hinsert']
      obtain ⟨hresult, hdocument⟩ := h.settle hleft.stored hright.stored hsame
      exact ⟨congrArg Answer.ofFallible hresult, hdocument⟩
  | delete own keepLatest =>
    obtain rfl : own = docId := Option.some.inj (of_decide_eq_true hown)
    rw [runEngine_delete, runEngine_delete, delete_eq hleft.idle, delete_eq hright.idle]
    rcases h.document.delete hleft.orderly hright.orderly keepLatest with
      ⟨hdelete, hdelete'⟩ | ⟨after, after', hdelete, hdelete', hsame⟩
    · rw [hdelete, hdelete']
      exact ⟨rfl, h.document⟩
    · rw [hdelete, hdelete']
      obtain ⟨hresult, hdocument⟩ := h.settle hleft.stored hright.stored hsame
      exact ⟨congrArg Answer.ofFallible hresult, hdocument⟩
  | _ => exact absurd hown (by simp [HandleCommand.changes, HandleCommand.docId?])

/-- A call that is made on both sides has one outcome, and leaves the same of its document. -/
theorem HoldSame.runEngine {number' : Nat} (h : HoldSame docId left right)
    (hleft : HasRoom left (command.handedIn + number))
    (hright : HasRoom right (command.handedIn + number')) (hown : command.changes docId = true) :
    outcome left command = outcome right command ∧
      HoldSame docId (Handle.runEngine left command).2 (Handle.runEngine right command).2 := by
  obtain ⟨hanswer, hdocument⟩ := h.answer_and_document hleft hright hown
  have hdocId : command.docId? = some docId := of_decide_eq_true hown
  refine ⟨?_, ?_, hdocument⟩
  · have hbefore : left.1.versionsOf docId = right.1.versionsOf docId :=
      congrArg Dict.keys h.document.versions
    have hafter : (Handle.runEngine left command).2.1.versionsOf docId =
        (Handle.runEngine right command).2.1.versionsOf docId :=
      congrArg Dict.keys hdocument.versions
    unfold outcome
    rw [hanswer, hdocId]
    dsimp only
    rw [hbefore, hafter]
  · rw [trouble_runEngine, trouble_runEngine]
    exact h.trouble

/-- A call that is made on one side only, and not to the document, leaves the same of it. -/
theorem HoldSame.runEngine_left (h : HoldSame docId left right)
    (hleft : HasRoom left (command.handedIn + number)) (hchange : command.isChange = true)
    (hother : command.changes docId = false) :
    HoldSame docId (Handle.runEngine left command).2 right := by
  obtain ⟨-, -, hbecomes⟩ := hleft.becomes hchange
  refine ⟨?_, (hbecomes.sameDocument hleft.orderly hother).symm.trans h.document⟩
  rw [trouble_runEngine]
  exact h.trouble

/-! ### Runs -/

theorem allHandedIn_cons (command : HandleCommand) (commands : List HandleCommand) :
    allHandedIn (command :: commands) = command.handedIn + allHandedIn commands :=
  List.sum_cons

theorem outcomesOf_cons (docId : String) (first : Outcome) (rest : List Outcome) :
    outcomesOf docId (first :: rest) =
      if first.command.changes docId = true then first :: outcomesOf docId rest
      else outcomesOf docId rest :=
  List.filter_cons

/-- A run does to a document what the calls that are to change it would do without the others. -/
theorem HoldSame.run {commands : List HandleCommand} (h : HoldSame docId left right)
    (hleft : HasRoom left (allHandedIn commands))
    (hright : HasRoom right (allHandedIn (commands.filter (HandleCommand.changes docId))))
    (hchanges : ∀ command ∈ commands, command.isChange = true) :
    outcomesOf docId (outcomes commands left) =
        outcomes (commands.filter (HandleCommand.changes docId)) right ∧
      HoldSame docId (afterAll commands left)
        (afterAll (commands.filter (HandleCommand.changes docId)) right) := by
  induction commands generalizing left right with
  | nil => exact ⟨rfl, h⟩
  | cons command commands ih =>
    obtain ⟨hchange, hrest⟩ := List.forall_mem_cons.1 hchanges
    rw [allHandedIn_cons] at hleft
    cases hown : command.changes docId with
    | true =>
      rw [List.filter_cons_of_pos hown] at hright ⊢
      rw [allHandedIn_cons] at hright
      obtain ⟨houtcome, hafter⟩ := h.runEngine hleft hright hown
      obtain ⟨houtcomes, hlast⟩ :=
        ih hafter (hleft.runEngine hchange) (hright.runEngine hchange) hrest
      refine ⟨?_, hlast⟩
      have howner : (outcome left command).command.changes docId = true := hown
      unfold outcomes
      rw [outcomesOf_cons, if_pos howner, houtcome, houtcomes]
    | false =>
      rw [List.filter_cons_of_neg (by simp [hown])] at hright ⊢
      obtain ⟨houtcomes, hlast⟩ :=
        ih (h.runEngine_left hleft hchange hown) (hleft.runEngine hchange) hright hrest
      refine ⟨?_, hlast⟩
      have howner : ¬(outcome left command).command.changes docId = true := by
        show ¬command.changes docId = true
        simp [hown]
      rw [← houtcomes]
      show outcomesOf docId (outcome left command :: outcomes commands _) = _
      rw [outcomesOf_cons, if_neg howner]

/-- The next id counts the chunks that were inserted. -/
theorem HasRoom.run {commands : List HandleCommand} (h : HasRoom state (allHandedIn commands))
    (hchanges : ∀ command ∈ commands, command.isChange = true) :
    HasRoom (afterAll commands state) 0 ∧
      (afterAll commands state).1.manifest.nextChunkId.toNat =
        state.1.manifest.nextChunkId.toNat +
          ((outcomes commands state).map Outcome.inserted).sum := by
  induction commands generalizing state with
  | nil => exact ⟨h, rfl⟩
  | cons command commands ih =>
    obtain ⟨hchange, hrest⟩ := List.forall_mem_cons.1 hchanges
    rw [allHandedIn_cons] at h
    obtain ⟨hroom, hnext⟩ := ih (h.runEngine hchange) hrest
    refine ⟨hroom, ?_⟩
    unfold outcomes
    rw [List.map_cons, List.sum_cons, ← Nat.add_assoc, ← toNat_nextChunkId_runEngine h hchange]
    exact hnext

theorem map_command_outcomes (commands : List HandleCommand) (state : Engine × Disk) :
    (outcomes commands state).map Outcome.command = commands := by
  induction commands generalizing state with
  | nil => rfl
  | cons command commands ih =>
    unfold outcomes
    rw [List.map_cons, ih]
    rfl

theorem allHandedIn_filter_le (p : HandleCommand → Bool) (commands : List HandleCommand) :
    allHandedIn (commands.filter p) ≤ allHandedIn commands :=
  (List.filter_sublist.map _).sum_le_sum fun _ _ => Nat.zero_le _

/-! ### Runs with the same calls for each document -/

/-- Calls that change documents are the same up to order if they are the same for each document. -/
theorem perm_of_changes {α : Type} (command : α → HandleCommand) {left right : List α}
    (hleft : ∀ a ∈ left, (command a).isChange = true)
    (hright : ∀ a ∈ right, (command a).isChange = true)
    (hsame : ∀ docId, left.filter (fun a => (command a).changes docId) =
      right.filter fun a => (command a).changes docId) : left.Perm right := by
  apply perm_of_filter_eq fun a => (command a).docId?
  intro docId?
  cases docId? with
  | some docId => exact hsame docId
  | none =>
    have hnone : ∀ list : List α, (∀ a ∈ list, (command a).isChange = true) →
        list.filter (fun a => (command a).docId? = none) = [] := by
      intro list hlist
      rw [List.filter_eq_nil_iff]
      intro a hmem
      obtain ⟨docId, hdocId⟩ := HandleCommand.exists_docId?_of_isChange (hlist a hmem)
      simp [hdocId]
    rw [hnone left hleft, hnone right hright]

theorem isChange_of_mem_outcomes {commands : List HandleCommand}
    (hchanges : ∀ command ∈ commands, command.isChange = true) :
    ∀ outcome ∈ outcomes commands state, outcome.command.isChange = true := by
  intro outcome hmem
  apply hchanges
  rw [← map_command_outcomes commands state]
  exact List.mem_map_of_mem hmem

/-- Runs with the same outcomes for each document insert the same number of chunks. -/
theorem sum_inserted_eq {first second : Engine × Disk} {commands commands' : List HandleCommand}
    (hleft : ∀ command ∈ commands, command.isChange = true)
    (hright : ∀ command ∈ commands', command.isChange = true)
    (hsame : ∀ docId, outcomesOf docId (outcomes commands first) =
      outcomesOf docId (outcomes commands' second)) :
    ((outcomes commands first).map Outcome.inserted).sum =
      ((outcomes commands' second).map Outcome.inserted).sum :=
  have hperm : (outcomes commands first).Perm (outcomes commands' second) :=
    perm_of_changes Outcome.command (isChange_of_mem_outcomes hleft)
      (isChange_of_mem_outcomes hright) hsame
  (hperm.map _).sum_eq

theorem IsNew.hasRoom (h : IsNew state) (hnumber : number < UInt64.size) :
    HasRoom state number ∧ state.1.contents = .empty := by
  obtain ⟨path, settings, disk, hopen, hfresh⟩ := h
  obtain ⟨hstored, hcontents⟩ := isStored_of_open_fresh hopen hfresh
  refine ⟨⟨hstored, staged_of_open hopen, ?_, ?_⟩, hcontents⟩
  · rw [hcontents]
    exact Contents.isOrderly_empty
  · have hmanifest : state.1.manifest = .empty := congrArg Contents.manifest hcontents
    rw [hmanifest]
    simpa [Index.Manifest.empty] using hnumber

/-- What two engines have in common whose indexes differ in nothing but the ids of chunks: the
sources, the versions of each document, the next chunk id, and, in the order of ids, the chunks of
each document version. -/
structure SameDocuments (first second : Engine) : Prop where
  sources : first.sources = second.sources
  versionsOf : ∀ docId, first.versionsOf docId = second.versionsOf docId
  nextChunkId : first.manifest.nextChunkId = second.manifest.nextChunkId
  ascending : ∀ engine ∈ [first, second], ∀ docId version,
    (engine.contents.chunksOfVersion docId version).Pairwise fun chunk later => chunk.id < later.id
  chunks : ∀ docId version,
    (first.contents.chunksOfVersion docId version).map Chunk.unnumbered =
      (second.contents.chunksOfVersion docId version).map Chunk.unnumbered

/-- Two runs of insertions and deletions on new indexes whose disks are in the same trouble, if any,
with fewer chunks than there are ids and with the same calls for each document in the same order:
each call has the same outcome in both, and the indexes differ in nothing but the ids of their
chunks in the end. -/
theorem documents_are_independent {first second : Engine × Disk}
    {commands commands' : List HandleCommand} (hfirst : IsNew first) (hsecond : IsNew second)
    (htrouble : second.2.trouble = first.2.trouble)
    (hchanges : ∀ command ∈ commands ++ commands', command.isChange = true)
    (hsame : ∀ docId, commands.filter (HandleCommand.changes docId) =
      commands'.filter (HandleCommand.changes docId))
    (hroom : allHandedIn commands < UInt64.size) :
    (∀ docId, outcomesOf docId (outcomes commands first) =
        outcomesOf docId (outcomes commands' second)) ∧
      SameDocuments (afterAll commands first).1 (afterAll commands' second).1 := by
  obtain ⟨hleft, hright⟩ := List.forall_mem_append.1 hchanges
  have hperm : commands.Perm commands' := perm_of_changes id hleft hright hsame
  have hroom' : allHandedIn commands' < UInt64.size := by
    have hsum : allHandedIn commands = allHandedIn commands' := (hperm.map _).sum_eq
    omega
  have hfilter : ∀ docId,
      allHandedIn (commands.filter (HandleCommand.changes docId)) < UInt64.size :=
    fun docId => Nat.lt_of_le_of_lt (allHandedIn_filter_le _ commands) hroom
  have hempty : first.1.contents = .empty := (hfirst.hasRoom hroom).2
  have hempty' : second.1.contents = .empty := (hsecond.hasRoom hroom').2
  have hbegin : ∀ docId, HoldSame docId first first := fun docId => ⟨rfl, .refl docId _⟩
  have hbegin' : ∀ docId, HoldSame docId second first := by
    intro docId
    refine ⟨htrouble.symm, ?_⟩
    rw [hempty, hempty']
    exact .refl docId _
  have halone' : ∀ docId,
      HasRoom first (allHandedIn (commands'.filter (HandleCommand.changes docId))) := by
    intro docId
    rw [← hsame docId]
    exact (hfirst.hasRoom (hfilter docId)).1
  -- Both runs do to a document what its calls alone do on the first index.
  have hrun := fun docId =>
    (hbegin docId).run (hfirst.hasRoom hroom).1 (hfirst.hasRoom (hfilter docId)).1 hleft
  have hrun' := fun docId =>
    (hbegin' docId).run (hsecond.hasRoom hroom').1 (halone' docId) hright
  have houtcomes : ∀ docId, outcomesOf docId (outcomes commands first) =
      outcomesOf docId (outcomes commands' second) := by
    intro docId
    rw [(hrun docId).1, (hrun' docId).1, hsame docId]
  have hdocument : ∀ docId, Contents.SameDocument docId (afterAll commands first).1.contents
      (afterAll commands' second).1.contents := by
    intro docId
    have hlast := (hrun' docId).2.document
    rw [← hsame docId] at hlast
    exact (hrun docId).2.document.trans hlast.symm
  obtain ⟨hafter, hnext⟩ := (hfirst.hasRoom hroom).1.run hleft
  obtain ⟨hafter', hnext'⟩ := (hsecond.hasRoom hroom').1.run hright
  refine ⟨houtcomes, ?_, ?_, ?_, ?_, ?_⟩
  · exact hafter.orderly.hasNoEmpty.sources_eq hafter'.orderly.hasNoEmpty
      fun docId => (hdocument docId).versions
  · intro docId
    exact congrArg Dict.keys (hdocument docId).versions
  · have hinserted := sum_inserted_eq hleft hright houtcomes
    have hstart : first.1.manifest = second.1.manifest :=
      congrArg Contents.manifest (hempty.trans hempty'.symm)
    apply UInt64.toNat_inj.1
    rw [hnext, hnext', hstart, hinserted]
  · intro engine hmem docId version
    rcases List.mem_cons.1 hmem with rfl | hmem
    · exact hafter.orderly.ascending_chunksOfVersion docId version
    · rw [List.mem_singleton.1 hmem]
      exact hafter'.orderly.ascending_chunksOfVersion docId version
  · exact fun docId version => (hdocument docId).chunksOfVersion version

/-- Two documents, the first of which is inserted, deleted and inserted again before the second. -/
def oneAfterAnother : List HandleCommand :=
  [.insert ["one"] [.empty] "a.txt" "a" none, .delete "a" false,
    .insert ["two", "three"] [.empty, .empty] "a.txt" "a" none,
    .insert ["four"] [.empty] "b.txt" "b" (some 7), .insert ["five"] [.empty] "b.txt" "b" (some 7)]

/-- The same calls for each document, but mixed. -/
def mixed : List HandleCommand :=
  [.insert ["four"] [.empty] "b.txt" "b" (some 7), .insert ["one"] [.empty] "a.txt" "a" none,
    .insert ["five"] [.empty] "b.txt" "b" (some 7), .delete "a" false,
    .insert ["two", "three"] [.empty, .empty] "a.txt" "a" none]

/-- Mixing the calls for two documents tells in the ids of the chunks, and in nothing else. -/
theorem mixed_calls_tell_in_ids_only :
    ((∀ docId, outcomesOf docId (outcomes oneAfterAnother (newEngine .default, newDisk)) =
        outcomesOf docId (outcomes mixed (newEngine .default, newDisk))) ∧
      SameDocuments (afterAll oneAfterAnother (newEngine .default, newDisk)).1
        (afterAll mixed (newEngine .default, newDisk)).1) ∧
      (afterAll oneAfterAnother (newEngine .default, newDisk)).1.sources =
        [⟨"a.txt", "a", 1⟩, ⟨"b.txt", "b", 7⟩] ∧
      (afterAll oneAfterAnother (newEngine .default, newDisk)).1.contents.chunks.map
        (fun chunk => (chunk.id, chunk.text)) = [(1, "two"), (2, "three"), (3, "four")] ∧
      (afterAll mixed (newEngine .default, newDisk)).1.contents.chunks.map
        (fun chunk => (chunk.id, chunk.text)) = [(0, "four"), (2, "two"), (3, "three")] := by
  have hnew : IsNew (newEngine .default, newDisk) :=
    ⟨".", .default, .empty, open_empty Settings.opens_default, rfl⟩
  have hsame : ∀ docId, oneAfterAnother.filter (HandleCommand.changes docId) =
      mixed.filter (HandleCommand.changes docId) := by
    intro docId
    by_cases ha : "a" = docId
    · subst ha
      rfl
    · by_cases hb : "b" = docId
      · subst hb
        rfl
      · simp [oneAfterAnother, mixed, HandleCommand.changes, HandleCommand.docId?, ha, hb]
  exact ⟨documents_are_independent hnew hnew rfl (by decide) hsame (by decide), by decide +kernel,
    by decide +kernel, by decide +kernel⟩

end Engine

end ChunkStore
