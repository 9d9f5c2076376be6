import ChunkStore.Proofs.Index.Contents

/-!
# Calls that change an index come out whole or not at all

Insertions and deletions make a plan from the manifest and the stop words, and then stage and commit
what the plan says.  On an engine with nothing staged this settles what the index would hold: it is
committed to the disk and becomes what the engine holds, or the engine and the disk are as before.
Nothing is left staged either way, unless the chunk ids run out.
-/

set_option autoImplicit false

namespace ChunkStore.Engine

open ChunkStore.Index (Change Contents Entry Manifest)

/-- What the index of an engine holds. -/
abbrev contents (engine : Engine) : Contents :=
  ⟨engine.manifest, engine.segments⟩

/-- The engine after a commit. -/
def withContents (engine : Engine) (contents : Contents) : Engine :=
  { engine with manifest := contents.manifest, segments := contents.segments, staged := [] }

/-! ### Plans -/

/-- What a call comes to before the disk has its say: an answer at once, changes to stage when the
chunk ids run out, or changes to commit under a manifest. -/
inductive Plan where
  | answer (result : Except EngineFault Unit)
  | strand (changes : List Change)
  | commit (changes : List Change) (manifest : Manifest)

/-- Does what a plan says. -/
def carryOut (engine : Engine) (disk : Disk) : Plan → Except EngineFault Unit × Engine × Disk
  | .answer result => (result, engine, disk)
  | .strand changes => (.error .idsExhausted, (engine.stage changes disk).2, disk)
  | .commit changes manifest =>
    (engine.stage changes disk).2.commit (engine.stage changes disk).1 manifest disk

/-- The plan of an insertion. -/
def insertion (stopWords : List String) (manifest : Manifest) (texts : List String)
    (maps : List Metadata) (document docId : String) (requested : Option UInt32) : Plan :=
  if texts.length ≠ maps.length then .answer (.error (.countMismatch texts.length maps.length))
  else
    match manifest.resolveVersion docId requested with
    | .error fault => .answer (.error (.version fault))
    | .ok version =>
      let first := manifest.nextChunkId.toNat
      let next := first + texts.length
      let chunks := numberedChunks first document docId version texts maps
      let changes := (chunks.take (UInt64.size - first)).map fun chunk =>
        .add (.ofChunk stopWords chunk)
      if UInt64.size ≤ next then .strand changes
      else
        .commit changes
          { manifest.addVersion docId version document with nextChunkId := UInt64.ofNat next }

/-- The plan of a deletion. -/
def deletion (manifest : Manifest) (docId : String) (keepLatest : Bool) : Plan :=
  let known := (manifest.versionsOf docId).keys
  let doomed := if keepLatest then known.dropLast else known
  if doomed.isEmpty then .answer (.ok ())
  else
    .commit (doomed.map fun version => .removeKey (Index.versionKey docId version))
      (manifest.removeVersions docId doomed)

theorem insert_eq_carryOut (engine : Engine) (texts : List String) (maps : List Metadata)
    (document docId : String) (requested : Option UInt32) (disk : Disk) :
    engine.insert texts maps document docId requested disk =
      engine.carryOut disk
        (insertion engine.stopWords engine.manifest texts maps document docId requested) := by
  unfold insert insertion
  split
  · rfl
  · cases engine.manifest.resolveVersion docId requested with
    | error fault => rfl
    | ok version =>
      dsimp only
      split
      · rfl
      · rfl

theorem delete_eq_carryOut (engine : Engine) (docId : String) (keepLatest : Bool) (disk : Disk) :
    engine.delete docId keepLatest disk =
      engine.carryOut disk (deletion engine.manifest docId keepLatest) := by
  unfold delete deletion
  dsimp only
  split
  · split
    · rfl
    · rfl
  · split
    · rfl
    · rfl

namespace Plan

/-- The answer of a plan that is carried out, by whether the disk is in trouble. -/
def result (inTrouble : Bool) : Plan → Except EngineFault Unit
  | .answer result => result
  | .strand _ => .error .idsExhausted
  | .commit _ _ => if inTrouble then .error .rolledBack else .ok ()

/-- The manifest after a plan that is carried out. -/
def manifestAfter (before : Manifest) (inTrouble : Bool) : Plan → Manifest
  | .answer _ | .strand _ => before
  | .commit _ manifest => if inTrouble then before else manifest

end Plan

/-- What an insertion answers and records does not depend on the words that are indexed. -/
theorem insertion_stopWords (stopWords stopWords' : List String) (manifest : Manifest)
    (texts : List String) (maps : List Metadata) (document docId : String)
    (requested : Option UInt32) (inTrouble : Bool) :
    (insertion stopWords manifest texts maps document docId requested).result inTrouble =
        (insertion stopWords' manifest texts maps document docId requested).result inTrouble ∧
      (insertion stopWords manifest texts maps document docId requested).manifestAfter manifest
          inTrouble =
        (insertion stopWords' manifest texts maps document docId requested).manifestAfter manifest
          inTrouble := by
  unfold insertion
  split
  · exact ⟨rfl, rfl⟩
  · cases manifest.resolveVersion docId requested with
    | error fault => exact ⟨rfl, rfl⟩
    | ok version =>
      dsimp only
      split
      · exact ⟨rfl, rfl⟩
      · exact ⟨rfl, rfl⟩

/-! ### Settling -/

/-- What becomes of a call that would have the index hold something else. -/
def settle (engine : Engine) (after : Contents) (disk : Disk) :
    Except EngineFault Unit × Engine × Disk :=
  if disk.trouble.isSome then (.error .rolledBack, engine, disk)
  else
    match disk.publish engine.home engine.segments after.toCommit with
    | .ok disk => (.ok (), engine.withContents after, disk)
    | .error _ => (.error .rolledBack, engine, disk)

theorem rollback_eq_self {engine : Engine} (h : engine.staged = []) : engine.rollback = engine := by
  cases engine
  simp only at h
  subst h
  rfl

theorem rollback_stage {engine : Engine} (h : engine.staged = []) (changes : List Change)
    (disk : Disk) : (engine.stage changes disk).2.rollback = engine := by
  have hsame : (engine.stage changes disk).2.rollback = engine.rollback := rfl
  rw [hsame, rollback_eq_self h]

/-- Staging on an engine with nothing staged and committing settles the staged changes. -/
theorem commit_stage {engine : Engine} (h : engine.staged = []) (changes : List Change)
    (manifest : Manifest) (disk : Disk) :
    (engine.stage changes disk).2.commit (engine.stage changes disk).1 manifest disk =
      engine.settle ⟨manifest, Change.applyAll changes engine.segments⟩ disk := by
  unfold commit settle
  cases htrouble : disk.trouble with
  | some room =>
    -- A disk in trouble refuses the commit whether all changes were staged or not.
    simp only [Option.isSome_some, Bool.or_true, if_true]
    rw [rollback_stage h]
  | none =>
    have hstage : engine.stage changes disk = (true, { engine with staged := changes }) := by
      simp [stage, htrouble, h]
    rw [hstage]
    simp only [Bool.not_true, Option.isSome_none, Bool.or_self, Bool.false_eq_true, if_false]
    have hback : rollback { engine with staged := changes } = engine := rollback_eq_self h
    rw [hback]
    rfl

/-- What an insertion does. -/
theorem insert_eq {engine : Engine} (h : engine.staged = []) {texts : List String}
    {maps : List Metadata} {document docId : String} {requested : Option UInt32}
    (hids : engine.contents.insert engine.stopWords texts maps document docId requested ≠
      .error .idsExhausted) (disk : Disk) :
    engine.insert texts maps document docId requested disk =
      match engine.contents.insert engine.stopWords texts maps document docId requested with
      | .error fault => (.error fault, engine, disk)
      | .ok after => engine.settle after disk := by
  unfold Contents.insert at hids ⊢
  unfold insert
  dsimp only at hids ⊢
  split
  · rfl
  · next hcount =>
    rw [if_neg hcount] at hids
    cases hversion : engine.manifest.resolveVersion docId requested with
    | error fault => rfl
    | ok version =>
      simp only [hversion] at hids ⊢
      split
      · next hfull =>
        rw [if_pos hfull] at hids
        exact absurd rfl hids
      · next hroom =>
        have htake : (numberedChunks engine.manifest.nextChunkId.toNat document docId version
              texts maps).take (UInt64.size - engine.manifest.nextChunkId.toNat) =
            numberedChunks engine.manifest.nextChunkId.toNat document docId version texts maps := by
          apply List.take_of_length_le
          rw [Contents.length_numberedChunks]
          omega
        rw [htake, commit_stage h, List.map_map]
        rfl

/-- What a deletion does. -/
theorem delete_eq {engine : Engine} (h : engine.staged = []) (docId : String) (keepLatest : Bool)
    (disk : Disk) :
    engine.delete docId keepLatest disk =
      match engine.contents.delete docId keepLatest with
      | none => (.ok (), engine, disk)
      | some after => engine.settle after disk := by
  unfold delete Contents.delete Contents.doomed
  dsimp only
  generalize hdoomed : (if keepLatest = true then _ else _) = doomed
  split
  · rfl
  · rw [commit_stage h, List.map_map]
    rfl

end ChunkStore.Engine
