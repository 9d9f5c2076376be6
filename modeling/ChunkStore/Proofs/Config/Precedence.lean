import ChunkStore.Config.Basic
import ChunkStore.Proofs.Config.Documents
import Mathlib

/-!
# Precedence of layers

What a configuration has at a key is up to one of its layers, the last one that has a value there or
something else than a table on the way.  Layers before it add to a table at most, and layers behind
it change nothing.  The files of stages that are not selected have no say at all.
-/

set_option autoImplicit false

namespace ChunkStore.Config

/-! ### Keys -/

/-- Parts that make a dotted key. -/
structure IsPath (path : List String) : Prop where
  ne_nil : path ≠ []
  part_ne : ∀ part ∈ path, part ≠ ""
  not_mem : ∀ part ∈ path, '.' ∉ part.toList

/-- The dotted key of some parts. -/
def dotted (path : List String) : String :=
  String.ofList (Text.join '.' (path.map String.toList))

/-! ### Layers -/

/-- All tables in one, each over the one before. -/
def mergeAll (tables : List Table) : Value :=
  .table (tables.foldl Value.mergeTables [])

/-- The last layer that decides at a row of keys. -/
structure IsLastDeciding (layers : List Table) (path : List String) (layer : Table) : Prop where
  decides : (Value.table layer).Decides path
  last : ∃ earlier later, layers = earlier ++ layer :: later ∧
    ∀ other ∈ later, ¬(Value.table other).Decides path

/-- What is read at a key is what there is to decode. -/
def Reads (config : Config) (key : String) (value : Value) : Prop :=
  config.contains key = true ∧ ∀ (α : Type) (decode : Value → Except Mismatch α),
    config.get key decode =
      (decode value).mapError fun mismatch => lookUpFailure key mismatch.message

/-- There is nothing to read at a key. -/
def Lacks (config : Config) (key : String) : Prop :=
  config.contains key = false ∧ ∀ (α : Type) (decode : Value → Except Mismatch α),
    config.get key decode = .error (lookUpFailure key ("missing field \x60" ++ key ++ "\x60"))

/-- What is read at a key is up to the last layer that decides there. -/
structure AnswersBy (config : Config) (key : String) (layers : List Table) (path : List String) :
    Prop where
  value : ∀ layer found, IsLastDeciding layers path layer →
    (Value.table layer).find? path = some found → ¬found.IsTable → config.Reads key found
  table : ∀ layer found, IsLastDeciding layers path layer →
    (Value.table layer).find? path = some found → found.IsTable →
      ∃ merged, merged.IsTable ∧ config.Reads key merged
  blocked : ∀ layer, IsLastDeciding layers path layer → (Value.table layer).Blocks path →
    config.Lacks key
  undecided : (∀ layer ∈ layers, ¬(Value.table layer).Decides path) → config.Lacks key

/-- Surroundings that differ in the files of other stages at most. -/
structure AgreesFor (stage : Stage) (surroundings others : Surroundings) : Prop where
  environment : others.environment = surroundings.environment
  file? : ∀ name, (∀ other : Stage, other ≠ stage → name ≠ other.fileName) →
    others.file? name = surroundings.file? name

variable {config : Config} {tables earlier later : List Table} {key : String} {value : Value}
  {path : List String}

/-! ### Dotted keys -/

theorem split_of_not_mem {separator : Char} {part : List Char} (h : separator ∉ part) :
    Text.split separator part = [part] := by
  induction part with
  | nil => rfl
  | cons c part ih =>
    rw [List.mem_cons, not_or] at h
    rw [Text.split, if_neg (Ne.symm h.1), ih h.2]

theorem split_append_cons {separator : Char} {part : List Char} (h : separator ∉ part)
    (rest : List Char) : Text.split separator (part ++ separator :: rest) =
      part :: Text.split separator rest := by
  induction part with
  | nil => rw [List.nil_append, Text.split, if_pos rfl]
  | cons c part ih =>
    rw [List.mem_cons, not_or] at h
    rw [List.cons_append, Text.split, if_neg (Ne.symm h.1), ih h.2]

/-- Parts that are joined are found again. -/
theorem split_join {separator : Char} {parts : List (List Char)} (hne : parts ≠ [])
    (h : ∀ part ∈ parts, separator ∉ part) :
    Text.split separator (Text.join separator parts) = parts := by
  induction parts with
  | nil => exact absurd rfl hne
  | cons part parts ih =>
    obtain ⟨hhead, htail⟩ := List.forall_mem_cons.1 h
    cases parts with
    | nil => exact split_of_not_mem hhead
    | cons next parts =>
      have hjoin : Text.join separator (part :: next :: parts) =
          part ++ separator :: Text.join separator (next :: parts) := rfl
      rw [hjoin, split_append_cons hhead, ih (List.cons_ne_nil next parts) htail]

theorem keysOf_dotted (h : IsPath path) : keysOf (dotted path) = path := by
  have hparts : Text.split '.' (dotted path).toList = path.map String.toList := by
    unfold dotted
    rw [String.toList_ofList]
    apply split_join
    · exact fun hnil => h.ne_nil (List.map_eq_nil_iff.1 hnil)
    · exact List.forall_mem_map.2 h.not_mem
  have hkept : (path.map String.toList).filter (fun part => !part.isEmpty) =
      path.map String.toList := by
    rw [List.filter_eq_self, List.forall_mem_map]
    intro part hpart
    simpa using h.part_ne part hpart
  unfold keysOf
  rw [hparts]
  split
  · next rest heq =>
    have hmem : [] ∈ path.map String.toList := by
      rw [heq]
      exact List.mem_cons_self
    obtain ⟨part, hpart, hnil⟩ := List.mem_map.1 hmem
    exact absurd (String.toList_eq_nil_iff.1 hnil) (h.part_ne part hpart)
  · rw [hkept, List.map_map]
    exact (List.map_congr_left fun part _ => String.ofList_toList).trans (List.map_id path)

/-! ### Layers in one -/

theorem mergeAll_concat (tables : List Table) (table : Table) :
    mergeAll (tables ++ [table]) = Value.overlay (some (mergeAll tables)) (.table table) := by
  unfold mergeAll
  rw [List.foldl_append]
  rfl

theorem malformed_or_readable (layers : List (Option Table)) :
    none ∈ layers ∨ ∃ tables : List Table, layers = tables.map some := by
  induction layers with
  | nil => exact .inr ⟨[], rfl⟩
  | cons layer layers ih =>
    cases layer with
    | none => exact .inl List.mem_cons_self
    | some table =>
      rcases ih with hmem | ⟨tables, rfl⟩
      · exact .inl (List.mem_cons_of_mem _ hmem)
      · exact .inr ⟨table :: tables, rfl⟩

theorem merged?_of_malformed (h : none ∈ config.layers) : config.merged? = none := by
  obtain ⟨layers⟩ := config
  unfold merged?
  dsimp only at h ⊢
  generalize ([] : Table) = before
  induction layers generalizing before with
  | nil => exact absurd h (by simp)
  | cons layer layers ih =>
    cases layer with
    | none => rfl
    | some table => exact ih ((List.mem_cons.1 h).resolve_left (by simp)) _

theorem merged?_of_readable (h : config.layers = tables.map some) :
    config.merged? = some (mergeAll tables) := by
  unfold merged? mergeAll
  rw [h]
  clear h
  dsimp only
  generalize ([] : Table) = before
  induction tables generalizing before with
  | nil => rfl
  | cons table tables ih => exact ih _

/-- Layers that do not decide change nothing. -/
theorem find?_mergeAll_append (hordered : ∀ table ∈ later, (Value.table table).IsOrdered)
    (h : ∀ table ∈ later, ¬(Value.table table).Decides path) :
    (mergeAll (earlier ++ later)).find? path = (mergeAll earlier).find? path := by
  induction later generalizing earlier with
  | nil => rw [List.append_nil]
  | cons table later ih =>
    obtain ⟨hordered, horderedLater⟩ := List.forall_mem_cons.1 hordered
    obtain ⟨hhead, hlater⟩ := List.forall_mem_cons.1 h
    have hstep : earlier ++ table :: later = (earlier ++ [table]) ++ later := by simp
    rw [hstep, ih horderedLater hlater, mergeAll_concat,
      Value.find?_overlay_of_not_decides hordered hhead]
    rfl

theorem reads_of_find? (hmerged : config.merged? = some value) {found : Value}
    (hfind : value.find? (keysOf key) = some found) : config.Reads key found := by
  constructor
  · unfold contains
    rw [hmerged, Option.bind_some, hfind]
    rfl
  · intro α decode
    unfold get
    rw [hmerged]
    dsimp only
    rw [hfind]

theorem lacks_of_find? (hmerged : config.merged? = some value)
    (hfind : value.find? (keysOf key) = none) : config.Lacks key := by
  constructor
  · unfold contains
    rw [hmerged, Option.bind_some, hfind]
    rfl
  · intro α decode
    unfold get
    rw [hmerged]
    dsimp only
    rw [hfind]

/-- The layers up to the last one that decides have the say. -/
theorem IsLastDeciding.find?_mergeAll {layers : List Table} {layer : Table}
    (h : IsLastDeciding layers path layer)
    (hordered : ∀ table ∈ layers, (Value.table table).IsOrdered) :
    ∃ earlier, (mergeAll layers).find? path =
      (Value.overlay (some (mergeAll earlier)) (.table layer)).find? path := by
  obtain ⟨-, earlier, later, rfl, hlater⟩ := h
  refine ⟨earlier, ?_⟩
  have hsplit : earlier ++ layer :: later = (earlier ++ [layer]) ++ later := by simp
  rw [hsplit] at hordered ⊢
  rw [find?_mergeAll_append (List.forall_mem_append.1 hordered).2 hlater, mergeAll_concat]

/-- The layers of a configuration answer for it. -/
theorem answersBy (hlayers : config.layers = tables.map some)
    (hordered : ∀ table ∈ tables, (Value.table table).IsOrdered) (hpath : path ≠ [])
    (hkey : keysOf key = path) : AnswersBy config key tables path := by
  have hmerged := merged?_of_readable hlayers
  subst hkey
  have hlayer : ∀ layer, IsLastDeciding tables (keysOf key) layer →
      (Value.table layer).IsOrdered := by
    rintro layer ⟨-, earlier, later, rfl, -⟩
    exact hordered layer (by simp)
  refine ⟨?_, ?_, ?_, ?_⟩
  · intro layer found hlast hfind hfound
    obtain ⟨earlier, hmergeAll⟩ := hlast.find?_mergeAll hordered
    apply reads_of_find? hmerged
    rw [hmergeAll, Value.find?_overlay_of_find?_eq (hlayer layer hlast) hfind,
      Value.overlay_of_not_isTable _ hfound]
  · intro layer found hlast hfind hfound
    obtain ⟨earlier, hmergeAll⟩ := hlast.find?_mergeAll hordered
    rw [Value.find?_overlay_of_find?_eq (hlayer layer hlast) hfind] at hmergeAll
    exact ⟨_, Value.isTable_overlay _ hfound, reads_of_find? hmerged hmergeAll⟩
  · intro layer hlast hblocks
    obtain ⟨earlier, hmergeAll⟩ := hlast.find?_mergeAll hordered
    apply lacks_of_find? hmerged
    rw [hmergeAll]
    exact (hblocks.overlay (hlayer layer hlast) _).find?_eq_none
  · intro hnone
    apply lacks_of_find? hmerged
    obtain ⟨key, rest, hcons⟩ := List.exists_cons_of_ne_nil hpath
    rw [← List.nil_append tables, find?_mergeAll_append hordered hnone, hcons]
    rfl

/-! ### Stages -/

variable {surroundings others : Surroundings} {stage : Stage}

theorem AgreesFor.ofStage_eq (h : AgreesFor stage surroundings others) :
    ofStage others stage = ofStage surroundings stage := by
  have hbase : others.file? "ndb.toml" = surroundings.file? "ndb.toml" :=
    h.file? _ fun other _ => by cases other <;> decide
  have hstaged : others.file? stage.fileName = surroundings.file? stage.fileName := by
    apply h.file?
    intro other hother
    revert hother
    cases stage <;> cases other <;> decide
  unfold ofStage fileLayer
  rw [hbase, hstaged, h.environment]

theorem isOrdered_of_fileLayer {name : String} {table : Table}
    (h : fileLayer surroundings name = some table) : (Value.table table).IsOrdered := by
  unfold fileLayer at h
  split at h
  · obtain rfl := Option.some.inj h
    exact Value.isOrdered_empty
  · exact Toml.isOrdered_of_ofText? h

theorem answersBy_ofStage {base staged : Table}
    (hbase : fileLayer surroundings "ndb.toml" = some base)
    (hstaged : fileLayer surroundings stage.fileName = some staged) (hpath : IsPath path) :
    AnswersBy (ofStage surroundings stage) (dotted path)
      [base, staged, Environment.table surroundings.environment] path := by
  refine answersBy ?_ ?_ hpath.ne_nil (keysOf_dotted hpath)
  · unfold ofStage
    rw [hbase, hstaged]
    rfl
  · simp only [List.forall_mem_cons, List.not_mem_nil, false_implies, implies_true, and_true]
    exact ⟨isOrdered_of_fileLayer hbase, isOrdered_of_fileLayer hstaged,
      Environment.isOrdered_table _⟩

/-- With both files of a stage readable, what is read at a key is up to the last of them and the
environment that has a value there or something else than a table on the way.  The files of other
stages make no difference. -/
theorem last_deciding_layer_answers {name : String} (hstage : Stage.ofName? name = some stage)
    (surroundings : Surroundings) :
    ∃ config, loadFor surroundings name = .ok config ∧
      (∀ base staged, fileLayer surroundings "ndb.toml" = some base →
        fileLayer surroundings stage.fileName = some staged → ∀ path, IsPath path →
          AnswersBy config (dotted path)
            [base, staged, Environment.table surroundings.environment] path) ∧
      (∀ others, AgreesFor stage surroundings others → loadFor others name = .ok config) ∧
      ((surroundings.environment.lookup "NDB_ENV").getD "dev" = name →
        ∀ others, AgreesFor stage surroundings others → load others = .ok config) := by
  have hload : ∀ others, AgreesFor stage surroundings others →
      loadFor others name = .ok (ofStage surroundings stage) := by
    intro others hagrees
    unfold loadFor
    rw [hstage]
    exact congrArg Except.ok hagrees.ofStage_eq
  refine ⟨ofStage surroundings stage, hload surroundings ⟨rfl, fun _ _ => rfl⟩, ?_, hload, ?_⟩
  · intro base staged hbase hstaged path hpath
    exact answersBy_ofStage hbase hstaged hpath
  · rintro rfl others hagrees
    unfold load
    rw [hagrees.environment]
    exact hload others hagrees

/-- Three files, one of them malformed, and two variables. -/
def deployed : Surroundings where
  file? := fun name =>
    [("ndb.toml", "[engine]\nwriter_threads = 2\n[log]\nlevel = 1\n"),
      ("ndb.prod.toml", "engine = 5\n"), ("ndb.dev.toml", "[")].lookup name
  environment := [("NDB_ENGINE__WRITER_THREADS", "8"), ("NDB_ENV", "prod")]

theorem deployed_answers_by_layers : ∃ config, load deployed = .ok config ∧
    config.get "engine.writer_threads" Value.asUInt32 = .ok 8 ∧
    config.get "log.level" Value.asUInt32 = .ok 1 ∧ config.Lacks "engine.name" := by
  have hbase : fileLayer deployed "ndb.toml" =
      some [("engine", .table [("writer_threads", .signed 2)]),
        ("log", .table [("level", .signed 1)])] := by
    cbv
  have hstaged : fileLayer deployed "ndb.prod.toml" = some [("engine", .signed 5)] := by
    cbv
  have henvironment : Environment.table deployed.environment =
      [("engine", .table [("writer_threads", .unsigned 8)])] := by
    cbv
  have hstage : Stage.ofName? "prod" = some .production := rfl
  have hsigned : ∀ n, ¬(Value.signed n).IsTable := by
    rintro n ⟨entries, ⟨⟩⟩
  have hunsigned : ∀ n, ¬(Value.unsigned n).IsTable := by
    rintro n ⟨entries, ⟨⟩⟩
  obtain ⟨config, -, hanswers, -, hload⟩ := last_deciding_layer_answers hstage deployed
  have hanswers := hanswers _ _ hbase hstaged
  rw [henvironment] at hanswers
  refine ⟨config, hload (by decide) deployed ⟨rfl, fun _ _ => rfl⟩, ?_, ?_, ?_⟩
  · have hreads := (hanswers ["engine", "writer_threads"] ⟨by decide, by decide, by decide⟩).value
      [("engine", .table [("writer_threads", .unsigned 8)])] (.unsigned 8)
      ⟨.inl ⟨.unsigned 8, rfl⟩, [_, _], [], rfl, List.forall_mem_nil _⟩ rfl (hunsigned 8)
    exact hreads.2 _ Value.asUInt32
  · have hlater : ∀ other ∈ [[("engine", Value.signed 5)],
        [("engine", .table [("writer_threads", .unsigned 8)])]],
        ¬(Value.table other).Decides ["log", "level"] := by
      simp only [List.forall_mem_cons]
      exact ⟨Value.not_decides_cons rfl _, Value.not_decides_cons rfl _, List.forall_mem_nil _⟩
    have hreads := (hanswers ["log", "level"] ⟨by decide, by decide, by decide⟩).value _
      (.signed 1) ⟨.inl ⟨.signed 1, rfl⟩, [], _, rfl, hlater⟩ rfl (hsigned 1)
    exact hreads.2 _ Value.asUInt32
  · have hlater : ∀ other ∈ [[("engine", Value.table [("writer_threads", .unsigned 8)])]],
        ¬(Value.table other).Decides ["engine", "name"] := by
      rw [List.forall_mem_singleton]
      intro hdecides
      obtain ⟨inner, hinner, hdecides⟩ := Value.decides_cons_iff.1 hdecides
      obtain rfl := Option.some.inj hinner
      exact Value.not_decides_cons rfl _ hdecides
    have hblocks : (Value.table [("engine", .signed 5)]).Blocks ["engine", "name"] :=
      ⟨["engine"], .signed 5, ⟨["name"], rfl⟩, by decide, rfl, hsigned 5⟩
    exact (hanswers ["engine", "name"] ⟨by decide, by decide, by decide⟩).blocked _
      ⟨.inr hblocks, [_], _, rfl, hlater⟩ hblocks

end ChunkStore.Config
