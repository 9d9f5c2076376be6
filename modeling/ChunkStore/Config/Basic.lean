import ChunkStore.Config.Decode
import ChunkStore.Config.Environment
import ChunkStore.Config.Toml.Reader
import ChunkStore.Failure

/-!
# Configurations

A configuration is merged from layers: the file `ndb.toml`, the file of the selected stage, and the
environment, each over the one before.  A file that is not there is an empty layer; a malformed one
makes every look-up fail.  `get` looks a dotted key up, and `getOrDefault` has a default for keys
that are not there, but not for values that do not fit.
-/

set_option autoImplicit false

namespace ChunkStore

/-- The layers of a configuration, the lowest first; `none` is a malformed one. -/
structure Config where
  layers : List (Option Config.Table)

namespace Config

/-- All layers in one, unless one is malformed. -/
def merged? (config : Config) : Option Value :=
  let add (table : Table) (layer : Option Table) : Option Table :=
    layer.map (Value.mergeTables table)
  (config.layers.foldlM add []).map Value.table

/-- What a failed look-up says. -/
def lookUpFailure (key reason : String) : Failure :=
  .invalidConfig ("failed to get '" ++ key ++ "': " ++ reason)

/-- The reason why nothing can be read from a malformed layer. -/
def malformedReason : String :=
  "TOML parse error"

/-- Whether there is a value at a key. -/
def contains (config : Config) (key : String) : Bool :=
  (config.merged?.bind (·.find? (keysOf key))).isSome

/-- The value at a key, as what `decode` takes it for. -/
def get {α : Type} (config : Config) (key : String) (decode : Value → Except Mismatch α) :
    Except Failure α :=
  match config.merged? with
  | none => .error (lookUpFailure key malformedReason)
  | some value =>
    match value.find? (keysOf key) with
    | none => .error (lookUpFailure key ("missing field \x60" ++ key ++ "\x60"))
    | some found => (decode found).mapError fun mismatch => lookUpFailure key mismatch.message

/-- The value at a key, or a default if there is none. -/
def getOrDefault {α : Type} (config : Config) (key : String) (decode : Value → Except Mismatch α)
    (otherwise : α) : Except Failure α :=
  if config.merged?.isNone then
    .error (.invalidConfig ("failed to read configuration: " ++ malformedReason))
  else if config.contains key then config.get key decode
  else .ok otherwise

/-! ### Layers -/

/-- The stages of deployment, each with a file of its own. -/
inductive Stage where
  | development
  | production
  | testing
deriving DecidableEq, Repr

namespace Stage

/-- The stage with a name. -/
def ofName? : String → Option Stage
  | "dev" | "development" => some .development
  | "prod" | "production" => some .production
  | "test" | "testing" => some .testing
  | _ => none

/-- The file of a stage. -/
def fileName : Stage → String
  | .development => "ndb.dev.toml"
  | .production => "ndb.prod.toml"
  | .testing => "ndb.test.toml"

end Stage

/-- What a configuration is read from: the texts of files by their names, and the environment. -/
structure Surroundings where
  file? : String → Option String
  environment : List (String × String)

/-- The layer of a file. -/
def fileLayer (surroundings : Surroundings) (name : String) : Option Table :=
  match surroundings.file? name with
  | none => some []
  | some text => Toml.ofText? text

/-- The configuration of a stage. -/
def ofStage (surroundings : Surroundings) (stage : Stage) : Config :=
  ⟨[fileLayer surroundings "ndb.toml", fileLayer surroundings stage.fileName,
    some (Environment.table surroundings.environment)]⟩

/-- The configuration of a stage that is given by name. -/
def loadFor (surroundings : Surroundings) (name : String) : Except Failure Config :=
  match Stage.ofName? name with
  | some stage => .ok (ofStage surroundings stage)
  | none => .error (.invalidConfig ("unknown NDB_ENV '" ++ name ++ "'"))

/-- The configuration of the stage that the environment names; without a name it is development. -/
def load (surroundings : Surroundings) : Except Failure Config :=
  loadFor surroundings ((surroundings.environment.lookup "NDB_ENV").getD "dev")

/-- The configuration of texts, each over the one before. -/
def ofTexts (texts : List String) : Config :=
  ⟨texts.map Toml.ofText?⟩

/-- The settings of an index. -/
def loadSettings (surroundings : Surroundings) : Except Failure Settings := do
  (← load surroundings).getOrDefault "engine" Value.asSettings Settings.default

end Config

end ChunkStore
