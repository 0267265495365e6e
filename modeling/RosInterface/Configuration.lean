import RosInterface.FileTree.Actions
import RosInterface.MessageType.Grammar
import RosInterface.Naming
import RosInterface.Text.Quoted
import RosInterface.Toml.Reader

/-! # Configuration

Settings that hold for every command until an option says otherwise. A file may leave out any
setting, and may contain nothing that is no setting.
-/

namespace RosInterface

/-- The formats that packages can be generated in. -/
inductive OutputFormat where
  | json
deriving DecidableEq, Repr, Inhabited

/-- Settings of builds. -/
structure BuildSettings where
  rootNamespace : String := ""
  outputFormat : OutputFormat := .json
  dependencyPaths : List Path := []
  /-- Whether the search path of the environment is left out. -/
  ignoreEnvironment : Bool := false
  /-- Whether the hidden directories of runs are kept. -/
  preserveGenerated : Bool := false
deriving DecidableEq, Repr, Inhabited

/-- Settings of diagnostics. -/
structure LoggingSettings where
  level : String := "info"
deriving DecidableEq, Repr, Inhabited

/-- All settings. -/
structure Configuration where
  build : BuildSettings := {}
  logging : LoggingSettings := {}
deriving DecidableEq, Repr, Inhabited

/-- Why there is no usable configuration. -/
inductive ConfigurationError where
  | unreadable (path : Path)
  | malformed
  | invalidLevel (level : String)
  | invalidNamespace (text : String)
deriving DecidableEq, Repr

/-! ## Reading settings -/

namespace Configuration

/-- The values of a record's members by name. A table may leave members out and have no others; an
array holds the first members in order. -/
def members (names : List String) : Toml.Value → Option (List (Option Toml.Value))
  | .table _ entries =>
    if entries.all fun entry => names.contains entry.1 then
      some (names.map fun name => entries.lookup name)
    else none
  | .array values => some ((List.range names.length).map (values[·]?))
  | .tables values =>
    let tables := values.reverse.map (Toml.Value.table .header)
    some ((List.range names.length).map (tables[·]?))
  | _ => none

/-- Reads a member if it is there. -/
def orElse {α : Type} (fallback : α) (read : Toml.Value → Option α) :
    Option Toml.Value → Option α
  | none => some fallback
  | some value => read value

/-- Reads a text. -/
def text : Toml.Value → Option String
  | .text value => some value
  | _ => none

/-- Reads a truth value. -/
def flag : Toml.Value → Option Bool
  | .flag value => some value
  | _ => none

/-- Reads a list of paths. -/
def paths : Toml.Value → Option (List Path)
  | .array values => values.mapM fun value => (text value).map Path.mk
  | .tables [] => some []
  | _ => none

/-- Whether a value is an empty table or array, and thus says nothing. -/
def isVoid : Toml.Value → Bool
  | .table _ [] => true
  | .array [] => true
  | _ => false

/-- Reads an output format, which is named by a text or by the one key of a table. -/
def format : Toml.Value → Option OutputFormat
  | .text "json" => some .json
  | .table _ [("json", value)] => if isVoid value then some .json else none
  | _ => none

/-- Reads the settings of builds. -/
def buildSettings (value : Toml.Value) : Option BuildSettings := do
  let names := ["root_namespace", "output_format", "dependency_paths", "ignore_ros_package_path",
    "preserve_generated"]
  match ← members names value with
  | [rootNamespace, outputFormat, dependencyPaths, ignoreEnvironment, preserveGenerated] =>
    pure {
      rootNamespace := ← orElse "" text rootNamespace
      outputFormat := ← orElse .json format outputFormat
      dependencyPaths := ← orElse [] paths dependencyPaths
      ignoreEnvironment := ← orElse false flag ignoreEnvironment
      preserveGenerated := ← orElse false flag preserveGenerated }
  | _ => none

/-- Reads the settings of diagnostics. -/
def loggingSettings (value : Toml.Value) : Option LoggingSettings := do
  match ← members ["level"] value with
  | [level] => pure { level := ← orElse "info" text level }
  | _ => none

/-- Reads all settings. -/
def ofValue (value : Toml.Value) : Option Configuration := do
  match ← members ["build", "logging"] value with
  | [build, logging] =>
    pure {
      build := ← orElse {} buildSettings build
      logging := ← orElse {} loggingSettings logging }
  | _ => none

/-- Reads the text of a configuration file. -/
def parse (content : String) : Except ConfigurationError Configuration :=
  match (Toml.read content).bind fun entries => ofValue (.table .header entries) with
  | some configuration => .ok configuration
  | none => .error .malformed

/-! ## Valid settings -/

/-- The levels of diagnostics. -/
def levels : List String :=
  ["trace", "debug", "info", "warn", "error"]

/-- The root namespace without outer blanks and final dots. -/
def rootNamespace (configuration : Configuration) : String :=
  Naming.trimNamespace configuration.build.rootNamespace

/-- Whether a namespace consists of names with dots between them. -/
def isNamespace (text : String) : Bool :=
  (RosInterface.Text.pieces (· == '.') text.toList).all isMemberName

/-- Accepts settings that can be used. An empty root namespace stands for none. -/
def validate (configuration : Configuration) : Except ConfigurationError Unit :=
  if !levels.contains configuration.logging.level then
    .error (.invalidLevel configuration.logging.level)
  else if configuration.rootNamespace != "" && !isNamespace configuration.rootNamespace then
    .error (.invalidNamespace configuration.build.rootNamespace)
  else .ok ()

/-- The name of the configuration file that is read unless another one is asked for. -/
def defaultFile : Path :=
  ⟨"rosmsg.toml"⟩

/-- Reads a configuration file. -/
def ofFile (tree : FileTree) (path : Path) : Except ConfigurationError Configuration :=
  match tree.readText path with
  | .ok content => parse content
  | .error _ => .error (.unreadable path)

/-- Reads the configuration of a command: the file that is asked for, or else the default file if
there is one. -/
def load (tree : FileTree) (path : Option Path) : Except ConfigurationError Configuration := do
  let configuration ←
    match path with
    | some path => ofFile tree path
    | none => if tree.isFile defaultFile then ofFile tree defaultFile else pure {}
  configuration.validate
  pure configuration

end Configuration

/-- The wording of an error. -/
def ConfigurationError.message : ConfigurationError → String
  | unreadable path => "Failed to read config: " ++ path.text.quoted
  | malformed => "Failed to parse config"
  | invalidLevel level =>
    "Invalid log level '" ++ level ++ "', expected one of: " ++
      ", ".intercalate Configuration.levels
  | invalidNamespace text => "Invalid root namespace '" ++ text ++ "'"

end RosInterface
