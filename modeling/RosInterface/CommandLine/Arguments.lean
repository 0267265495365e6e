import RosInterface.Path

/-! # Command line arguments

Options may stand anywhere behind the name of their command, and those that every command has may
stand in front of it as well. What takes one value may be given once; filters take values up to the
next option.
-/

namespace RosInterface

/-- The options of all commands. -/
inductive OptionName where
  | config
  | verbose
  | filter
  | dependencyPath
  | ignoreEnvironment
  | rootNamespace
  | preserve
  | help
  | version
deriving DecidableEq, Repr

/-- The commands. -/
inductive CommandName where
  | build
  | order
  | check
deriving DecidableEq, Repr

/-- How many values an option takes. -/
inductive Arity where
  | none
  | one
  | many
deriving DecidableEq, Repr

namespace OptionName

/-- The number of values of an option. -/
def arity : OptionName → Arity
  | config => .one
  | filter => .many
  | dependencyPath => .one
  | rootNamespace => .one
  | _ => .none

/-- Whether an option may be given again. -/
def isRepeatable : OptionName → Bool
  | filter => true
  | dependencyPath => true
  | _ => false

/-- Whether the values of an option are paths, which cannot be empty. -/
def takesPath : OptionName → Bool
  | config => true
  | dependencyPath => true
  | _ => false

/-- The long name of an option. -/
def long : OptionName → String
  | config => "config"
  | verbose => "verbose"
  | filter => "filter"
  | dependencyPath => "dependency-path"
  | ignoreEnvironment => "ignore-ros-package-path"
  | rootNamespace => "namespace"
  | preserve => "preserve"
  | help => "help"
  | version => "version"

/-- The one-letter name of an option. -/
def short? : OptionName → Option Char
  | config => some 'c'
  | verbose => some 'v'
  | filter => some 'f'
  | help => some 'h'
  | version => some 'V'
  | _ => none

end OptionName

namespace CommandName

/-- The command of a given name. -/
def ofText? : String → Option CommandName
  | "build" => some build
  | "order" => some order
  | "check" => some check
  | _ => none

/-- The number of paths that a command takes. -/
def paths : CommandName → Nat
  | build => 2
  | order => 1
  | check => 1

/-- The options behind a command, or those in front of any command. -/
def options : Option CommandName → List OptionName
  | none => [.config, .verbose, .help, .version]
  | some check => [.config, .verbose, .help]
  | some order => [.config, .verbose, .help, .filter, .dependencyPath, .ignoreEnvironment]
  | some build =>
    [.config, .verbose, .help, .filter, .dependencyPath, .ignoreEnvironment, .rootNamespace,
      .preserve]

end CommandName

/-- What was read so far. -/
structure Arguments where
  /-- The options with their values, in order. -/
  options : List (OptionName × List String) := []
  paths : List String := []
deriving DecidableEq, Repr, Inhabited

namespace Arguments

/-- Whether an option was given. -/
def has (arguments : Arguments) (name : OptionName) : Bool :=
  arguments.options.any (·.1 == name)

/-- All values of an option in order. -/
def values (arguments : Arguments) (name : OptionName) : List String :=
  (arguments.options.filter (·.1 == name)).flatMap (·.2)

end Arguments

/-- What ends the reading of arguments early. -/
inductive Interruption where
  /-- The arguments make no sense. -/
  | usage
  | help
  | version
deriving DecidableEq, Repr

/-- What the arguments ask for. -/
structure Invocation where
  command : CommandName
  /-- The options in front of the command. -/
  before : Arguments
  /-- The options and paths behind the command. -/
  after : Arguments
deriving DecidableEq, Repr

namespace Arguments

/-- What is expected next. -/
inductive Expectation where
  /-- Options and paths. -/
  | any
  /-- Values of an option that has some already. -/
  | values (option : OptionName) (values : List String)
  /-- Nothing but paths. -/
  | paths
deriving DecidableEq, Repr

/-- The options at some place that a name fits. -/
def find? (place : Option CommandName) (isMatch : OptionName → Bool) :
    Except Interruption OptionName :=
  match (CommandName.options place).find? isMatch with
  | some option => .ok option
  | none => .error .usage

/-- Adds an option with its values. -/
def addOption (arguments : Arguments) (option : OptionName) (values : List String) :
    Except Interruption Arguments :=
  match option with
  | .help => .error .help
  | .version => .error .version
  | _ =>
    if arguments.has option && !option.isRepeatable then .error .usage
    else if option.takesPath && values.contains "" then .error .usage
    else .ok { arguments with options := arguments.options ++ [(option, values)] }

/-- Ends the values of an option, which has to have some. -/
def settle (arguments : Arguments) : Expectation → Except Interruption Arguments
  | .values option values =>
    if values.isEmpty then .error .usage else arguments.addOption option values
  | _ => .ok arguments

/-- Reads the letters of an argument with a single hyphen. -/
def readLetters (place : Option CommandName) (arguments : Arguments) :
    List Char → Except Interruption (Arguments × Expectation)
  | [] => .ok (arguments, .any)
  | letter :: rest => do
    let option ← find? place (·.short? == some letter)
    match option.arity, rest with
    | .none, _ => readLetters place (← arguments.addOption option []) rest
    | _, [] => pure (arguments, .values option [])
    | _, '=' :: value => pure (← arguments.addOption option [String.ofList value], .any)
    | _, value => pure (← arguments.addOption option [String.ofList value], .any)

/-- Reads the rest of an argument with two hyphens. -/
def readLong (place : Option CommandName) (arguments : Arguments) (text : List Char) :
    Except Interruption (Arguments × Expectation) := do
  let name := String.ofList (text.takeWhile (· != '='))
  let option ← find? place (·.long == name)
  match option.arity, text.dropWhile (· != '=') with
  | .none, [] => pure (← arguments.addOption option [], .any)
  | .none, _ => throw .usage
  | _, [] => pure (arguments, .values option [])
  | _, _ :: value => pure (← arguments.addOption option [String.ofList value], .any)

/-- Adds a path; a command takes only so many. -/
def addPath (place : Option CommandName) (arguments : Arguments) (path : String) :
    Except Interruption Arguments :=
  match place with
  | none => .error .usage
  | some command =>
    if path = "" || command.paths ≤ arguments.paths.length then .error .usage
    else .ok { arguments with paths := arguments.paths ++ [path] }

/-- Reads an argument that is no option. -/
def readPlain (place : Option CommandName) (arguments : Arguments) (expectation : Expectation)
    (text : String) : Except Interruption (Arguments × Expectation) :=
  match expectation with
  | .values option values =>
    if option.arity = .many then .ok (arguments, .values option (values ++ [text]))
    else (arguments.addOption option [text]).map (·, .any)
  | _ => (arguments.addPath place text).map (·, expectation)

/-- Reads one argument at a place: in front of any command, or behind one. -/
def readArgument (place : Option CommandName) (arguments : Arguments) (expectation : Expectation)
    (text : String) : Except Interruption (Arguments × Expectation) :=
  if expectation = .paths then readPlain place arguments expectation text
  else
    match text.toList with
    | ['-', '-'] => (arguments.settle expectation).map (·, .paths)
    | '-' :: '-' :: long => do readLong place (← arguments.settle expectation) long
    | '-' :: letter :: letters => do
      readLetters place (← arguments.settle expectation) (letter :: letters)
    | _ => readPlain place arguments expectation text

/-- Reads the arguments behind a command. -/
def readCommand (command : CommandName) :
    Arguments → Expectation → List String → Except Interruption Arguments
  | arguments, expectation, [] => do
    let arguments ← arguments.settle expectation
    if arguments.paths.length = command.paths then pure arguments else throw .usage
  | arguments, expectation, text :: rest => do
    let (arguments, expectation) ← readArgument (some command) arguments expectation text
    readCommand command arguments expectation rest

/-- Reads all arguments, those in front of the command first. -/
def readAll : Arguments → Expectation → List String → Except Interruption Invocation
  | arguments, expectation, [] => do
    let _ ← arguments.settle expectation
    throw .usage
  | arguments, expectation, text :: rest => do
    match expectation, CommandName.ofText? text with
    | .any, some command =>
      pure ⟨command, arguments, ← readCommand command {} .any rest⟩
    | _, _ =>
      let (arguments, expectation) ← readArgument none arguments expectation text
      readAll arguments expectation rest

/-- Reads the arguments of a program. -/
def read (arguments : List String) : Except Interruption Invocation :=
  readAll {} .any arguments

end Arguments

end RosInterface
