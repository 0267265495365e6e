import RosInterface.CommandLine.Arguments
import RosInterface.CommandLine.Commands

/-! # The program

From arguments, files and the environment to an exit code, printed text and changed files.
-/

namespace RosInterface.Program

/-- What `--version` prints. -/
def versionLine : String :=
  "rosmsg 0.4.0"

/-- The variable that names roots of installed packages. -/
def searchPathVariable : String :=
  "ROS_PACKAGE_PATH"

/-- How the program ended. -/
structure Outcome where
  exitCode : Nat
  output : List OutputLine
  /-- What is wrong, if anything is. -/
  diagnostic : Option String
  tree : FileTree

/-- Everything that the program printed. -/
def Outcome.stdout (outcome : Outcome) (elapsed : String) : String :=
  String.join (outcome.output.map (·.render elapsed))

/-- The configuration file that is asked for; behind the command counts more than in front of it. -/
def configurationPath (invocation : Invocation) : Option Path :=
  ((invocation.before.values .config ++ invocation.after.values .config).getLast?).map Path.mk

/-- Where a command looks for packages. -/
def searchPaths (invocation : Invocation) (configuration : Configuration) (packagePath : Path)
    (environment : Option String) : SearchPaths where
  packagePath
  dependencyPaths :=
    (invocation.after.values .dependencyPath).map Path.mk ++ configuration.build.dependencyPaths
  environmentPaths := (environment.map splitSearchPath).getD []
  ignoreEnvironment :=
    invocation.after.has .ignoreEnvironment || configuration.build.ignoreEnvironment

/-- The path at a place behind a command. -/
def path (invocation : Invocation) (place : Nat) : Path :=
  ⟨(invocation.after.paths[place]?).getD ""⟩

/-- The paths that a command looks at, as far as they can be told without the files of packages. -/
def pathsOf (environment : Option String) (configuration : Configuration)
    (invocation : Invocation) : List Path :=
  let paths := searchPaths invocation configuration (path invocation 0) environment
  match invocation.command with
  | .build => paths.packagePath :: path invocation 1 :: paths.optionalRoots
  | .order => paths.packagePath :: paths.optionalRoots
  | .check => [paths.packagePath]

/-- Runs a command. -/
def runCommand (tree : FileTree) (environment : Option String) (configuration : Configuration)
    (invocation : Invocation) : CommandOutcome :=
  let packagePath := path invocation 0
  let paths := searchPaths invocation configuration packagePath environment
  let filter := invocation.after.values .filter
  match invocation.command with
  | .build =>
    Command.build tree configuration {
      paths
      output := path invocation 1
      filter
      rootNamespace := (invocation.after.values .rootNamespace).head?
      preserve := invocation.after.has .preserve }
  | .order => Command.order tree paths filter
  | .check => Command.check tree packagePath

/-- The outcome of a command as that of the program. -/
def ofCommand (outcome : CommandOutcome) : Outcome where
  exitCode := ExitCode.ofResult outcome.result
  output := outcome.output
  diagnostic :=
    match outcome.result with
    | .ok _ => none
    | .error error => some error.detail
  tree := outcome.tree

/-- What is said about arguments that make no sense. -/
def usage : String :=
  "usage: rosmsg [-c FILE] [-v] build PACKAGE OUTPUT | order PACKAGE | check PACKAGE"

/-- The paths that a run of the program looks at. What a configuration file adds to them is known once
that file is in the tree. -/
def paths (tree : FileTree) (environment : Option String) (arguments : List String) : List Path :=
  match Arguments.read arguments with
  | .error _ => []
  | .ok invocation =>
    let requested := configurationPath invocation
    let others :=
      match Configuration.load tree requested with
      | .ok configuration => pathsOf environment configuration invocation
      | .error _ => []
    requested.getD Configuration.defaultFile :: others

/-- Runs the program in a file tree, where `environment` is the search path of installed packages if
there is one. -/
def run (tree : FileTree) (environment : Option String) (arguments : List String) : Outcome :=
  match Arguments.read arguments with
  | .error .usage => ⟨ExitCode.unexpectedError, [], some usage, tree⟩
  | .error .help => ⟨ExitCode.success, [.text usage], none, tree⟩
  | .error .version => ⟨ExitCode.success, [.text versionLine], none, tree⟩
  | .ok invocation =>
    match Configuration.load tree (configurationPath invocation) with
    | .error error => ofCommand ⟨.error (.configuration error), [], tree⟩
    | .ok configuration => ofCommand (runCommand tree environment configuration invocation)

end RosInterface.Program
