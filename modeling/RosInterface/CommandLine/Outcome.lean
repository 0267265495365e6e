import RosInterface.Configuration
import RosInterface.Generation.Run

/-! # Outcomes of commands

A command prints lines and may change files. It succeeds or fails, and the exit code tells the kind
of failure apart.
-/

namespace RosInterface

/-- Why a command failed. -/
inductive CommandError where
  | configuration (error : ConfigurationError)
  | package (error : PackageError)
  | workspace (error : WorkspaceError)
  /-- Some of the packages that were checked are invalid. -/
  | invalidPackages (failed total : Nat)
  /-- Any other failure, in the words of whoever reports it. -/
  | other (reason : String)
deriving DecidableEq, Repr

/-! ## Wording -/

/-- The wording of an error followed by that of its cause, where it has one that it repeats. -/
def PackageError.detail : PackageError → String
  | file error => (file error).message ++ ": " ++ error.reason
  | xml path error => (xml path error).message ++ ": " ++ error.message
  | error => error.message

/-- The wording of an error followed by that of its cause, where it has one that it repeats. -/
def WorkspaceError.detail : WorkspaceError → String
  | package error => error.detail
  | file error => (file error).message ++ ": " ++ error.reason
  | json reason => (json reason).message ++ ": " ++ reason
  | error => error.message

/-- The wording of an error with that of its cause. -/
def CommandError.detail : CommandError → String
  | configuration error => error.message
  | package error => error.detail
  | workspace error => error.detail
  | invalidPackages failed total =>
    failed.repr ++ " of " ++ total.repr ++ " packages are invalid"
  | other reason => reason

/-! ## Exit codes -/

namespace ExitCode

/-- The command did what it was asked for. -/
def success : Nat := 0

/-- There is no usable configuration. -/
def invalidConfiguration : Nat := 1

/-- Something failed that no other code stands for. -/
def unexpectedError : Nat := 2

/-- A package or a directory is not there. -/
def packageNotFound : Nat := 3

/-- A package is there but cannot be read or generated. -/
def couldNotProcessPackage : Nat := 4

/-- Packages depend on one another in a cycle. -/
def couldNotDetermineBuildSequence : Nat := 5

/-- The exit code for a package that is missing or cannot be read. -/
def ofPackageError (error : PackageError) : Nat :=
  if error.isNotFound then packageNotFound else couldNotProcessPackage

/-- The exit code for a set of packages that cannot be built. -/
def ofWorkspaceError : WorkspaceError → Nat
  | .circular _ => couldNotDetermineBuildSequence
  | .missingPackage _ => packageNotFound
  | .package error => ofPackageError error
  | .duplicatePackage _ => couldNotProcessPackage
  | .definition _ => couldNotProcessPackage
  | .type _ => couldNotProcessPackage
  | .generation _ _ _ => couldNotProcessPackage
  | .invalidStage _ _ => unexpectedError
  | .file _ => unexpectedError
  | .json _ => unexpectedError

/-- The exit code for a failed command. -/
def ofError : CommandError → Nat
  | .configuration _ => invalidConfiguration
  | .package error => ofPackageError error
  | .workspace error => ofWorkspaceError error
  | .invalidPackages _ _ => unexpectedError
  | .other _ => unexpectedError

/-- The exit code of a command. -/
def ofResult {α : Type} : Except CommandError α → Nat
  | .ok _ => success
  | .error error => ofError error

end ExitCode

/-! ## Output -/

/-- Something that a command prints. -/
inductive OutputLine where
  | text (line : String)
  /-- The end of a build of some packages, which also tells how long it took. -/
  | generated (packages : Nat)
deriving DecidableEq, Repr

/-- What is printed for a line, given how long the command took. -/
def OutputLine.render (elapsed : String) : OutputLine → String
  | text line => line ++ "\n"
  | generated packages =>
    "\nGenerated " ++ packages.repr ++ " packages in " ++ elapsed ++ "\n"

/-- How a command ended. -/
structure CommandOutcome where
  result : Except CommandError Unit
  output : List OutputLine
  tree : FileTree

/-- Everything that a command printed. -/
def CommandOutcome.stdout (outcome : CommandOutcome) (elapsed : String) : String :=
  String.join (outcome.output.map (·.render elapsed))

end RosInterface
