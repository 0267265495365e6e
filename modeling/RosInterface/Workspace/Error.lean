import RosInterface.Definition.File
import RosInterface.Package.Manifest
import RosInterface.Workspace.Stage

/-! # What can go wrong with a set of packages -/

namespace RosInterface

/-- Why packages cannot be loaded, selected, ordered or generated. -/
inductive WorkspaceError where
  /-- The packages wait for one another, in their given order. -/
  | circular (remaining : List String)
  | duplicatePackage (package : String)
  | missingPackage (package : String)
  /-- An operation came too early. -/
  | invalidStage (expected actual : Stage)
  | definition (error : DefinitionError)
  | type (error : TypeError)
  | package (error : PackageError)
  /-- The package is the one that ended a run. -/
  | generation (package version reason : String)
  | file (error : FileError)
  | json (reason : String)
deriving DecidableEq, Repr

namespace WorkspaceError

/-- The wording of an error. -/
def message : WorkspaceError → String
  | circular remaining =>
    "can not identify build sequence, packages have a circular dependency: " ++
      ", ".intercalate remaining
  | duplicatePackage name => "package with the same name already exists: " ++ name
  | missingPackage name => "package " ++ name ++ " was not found"
  | invalidStage expected actual =>
    "invalid state: expected " ++ expected.text ++ ", actual " ++ actual.text
  | definition error => error.message
  | type error => error.message
  | package error => error.message
  | generation name version reason =>
    "could not generate package " ++ name ++ " " ++ version ++ ": " ++ reason
  | file error => error.message
  | json reason => "JSON error: " ++ reason

end WorkspaceError

end RosInterface
