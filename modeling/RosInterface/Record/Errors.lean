import RosInterface.Json.Basic
import RosInterface.Workspace.Error

/-! # Records of errors

Every cause of an error has a word and a number of its own within its family. An error that wraps
another one has the wording of that one, and holds its record.
-/

namespace RosInterface

/-- What every record of an error starts with. -/
def errorRecord (word : String) (code : Nat) (message : String) (details : List (String × Json)) :
    Json :=
  .object ([("error", .string word), ("message", .string message), ("code", .nat code)] ++ details)

namespace TypeError

/-- The word for a cause. -/
def word : TypeError → String
  | invalidReference _ => "InvalidTypeReference"
  | invalidConstant _ _ => "InvalidConstant"
  | unresolvedDependency _ _ _ => "UnresolvedDependency"
  | nonAscii _ _ => "NonAsciiInput"
  | circular _ => "CircularTypeDependency"
  | unknown _ _ => "UnknownType"
  | duplicate _ => "DuplicateType"

/-- The number of a cause. -/
def code : TypeError → Nat
  | invalidReference _ => 1
  | invalidConstant _ _ => 2
  | unresolvedDependency _ _ _ => 3
  | nonAscii _ _ => 4
  | circular _ => 5
  | unknown _ _ => 6
  | duplicate _ => 7

/-- The record of an error. -/
def toJson (error : TypeError) : Json :=
  errorRecord error.word error.code error.message []

end TypeError

namespace PackageError

/-- The word for a cause. -/
def word : PackageError → String
  | file _ => "Io"
  | xml _ _ => "Xml"
  | manifestNotFound _ => "ManifestNotFound"
  | invalidManifest _ _ => "InvalidManifest"
  | notAPackageFolder _ => "NotAPackageFolder"
  | directoryNotFound _ => "DirectoryNotFound"

/-- The number of a cause. -/
def code : PackageError → Nat
  | file _ => 1
  | xml _ _ => 2
  | manifestNotFound _ => 3
  | invalidManifest _ _ => 4
  | notAPackageFolder _ => 5
  | directoryNotFound _ => 6

/-- The record of an error, which also says whether something is not there at all. -/
def toJson (error : PackageError) : Json :=
  errorRecord error.word error.code error.message [("not_found", .bool error.isNotFound)]

end PackageError

namespace WorkspaceError

/-- The word for a cause. -/
def word : WorkspaceError → String
  | circular _ => "CircularPackageDependency"
  | duplicatePackage _ => "DuplicatePackage"
  | missingPackage _ => "MissingPackage"
  | invalidStage _ _ => "InvalidState"
  | definition _ => "Parse"
  | type _ => "Type"
  | package _ => "Package"
  | generation _ _ _ => "Generator"
  | file _ => "Io"
  | json _ => "Json"

/-- The number of a cause. -/
def code : WorkspaceError → Nat
  | circular _ => 1
  | duplicatePackage _ => 2
  | missingPackage _ => 3
  | invalidStage _ _ => 4
  | definition _ => 5
  | type _ => 6
  | package _ => 7
  | generation _ _ _ => 8
  | file _ => 9
  | json _ => 10

/-- What the record of an error holds beside its wording. -/
def details : WorkspaceError → List (String × Json)
  | circular remaining => [("remaining", .strings remaining)]
  | definition error => [("line", .nat error.line)]
  | type error => [("inner", error.toJson)]
  | package error => [("inner", error.toJson)]
  | _ => []

/-- The record of an error. -/
def toJson (error : WorkspaceError) : Json :=
  errorRecord error.word error.code error.message error.details

end WorkspaceError

end RosInterface
