import RosInterface.FileTree.Actions
import RosInterface.Package.Info

/-! # Directories of a run

Every package of a run is generated in a directory of its own, below a hidden directory in the
output directory. The hidden directory goes away with the run unless it is to be kept.
-/

namespace RosInterface

/-- Where the code of one package goes. -/
structure PackageDirectories where
  output : Path
  /-- Where files are written before they are finished. -/
  staging : Path
deriving DecidableEq, Repr

/-- The directories of a run. -/
structure RunDirectories where
  output : Path
  /-- The hidden directory of the run. -/
  staging : Path
deriving DecidableEq, Repr

namespace RunDirectories

/-- What the names of hidden directories start with. -/
def stagingStart : String :=
  ".rosmsg-"

/-- The name of the hidden directory with a given number. -/
def stagingName (number : Nat) : String :=
  let digits := Nat.toDigits 10 number
  stagingStart ++ String.ofList (List.replicate (6 - digits.length) '0' ++ digits)

/-- The first name from a number on that a directory does not have yet. A directory cannot have more
names than entries, so `limit` does not run out when it starts at their number. -/
def freshName (entries : List (String × Entry)) : Nat → Nat → String
  | 0, number => stagingName number
  | limit + 1, number =>
    if (entries.lookup (stagingName number)).isSome then freshName entries limit (number + 1)
    else stagingName number

/-- Creates the output directory, if there is none, and the hidden directory of a run in it. -/
def create (output : Path) : FileTree.Action RunDirectories := do
  FileTree.makeDirectories output
  let entries ← FileTree.reading fun tree =>
    tree.list (if output.text = "" then ⟨"."⟩ else output)
  let staging := output.join (freshName entries entries.length 0)
  FileTree.makeDirectory staging
  pure ⟨output, staging⟩

/-- The name of the directory that a package is generated in. -/
def packageName (package : PackageInfo) : String :=
  package.name ++ "-" ++ package.version

/-- Creates the directory that a package is generated in. -/
def forPackage (directories : RunDirectories) (package : PackageInfo) :
    FileTree.Action PackageDirectories := do
  let staging := directories.staging.join (packageName package)
  FileTree.makeDirectories staging
  pure ⟨directories.output, staging⟩

/-- Removes the hidden directory of a run. -/
def remove (directories : RunDirectories) : FileTree.Action Unit :=
  FileTree.remove directories.staging

end RunDirectories

end RosInterface
