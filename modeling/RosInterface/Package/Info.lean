import RosInterface.Definition.Kind
import RosInterface.Package.Filter
import RosInterface.Package.Manifest

/-! # Packages

What is known about a package before its definition files are read: its manifest, where it is, and
which definition files it has.
-/

namespace RosInterface

/-- A package as it is discovered. -/
structure PackageInfo where
  name : String
  version : String
  isMetaPackage : Bool
  description : Option String
  projectUrl : Option String
  repositoryUrl : Option String
  authors : List String
  /-- The packages that the manifest names. -/
  dependencies : List String
  directory : Path
  messages : List MessageFile
  /-- Whether the package is built only if another one needs it. -/
  isOptional : Bool
deriving DecidableEq, Repr, Inhabited

/-- Whether the packages of a folder are built for their own sake. -/
inductive BuildStrategy where
  | mandatory
  | optional
deriving DecidableEq, Repr, Inhabited

/-- A directory with a manifest. -/
structure PackageFolder where
  path : Path
  strategy : BuildStrategy
deriving DecidableEq, Repr, Inhabited

/-- Marks each package as optional unless the filter selects it. The empty filter changes nothing. -/
def PackageFilter.reclassify (filter : PackageFilter) (packages : List PackageInfo) :
    List PackageInfo :=
  if filter.isEmpty then packages
  else packages.map fun package => { package with isOptional := !filter.isMatch package.name }

/-! ## Definition files -/

namespace MessageFile

/-- The directories that hold definition files, however their letters are cased. -/
def directoryNames : List String :=
  ["msg", "srv", "action"]

/-- Whether a directory of this name holds definition files. -/
def isDirectoryName (name : String) : Bool :=
  directoryNames.contains (String.ofList (name.toList.map Char.toLower))

/-- The definition file that an entry of such a directory is, if it is one. -/
def ofEntry? (tree : FileTree) (path : Path) : Option MessageFile :=
  if tree.isFile path then (MessageKind.ofPath? path).map (⟨path, ·⟩) else none

/-- The definition files in one directory. -/
def inDirectory (tree : FileTree) (directory : Path) : Except FileError (List MessageFile) := do
  let entries ← tree.list directory
  pure (entries.filterMap fun entry => ofEntry? tree (directory.join entry.1))

/-- The order of definition files. -/
def le (a b : MessageFile) : Bool :=
  a.path.le b.path

/-- The definition files of a package directory in the order of their paths. -/
def inPackage (tree : FileTree) (directory : Path) : Except FileError (List MessageFile) := do
  let entries ← tree.list directory
  let paths := (entries.map (·.1)).filter isDirectoryName |>.map directory.join
  let files ← (paths.filter tree.isDirectory).mapM (inDirectory tree)
  pure (files.flatten.mergeSort le)

end MessageFile

/-! ## Reading packages -/

namespace PackageInfo

/-- The package that a manifest describes. -/
def ofManifest (manifest : Manifest) (folder : PackageFolder) (messages : List MessageFile) :
    PackageInfo where
  name := manifest.name
  version := manifest.version
  isMetaPackage := manifest.isMetaPackage
  description := manifest.description
  projectUrl := manifest.websiteUrl
  repositoryUrl := manifest.repositoryUrl
  authors := manifest.contributors
  dependencies := manifest.dependencies
  directory := folder.path
  messages
  isOptional := folder.strategy == .optional

/-- Reads the package in a folder. -/
def ofFolder (tree : FileTree) (folder : PackageFolder) : Except PackageError PackageInfo := do
  let manifest ← Manifest.readFolder tree folder.path
  let messages ← (MessageFile.inPackage tree folder.path).mapError .file
  pure (ofManifest manifest folder messages)

end PackageInfo

end RosInterface
