import RosInterface.BuildOrder
import RosInterface.Definition.Contents
import RosInterface.MessageType.Catalog
import RosInterface.Package.Discovery
import RosInterface.Registry
import RosInterface.Workspace.Error

/-! # Workspaces

A workspace holds the packages that are available, what their definition files contain, and the
packages that a filter selected together with all they need. Packages that cannot be read are held
back: they are an error only once they are selected.
-/

namespace RosInterface

/-! ## Reading the contents of packages -/

namespace PackageContents

/-- What a mere collection of packages amounts to: it needs the packages that its manifest names. -/
def ofMetaPackage (package : PackageInfo) : PackageContents where
  package := package.name
  dependencies := (Sorted.names package.dependencies).filter (· != package.name)

/-- The message types of one definition file. -/
def readMessages (tree : FileTree) (package : String) (file : MessageFile) :
    Except WorkspaceError (List ParsedMessage) := do
  let text ← (tree.readText file.path).mapError .file
  (Definition.readMessages package file text).mapError .definition

/-- Reads the definition files of a package. -/
def ofFiles (tree : FileTree) (package : PackageInfo) : Except WorkspaceError PackageContents := do
  let messages ← package.messages.mapM (readMessages tree package.name)
  pure (addMessages { package := package.name } messages.flatten)

/-- Reads what a package amounts to. -/
def ofPackage (tree : FileTree) (package : PackageInfo) : Except WorkspaceError PackageContents :=
  if package.isMetaPackage then .ok (ofMetaPackage package) else ofFiles tree package

end PackageContents

/-! ## Workspaces -/

/-- A package that is to be built, with what it contains. -/
structure SelectedPackage where
  info : PackageInfo
  contents : PackageContents
deriving DecidableEq, Repr

namespace SelectedPackage

/-- The name of the package. -/
def name (package : SelectedPackage) : String :=
  package.info.name

/-- The version of the package. -/
def version (package : SelectedPackage) : String :=
  package.info.version

/-- What the build order may depend on. -/
def unit (package : SelectedPackage) : BuildUnit :=
  ⟨package.name, package.version, package.contents.dependencies⟩

/-- The dependencies that the generated package declares: those of its manifest if it is a mere
collection, and those of its messages otherwise. -/
def publishedDependencies (package : SelectedPackage) : List String :=
  if package.info.isMetaPackage then package.info.dependencies else package.contents.dependencies

end SelectedPackage

/-- A set of packages on its way to a build. -/
structure Workspace where
  available : List PackageInfo := []
  /-- The contents of the packages that could be read. -/
  contents : List (String × PackageContents) := []
  /-- Why other packages could not be read. -/
  failures : List (String × WorkspaceError) := []
  selected : List SelectedPackage := []
  registry : Registry := {}
  orderer : BuildOrderer := {}
  stage : Stage := .discovered

namespace Workspace

/-- Whether a package of this name is available. -/
def isAvailable (workspace : Workspace) (name : String) : Bool :=
  workspace.available.any (·.name == name)

/-- The contents of a package. -/
def contents? (workspace : Workspace) (name : String) : Option PackageContents :=
  workspace.contents.lookup name

/-- The names of the packages that could not be read, sorted. -/
def unreadable (workspace : Workspace) : List String :=
  Sorted.names (workspace.failures.map (·.1))

/-- Whether the definition files of a package were looked at, with success or without. -/
def isKnown (workspace : Workspace) (name : String) : Bool :=
  (workspace.contents.lookup name).isSome || (workspace.failures.lookup name).isSome

/-- Adds a package, whose name has to be new. What was selected before no longer counts. -/
def add (workspace : Workspace) (package : PackageInfo) : Except WorkspaceError Workspace :=
  if workspace.isAvailable package.name then .error (.duplicatePackage package.name)
  else
    .ok { workspace with
      available := workspace.available ++ [package]
      selected := []
      stage := .discovered }

/-- A workspace of packages. -/
def ofPackages (packages : List PackageInfo) : Except WorkspaceError Workspace :=
  packages.foldlM add {}

/-- A workspace of the packages in some folders. -/
def ofFolders (tree : FileTree) (folders : List PackageFolder) :
    Except WorkspaceError Workspace := do
  ofPackages (← (PackageInfo.ofFolders tree folders).mapError .package)

/-! ## Parsing -/

/-- Removes what is stored under a name. -/
def eraseName {α : Type} (name : String) (entries : List (String × α)) : List (String × α) :=
  entries.filter (·.1 != name)

/-- Reads the definition files of a package, unless they were read before. -/
def parsePackage (tree : FileTree) (workspace : Workspace) (package : PackageInfo) : Workspace :=
  if (workspace.contents? package.name).isSome then workspace
  else
    let failures := eraseName package.name workspace.failures
    match PackageContents.ofPackage tree package with
    | .ok contents =>
      { workspace with
        contents := workspace.contents ++ [(package.name, contents)]
        failures
        registry := contents.dependencies.foldl Registry.add workspace.registry }
    | .error error => { workspace with failures := failures ++ [(package.name, error)] }

/-- Reads the definition files of all packages that are new since the last time. -/
def parse (tree : FileTree) (workspace : Workspace) : Workspace :=
  if workspace.stage.hasParsed then workspace
  else
    { workspace.available.foldl (parsePackage tree) workspace with stage := .parsed }

/-! ## Filtering -/

/-- Packages that were found to be needed. -/
structure Closure where
  /-- All that is needed so far. -/
  names : List String
  /-- Those whose dependencies are still to be looked at, the next one first. -/
  pending : List String

/-- Adds one dependency, if the package is known and was not needed before. -/
def Closure.need (workspace : Workspace) (closure : Closure) (name : String) : Closure :=
  if workspace.isKnown name && !closure.names.contains name then
    ⟨closure.names ++ [name], name :: closure.pending⟩
  else closure

/-- Looks at the needed packages one after the other and adds what they depend on. The error is the
name of a needed package that could not be read. Each package is looked at once at most, so `limit`
does not run out when it starts at the number of known packages and of those needed from the
start. -/
def close (workspace : Workspace) : Nat → Closure → Except String (List String)
  | _, ⟨names, []⟩ => .ok names
  | 0, ⟨names, _⟩ => .ok names
  | limit + 1, ⟨names, name :: pending⟩ =>
    if (workspace.failures.lookup name).isSome then .error name
    else
      match workspace.contents? name with
      | none => close workspace limit ⟨names, pending⟩
      | some contents =>
        close workspace limit (contents.dependencies.foldl (Closure.need workspace) ⟨names, pending⟩)

/-- The names of the packages that are built for their own sake, sorted. -/
def mandatory (workspace : Workspace) : List String :=
  Sorted.names ((workspace.available.filter (!·.isOptional)).map (·.name))

/-- The names of all packages that are needed, or of one that is and could not be read. Packages are
looked at from the last name to the first. -/
def needed (workspace : Workspace) : Except String (List String) :=
  let names := workspace.mandatory
  let limit := names.length + workspace.contents.length + workspace.failures.length
  close workspace limit ⟨names, names.reverse⟩

/-- An available package as a member of the selection. -/
def select (workspace : Workspace) (package : PackageInfo) : SelectedPackage :=
  ⟨{ package with isOptional := false },
    (workspace.contents? package.name).getD { package := package.name }⟩

/-- Selects the packages that a filter names, those that are mandatory without it if it is empty,
and everything they need. -/
def filter (workspace : Workspace) (packageFilter : PackageFilter) :
    Except WorkspaceError Unit × Workspace :=
  if !workspace.stage.hasParsed then
    (.error (.invalidStage .parsed workspace.stage), workspace)
  else
    match packageFilter.exactNames.find? (!workspace.isAvailable ·) with
    | some name => (.error (.missingPackage name), workspace)
    | none =>
      let workspace :=
        { workspace with available := packageFilter.reclassify workspace.available }
      match workspace.needed with
      | .error name =>
        let error := (workspace.failures.lookup name).getD (.missingPackage name)
        (.error error,
          { workspace with
            failures := eraseName name workspace.failures
            selected := []
            stage := .discovered })
      | .ok names =>
        let selected :=
          (workspace.available.filter (names.contains ·.name)).map workspace.select
        (.ok (),
          { workspace with
            selected
            registry := selected.foldl (fun r p => r.markBuilt p.name) workspace.registry
            stage := .filtered })

/-! ## Ordering -/

/-- The selected packages in build order. -/
def order (workspace : Workspace) : Except WorkspaceError (List SelectedPackage) × Workspace :=
  if !workspace.stage.canOrder then
    (.error (.invalidStage .filtered workspace.stage), workspace)
  else
    match workspace.orderer.inOrder SelectedPackage.unit workspace.selected with
    | (.ok packages, orderer) => (.ok packages, { workspace with orderer, stage := .ordered })
    | (.error remaining, orderer) => (.error (.circular remaining), { workspace with orderer })

/-! ## Types -/

/-- The contents of all packages that could be read, in the order of names. -/
def sortedContents (workspace : Workspace) : List PackageContents :=
  (workspace.contents.mergeSort fun a b => (compare a.1 b.1).isLE).map (·.2)

/-- A catalog of the message types in all packages that could be read. -/
def catalog (workspace : Workspace) : Except WorkspaceError Catalog :=
  if !workspace.stage.hasParsed then .error (.invalidStage .parsed workspace.stage)
  else
    (workspace.sortedContents.flatMap (·.messages)).foldlM
      (fun catalog message => (catalog.add message.type message.descriptor).mapError .type) {}

/-- A resolver for the message types in all packages that could be read. -/
def resolver (workspace : Workspace) : Except WorkspaceError Resolver :=
  workspace.catalog.map ({ catalog := · })

end Workspace

end RosInterface
