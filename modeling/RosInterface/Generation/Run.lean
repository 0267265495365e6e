import RosInterface.Document.Basic
import RosInterface.Generation.Descriptor

/-! # Runs

A run generates the selected packages of a workspace one after the other in build order, and ends
with the first one that fails. Whatever it created in the meantime stays, apart from its hidden
directory.
-/

namespace RosInterface

/-- What a run has to know beside the packages. -/
structure RunOptions where
  output : Path
  rootNamespace : String := ""
  /-- Whether the hidden directory is kept. -/
  preserve : Bool := false
deriving DecidableEq, Repr, Inhabited

/-- A package that was generated. -/
structure GeneratedPackage where
  name : String
  version : String
  /-- The finished file. -/
  artifact : Path
  messages : Nat
deriving DecidableEq, Repr

/-- What a generator may change: the files, and whatever it records. -/
structure Products (σ : Type) where
  tree : FileTree
  record : σ

/-- What changes in the course of a run: its products, and the types that were resolved. -/
structure RunState (σ : Type) extends Products σ where
  resolved : ResolvedTypes

/-- A part of a generator's work. -/
abbrev Making (σ : Type) :=
  ExceptT WorkspaceError (StateM (Products σ))

/-- A part of a run. -/
abbrev Run (σ : Type) :=
  ExceptT WorkspaceError (StateM (RunState σ))

/-- A way to generate the files of a package. It gives the path of the finished file. -/
abbrev Generator (σ : Type) :=
  PackageDocument → PackageDirectories → Making σ Path

namespace Making

variable {σ : Type}

/-- Changes files as part of a generator's work. -/
def files {α : Type} (action : FileTree.Action α) : Making σ α :=
  ExceptT.mk fun products =>
    let (outcome, tree) := action.run products.tree
    (outcome.mapError .file, { products with tree })

end Making

namespace Run

variable {σ : Type}

/-- Makes something as part of a run. The resolved types are out of its reach. -/
def making {α : Type} (part : Making σ α) : Run σ α :=
  ExceptT.mk fun state =>
    let (outcome, products) := part.run state.toProducts
    (outcome, { state with toProducts := products })

/-- Changes files as part of a run. -/
def files {α : Type} (action : FileTree.Action α) : Run σ α :=
  making (Making.files action)

/-- Resolves types as part of a run. -/
def types {α : Type} (resolution : Resolution α) : Run σ α :=
  ExceptT.mk fun state =>
    let (outcome, resolved) := resolution.run state.resolved
    (outcome.mapError .type, { state with resolved })

/-- The generator of descriptor files. -/
def descriptorGenerator (layout : Json.Layout) : Generator σ := fun document directories =>
  Making.files (DescriptorFile.write layout document directories)

/-- Generates one package. -/
def generate (catalog : Catalog) (options : RunOptions) (generator : Generator σ)
    (directories : RunDirectories) (package : SelectedPackage) : Run σ GeneratedPackage := do
  let document ← types (PackageDocument.resolve catalog options.rootNamespace package)
  let own ← files (directories.forPackage package.info)
  let artifact ← making (generator document own)
  pure ⟨package.name, package.version, artifact, document.messages.length⟩

/-- Names the package that an error ended the run at. -/
def blame {α : Type} (package : SelectedPackage) (part : Run σ α) : Run σ α :=
  tryCatch part fun error =>
    throw (.generation package.name package.version error.message)

/-- Generates packages in order up to the first one that fails. -/
def generateAll (catalog : Catalog) (options : RunOptions) (generator : Generator σ)
    (directories : RunDirectories) (packages : List SelectedPackage) :
    Run σ (List GeneratedPackage) :=
  packages.mapM fun package => blame package (generate catalog options generator directories package)

/-- Runs a part to its end, then another one whose failure does not count. -/
def thenAlways {α : Type} (part : Run σ α) (last : Run σ Unit) : Run σ α :=
  ExceptT.mk do
    let outcome ← part.run
    let _ ← last.run
    pure outcome

/-- Generates packages between the creation and the removal of a run's directories. No packages
leave no trace. -/
def inDirectories (catalog : Catalog) (options : RunOptions) (generator : Generator σ)
    (packages : List SelectedPackage) : Run σ (List GeneratedPackage) := do
  if packages.isEmpty then pure []
  else
    let directories ← files (RunDirectories.create options.output)
    let generated := generateAll catalog options generator directories packages
    if options.preserve then generated else thenAlways generated (files directories.remove)

end Run

/-- How a run ended. -/
structure RunOutcome (σ : Type) where
  result : Except WorkspaceError (List GeneratedPackage)
  workspace : Workspace
  tree : FileTree
  record : σ

/-- Generates the selected packages of a workspace. -/
def Workspace.run {σ : Type} (workspace : Workspace) (options : RunOptions)
    (generator : Generator σ) (tree : FileTree) (record : σ) : RunOutcome σ :=
  match workspace.catalog with
  | .error error => ⟨.error error, workspace, tree, record⟩
  | .ok catalog =>
    match workspace.order with
    | (.error error, workspace) => ⟨.error error, workspace, tree, record⟩
    | (.ok packages, workspace) =>
      let (result, state) :=
        (Run.inDirectories catalog options generator packages).run ⟨⟨tree, record⟩, []⟩
      ⟨result, workspace, state.tree, state.record⟩

end RosInterface
