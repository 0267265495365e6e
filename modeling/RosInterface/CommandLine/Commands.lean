import RosInterface.CommandLine.Outcome

/-! # Commands

What `build`, `order` and `check` do, apart from how they are asked for.
-/

namespace RosInterface.Command

/-- A workspace of the packages at some search paths, parsed and filtered. -/
def loadWorkspace (tree : FileTree) (paths : SearchPaths) (filter : PackageFilter) :
    Except CommandError Workspace := do
  let folders ← (paths.folders tree).mapError .package
  let workspace ← (Workspace.ofFolders tree folders).mapError .workspace
  let (outcome, filtered) := (workspace.parse tree).filter filter
  outcome.mapError .workspace
  pure filtered

/-! ## Building -/

/-- What a build is asked for. -/
structure BuildRequest where
  paths : SearchPaths
  output : Path
  filter : List String := []
  /-- The root namespace, which is the configured one unless it is given. -/
  rootNamespace : Option String := none
  preserve : Bool := false
deriving DecidableEq, Repr, Inhabited

/-- The root namespace of a build. -/
def BuildRequest.namespaceIn (request : BuildRequest) (configuration : Configuration) : String :=
  match request.rootNamespace with
  | some text => Naming.trimNamespace text
  | none => configuration.rootNamespace

/-- The options of a build's run. -/
def BuildRequest.options (request : BuildRequest) (configuration : Configuration) :
    RunOptions where
  output := request.output
  rootNamespace := request.namespaceIn configuration
  preserve := request.preserve || configuration.build.preserveGenerated

/-- The line for a generated package. -/
def generatedLine (package : GeneratedPackage) : OutputLine :=
  .text ("✓ " ++ package.name ++ " " ++ package.version ++ " (" ++ package.messages.repr ++
    " messages) -> " ++ package.artifact.text)

/-- The generator for a format. -/
def generatorFor {σ : Type} : OutputFormat → Generator σ
  | .json => Run.descriptorGenerator .indented

/-- Generates packages. Nothing is done and nothing is said if no package is selected. -/
def build (tree : FileTree) (configuration : Configuration) (request : BuildRequest) :
    CommandOutcome :=
  match loadWorkspace tree request.paths (.ofTexts request.filter) with
  | .error error => ⟨.error error, [], tree⟩
  | .ok workspace =>
    if workspace.selected.isEmpty then ⟨.ok (), [], tree⟩
    else
      let generator : Generator Unit := generatorFor configuration.build.outputFormat
      let outcome := workspace.run (request.options configuration) generator tree ()
      match outcome.result with
      | .error error => ⟨.error (.workspace error), [], outcome.tree⟩
      | .ok report =>
        ⟨.ok (), report.map generatedLine ++ [.generated report.length], outcome.tree⟩

/-! ## Ordering -/

/-- A number with spaces in front of it, three characters wide or wider. -/
def alignRight (number : Nat) : String :=
  let digits := Nat.toDigits 10 number
  String.ofList (List.replicate (3 - digits.length) ' ' ++ digits)

/-- The line for a package at a place in the build order. -/
def orderLine (package : SelectedPackage) (place : Nat) : OutputLine :=
  let kind := if package.info.isMetaPackage then " (meta)" else ""
  .text (alignRight place ++ ". " ++ package.name ++ " " ++ package.version ++ kind)

/-- Prints the build order. -/
def order (tree : FileTree) (paths : SearchPaths) (filter : List String) : CommandOutcome :=
  match loadWorkspace tree paths (.ofTexts filter) with
  | .error error => ⟨.error error, [], tree⟩
  | .ok workspace =>
    match workspace.order.1 with
    | .error error => ⟨.error (.workspace error), [], tree⟩
    | .ok packages =>
      ⟨.ok (), (packages.zipIdx 1).map fun (package, place) => orderLine package place, tree⟩

/-! ## Checking -/

/-- Reads a package completely. -/
def checkFolder (tree : FileTree) (folder : PackageFolder) : Except CommandError PackageInfo := do
  let package ← (PackageInfo.ofFolder tree folder).mapError .package
  let _ ← (PackageContents.ofPackage tree package).mapError .workspace
  pure package

/-- The line for a folder that was checked. -/
def checkLine (folder : PackageFolder) : Except CommandError PackageInfo → OutputLine
  | .ok package =>
    let kind := if package.isMetaPackage then ", meta" else ""
    .text ("✓ " ++ package.name ++ " " ++ package.version ++ " (" ++
      package.messages.length.repr ++ " message files" ++ kind ++ ")")
  | .error error => .text ("✗ " ++ folder.path.text ++ ": " ++ error.detail)

/-- Whether a check failed. -/
def isFailure {α : Type} : Except CommandError α → Bool
  | .ok _ => false
  | .error _ => true

/-- Checks all packages below a path. -/
def check (tree : FileTree) (path : Path) : CommandOutcome :=
  let start := OutputLine.text ("Checking packages in: " ++ path.text)
  match PackageFolder.find tree path .mandatory with
  | .error error => ⟨.error (.package error), [start], tree⟩
  | .ok folders =>
    let results := folders.map fun folder => (folder, checkFolder tree folder)
    let lines := start :: results.map fun (folder, result) => checkLine folder result
    let failures := results.countP fun (_, result) => isFailure result
    if failures = 0 then
      let summary := "✓ " ++ folders.length.repr ++ " packages are valid"
      ⟨.ok (), lines ++ [.text "", .text summary], tree⟩
    else ⟨.error (.invalidPackages failures folders.length), lines, tree⟩

end RosInterface.Command
