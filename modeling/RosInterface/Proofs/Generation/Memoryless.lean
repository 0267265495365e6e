import RosInterface.Generation.Run
import RosInterface.Proofs.Resolution.Walk

namespace RosInterface

/-! # Runs without a memory

A run passes the types that it resolved on from package to package. `Making.inDirectories` is the
same run without them: it is told the document of each package, and changes nothing but its
products. `run_eq` says that there is no other difference, so what a run does is a matter of the
documents that the catalog alone decides.
-/

/-! ## Documents -/

/-- The data of a message type, with what the catalog alone makes of it. -/
def MessageData.outcome (catalog : Catalog) (message : ParsedMessage) :
    Except TypeError MessageData := do
  let signed ← catalog.outcome message.identity
  pure (.ofMessage message signed.type signed.signature)

/-- The document of a package, with what the catalog alone makes of its messages. -/
def PackageDocument.outcome (catalog : Catalog) (rootNamespace : String)
    (package : SelectedPackage) : Except TypeError PackageDocument := do
  let messages ←
    if package.info.isMetaPackage then pure []
    else package.contents.messages.mapM (MessageData.outcome catalog)
  pure {
    package := .ofPackage rootNamespace package.info
    dependencies := package.publishedDependencies
    messages }

theorem MessageData.resolve_computes (catalog : Catalog) (message : ParsedMessage) :
    Computes catalog.Sound (MessageData.resolve catalog message)
      (MessageData.outcome catalog message) := by
  refine (catalog.resolve_computes message.identity).bind fun signed _ => ?_
  exact .of_pure _

/-- Resolving a document from a sound memory has the outcome that needs no memory. -/
theorem PackageDocument.resolve_computes (catalog : Catalog) (rootNamespace : String)
    (package : SelectedPackage) :
    Computes catalog.Sound (PackageDocument.resolve catalog rootNamespace package)
      (PackageDocument.outcome catalog rootNamespace package) := by
  unfold PackageDocument.resolve PackageDocument.outcome
  cases package.info.isMetaPackage with
  | true => exact .of_pure _
  | false =>
    have hmessages := Computes.mapM fun message (_ : message ∈ package.contents.messages) =>
      MessageData.resolve_computes catalog message
    exact hmessages.bind fun messages _ => .of_pure _

/-- A document that can be made has the data of its package, and that of the message types which its
contents hold unless it is a mere collection. -/
theorem PackageDocument.outcome_eq_ok {catalog : Catalog} {rootNamespace : String}
    {package : SelectedPackage} {document : PackageDocument}
    (hmade : outcome catalog rootNamespace package = .ok document) :
    document.package = .ofPackage rootNamespace package.info ∧
      document.dependencies = package.publishedDependencies ∧
        ((package.info.isMetaPackage = true ∧ document.messages = []) ∨
          (package.info.isMetaPackage = false ∧
            package.contents.messages.mapM (MessageData.outcome catalog) =
              .ok document.messages)) := by
  unfold outcome at hmade
  cases hmeta : package.info.isMetaPackage with
  | true =>
    rw [hmeta] at hmade
    cases hmade
    exact ⟨rfl, rfl, Or.inl ⟨rfl, rfl⟩⟩
  | false =>
    rw [hmeta, if_neg Bool.false_ne_true] at hmade
    rcases bind_eq_ok_iff.mp hmade with ⟨messages, hmessages, hdocument⟩
    cases hdocument
    exact ⟨rfl, rfl, Or.inr ⟨rfl, hmessages⟩⟩

/-! ## The run -/

namespace Making

variable {σ α : Type}

/-- Generates one package, given what becomes of its document. -/
def generate (document : SelectedPackage → Except TypeError PackageDocument)
    (generator : Generator σ) (directories : RunDirectories) (package : SelectedPackage) :
    Making σ GeneratedPackage := do
  let document ← ExceptT.mk (pure ((document package).mapError .type))
  let own ← files (directories.forPackage package.info)
  let artifact ← generator document own
  pure ⟨package.name, package.version, artifact, document.messages.length⟩

/-- Names the package that an error ended the run at. -/
def blame (package : SelectedPackage) (part : Making σ α) : Making σ α :=
  tryCatch part fun error =>
    throw (.generation package.name package.version error.message)

/-- Generates packages in order up to the first one that fails. -/
def generateAll (document : SelectedPackage → Except TypeError PackageDocument)
    (generator : Generator σ) (directories : RunDirectories) (packages : List SelectedPackage) :
    Making σ (List GeneratedPackage) :=
  packages.mapM fun package => blame package (generate document generator directories package)

/-- Runs a part to its end, then another one whose failure does not count. -/
def thenAlways (part : Making σ α) (last : Making σ Unit) : Making σ α :=
  ExceptT.mk do
    let outcome ← part.run
    let _ ← last.run
    pure outcome

theorem run_thenAlways (part : Making σ α) (last : Making σ Unit) (products : Products σ) :
    (thenAlways part last).run products =
      ((part.run products).1, (last.run (part.run products).2).2) :=
  rfl

/-- Generates packages between the creation and the removal of a run's directories. -/
def inDirectories (document : SelectedPackage → Except TypeError PackageDocument)
    (options : RunOptions) (generator : Generator σ) (packages : List SelectedPackage) :
    Making σ (List GeneratedPackage) := do
  if packages.isEmpty then pure []
  else
    let directories ← files (RunDirectories.create options.output)
    let generated := generateAll document generator directories packages
    if options.preserve then generated else thenAlways generated (files directories.remove)

end Making

namespace Run

variable {σ α : Type}

/-- From every state with a sound memory, a run has the outcome and the products of its memoryless
form, and keeps the memory sound. -/
abbrev Follows (catalog : Catalog) (run : Run σ α) (plain : Making σ α) : Prop :=
  Simulates (fun state : RunState σ => catalog.Sound state.resolved) (·.toProducts) run plain

theorem making_follows (catalog : Catalog) (part : Making σ α) :
    Follows catalog (making part) part := by
  intro state hsound
  exact ⟨rfl, rfl, hsound⟩

/-- A resolution only touches the memory. -/
theorem types_follows {catalog : Catalog} {resolution : Resolution α} {outcome : Except TypeError α}
    (h : Computes catalog.Sound resolution outcome) :
    Follows catalog (types resolution : Run σ α) (ExceptT.mk (pure (outcome.mapError .type))) := by
  intro state hsound
  rcases h state.resolved hsound with ⟨hout, hafter⟩
  exact ⟨congrArg (Except.mapError WorkspaceError.type) hout, rfl, hafter⟩

theorem generate_follows (catalog : Catalog) (options : RunOptions) (generator : Generator σ)
    (directories : RunDirectories) (package : SelectedPackage) :
    Follows catalog (generate catalog options generator directories package)
      (Making.generate (PackageDocument.outcome catalog options.rootNamespace) generator directories
        package) := by
  have hdocument := PackageDocument.resolve_computes catalog options.rootNamespace package
  refine (types_follows hdocument).bind fun document => ?_
  refine (making_follows catalog _).bind fun own => ?_
  exact (making_follows catalog _).bind fun artifact => .of_pure _

theorem inDirectories_follows (catalog : Catalog) (options : RunOptions)
    (generator : Generator σ) (packages : List SelectedPackage) :
    Follows catalog (inDirectories catalog options generator packages)
      (Making.inDirectories (PackageDocument.outcome catalog options.rootNamespace) options
        generator packages) := by
  unfold inDirectories Making.inDirectories
  cases packages.isEmpty with
  | true => exact .of_pure []
  | false =>
    refine (making_follows catalog _).bind fun directories => ?_
    have hgenerated : Follows catalog
        (generateAll catalog options generator directories packages)
        (Making.generateAll (PackageDocument.outcome catalog options.rootNamespace) generator
          directories packages) :=
      .mapM fun package =>
        (generate_follows catalog options generator directories package).tryCatch_throw _
    cases options.preserve with
    | true => exact hgenerated
    | false => exact hgenerated.thenAlways (making_follows catalog _)

end Run

/-! ## Runs of a workspace -/

/-- A run is its memoryless form, given the catalog and the order. -/
theorem Workspace.run_eq {σ : Type} (workspace : Workspace) (options : RunOptions)
    (generator : Generator σ) (tree : FileTree) (record : σ) :
    workspace.run options generator tree record =
      match workspace.catalog with
      | .error error => ⟨.error error, workspace, tree, record⟩
      | .ok catalog =>
        match workspace.order with
        | (.error error, ordered) => ⟨.error error, ordered, tree, record⟩
        | (.ok packages, ordered) =>
          let (result, products) := (Making.inDirectories
            (PackageDocument.outcome catalog options.rootNamespace) options generator
            packages).run ⟨tree, record⟩
          ⟨result, ordered, products.tree, products.record⟩ := by
  unfold run
  cases workspace.catalog with
  | error error => rfl
  | ok catalog =>
    rcases workspace.order with ⟨error | packages, ordered⟩
    · rfl
    · -- A run starts without a memory, which is sound.
      obtain ⟨hout, hproducts, -⟩ := Run.inDirectories_follows catalog options generator packages
        ⟨⟨tree, record⟩, []⟩ (Catalog.sound_nil catalog)
      have htree := congrArg Products.tree hproducts
      have hrecord := congrArg Products.record hproducts
      show RunOutcome.mk _ _ _ _ = RunOutcome.mk _ _ _ _
      rw [RunOutcome.mk.injEq]
      exact ⟨hout, rfl, htree, hrecord⟩

end RosInterface
