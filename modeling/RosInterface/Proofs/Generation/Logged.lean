import RosInterface.Proofs.Generation.Memoryless

namespace RosInterface

/-! # The documents of a run

`Generator.logged` writes down the documents that a generator is called for and does what the
generator does otherwise. The log of a run that succeeds has one document for each package, in build
order, and it is the document that the catalog decides.
-/

variable {σ α : Type}

/-- A generator that also records the documents it is called for. -/
def Generator.logged (generator : Generator σ) : Generator (σ × List PackageDocument) :=
  fun document directories => ExceptT.mk fun products =>
    let (outcome, after) := (generator document directories).run ⟨products.tree, products.record.1⟩
    (outcome, ⟨after.tree, (after.record, products.record.2 ++ [document])⟩)

/-- The products without the log. -/
def Products.unlogged (products : Products (σ × List PackageDocument)) : Products σ :=
  ⟨products.tree, products.record.1⟩

namespace Making

/-! ## The log changes nothing -/

/-- A part with a log has the outcome and the products of the part without one. -/
abbrev Mirrors (logged : Making (σ × List PackageDocument) α) (plain : Making σ α) : Prop :=
  Simulates (fun _ => True) Products.unlogged logged plain

theorem files_mirrors (action : FileTree.Action α) :
    Mirrors (files action : Making (σ × List PackageDocument) α) (files action) := by
  intro products _
  exact ⟨rfl, rfl, trivial⟩

theorem outcome_mirrors (outcome : Except WorkspaceError α) :
    Mirrors (ExceptT.mk (pure outcome) : Making (σ × List PackageDocument) α)
      (ExceptT.mk (pure outcome)) := by
  intro products _
  exact ⟨rfl, rfl, trivial⟩

theorem logged_mirrors (generator : Generator σ) (document : PackageDocument)
    (directories : PackageDirectories) :
    Mirrors (generator.logged document directories) (generator document directories) := by
  intro products _
  exact ⟨rfl, rfl, trivial⟩

variable {document : SelectedPackage → Except TypeError PackageDocument} {generator : Generator σ}

theorem generate_mirrors (directories : RunDirectories) (package : SelectedPackage) :
    Mirrors (generate document generator.logged directories package)
      (generate document generator directories package) := by
  refine (outcome_mirrors _).bind fun found => ?_
  refine (files_mirrors _).bind fun own => ?_
  exact (logged_mirrors generator found own).bind fun artifact => .of_pure _

theorem inDirectories_mirrors (options : RunOptions) (packages : List SelectedPackage) :
    Mirrors (inDirectories document options generator.logged packages)
      (inDirectories document options generator packages) := by
  unfold inDirectories
  cases packages.isEmpty with
  | true => exact .of_pure []
  | false =>
    refine (files_mirrors _).bind fun directories => ?_
    have hgenerated : Mirrors (generateAll document generator.logged directories packages)
        (generateAll document generator directories packages) :=
      .mapM fun package => (generate_mirrors directories package).tryCatch_throw _
    cases options.preserve with
    | true => exact hgenerated
    | false => exact hgenerated.thenAlways (files_mirrors _)

/-! ## What is logged -/

/-- The log of a part of a run grew by the documents of some packages, and the report has an entry
for each of them. -/
structure Logs (document : SelectedPackage → Except TypeError PackageDocument)
    (packages : List SelectedPackage) (generated : List GeneratedPackage)
    (before after : Products (σ × List PackageDocument)) : Prop where
  names : generated.map (·.name) = packages.map (·.name)
  grows : ∃ documents, packages.mapM document = .ok documents ∧
    after.record.2 = before.record.2 ++ documents

theorem record_of_files {action : FileTree.Action α} {before after : Products σ}
    {outcome : Except WorkspaceError α} (hrun : (files action).run before = (outcome, after)) :
    after.record = before.record :=
  (congrArg (fun result => result.2.record) hrun).symm

theorem generate_logs {directories : RunDirectories} {package : SelectedPackage}
    {before after : Products (σ × List PackageDocument)} {generated : GeneratedPackage}
    (hrun : (generate document generator.logged directories package).run before =
      (.ok generated, after)) :
    generated.name = package.name ∧
      ∃ logged, document package = .ok logged ∧ after.record.2 = before.record.2 ++ [logged] := by
  unfold generate at hrun
  rcases run_bind_eq_ok hrun with ⟨logged, afterDocument, hdocument, hrun⟩
  rcases run_bind_eq_ok hrun with ⟨own, afterFiles, hfiles, hrun⟩
  rcases run_bind_eq_ok hrun with ⟨artifact, afterArtifact, hartifact, hrun⟩
  cases hrun
  rcases Prod.mk.inj hdocument with ⟨hmade, rfl⟩
  have hlog : after.record.2 = afterFiles.record.2 ++ [logged] :=
    (congrArg (fun result => result.2.record.2) hartifact).symm
  refine ⟨rfl, logged, mapError_eq_ok_iff.mp hmade, ?_⟩
  rw [hlog, record_of_files hfiles]

theorem generateAll_logs {directories : RunDirectories} {packages : List SelectedPackage}
    {before after : Products (σ × List PackageDocument)} {generated : List GeneratedPackage}
    (hrun : (generateAll document generator.logged directories packages).run before =
      (.ok generated, after)) : Logs document packages generated before after := by
  unfold generateAll at hrun
  induction packages generalizing before generated with
  | nil =>
    cases hrun
    exact ⟨rfl, [], rfl, (List.append_nil _).symm⟩
  | cons package rest ih =>
    rw [List.mapM_cons] at hrun
    rcases run_bind_eq_ok hrun with ⟨head, between, hfirst, hrun⟩
    rcases run_bind_eq_ok hrun with ⟨tail, final, hrest, hrun⟩
    cases hrun
    -- An error is only given another wording, so a success is that of the package itself.
    unfold blame at hfirst
    rw [run_tryCatch_throw] at hfirst
    rcases Prod.mk.inj hfirst with ⟨hok, hbetween⟩
    obtain ⟨hname, logged, hmade, hlog⟩ :=
      generate_logs (Prod.ext (mapError_eq_ok_iff.mp hok) hbetween)
    rcases ih hrest with ⟨hnames, documents, hdocuments, hlogs⟩
    refine ⟨congrArg₂ List.cons hname hnames, logged :: documents, ?_, ?_⟩
    · rw [List.mapM_cons, hmade, hdocuments]
      rfl
    · rw [hlogs, hlog, List.append_assoc, List.singleton_append]

theorem inDirectories_logs {options : RunOptions} {packages : List SelectedPackage}
    {before after : Products (σ × List PackageDocument)} {generated : List GeneratedPackage}
    (hrun : (inDirectories document options generator.logged packages).run before =
      (.ok generated, after)) : Logs document packages generated before after := by
  unfold inDirectories at hrun
  cases packages with
  | nil =>
    cases hrun
    exact ⟨rfl, [], rfl, (List.append_nil _).symm⟩
  | cons package rest =>
    rw [List.isEmpty_cons, if_neg Bool.false_ne_true] at hrun
    rcases run_bind_eq_ok hrun with ⟨directories, created, hcreate, hrun⟩
    suffices hlogs : Logs document (package :: rest) generated created after by
      rcases hlogs with ⟨hnames, documents, hdocuments, hlog⟩
      exact ⟨hnames, documents, hdocuments, by rw [hlog, record_of_files hcreate]⟩
    cases hpreserve : options.preserve with
    | true =>
      rw [hpreserve] at hrun
      exact generateAll_logs hrun
    | false =>
      rw [hpreserve] at hrun
      -- The removal at the end has no say in the outcome, and no business with the log.
      rcases Prod.mk.inj ((run_thenAlways _ _ created).symm.trans hrun) with ⟨hok, hafter⟩
      rcases generateAll_logs (Prod.ext hok rfl) with ⟨hnames, documents, hdocuments, hlog⟩
      refine ⟨hnames, documents, hdocuments, ?_⟩
      rw [← hafter]
      exact hlog

end Making

/-! ## Runs of a workspace -/

/-- A run that records documents is the run itself beside the record. -/
theorem Workspace.run_logged (workspace : Workspace) (options : RunOptions)
    (generator : Generator σ) (tree : FileTree) (record : σ) (log : List PackageDocument) :
    let logged := workspace.run options generator.logged tree (record, log)
    let plain := workspace.run options generator tree record
    logged.result = plain.result ∧ logged.workspace = plain.workspace ∧ logged.tree = plain.tree ∧
      logged.record.1 = plain.record := by
  simp only [run_eq]
  cases workspace.catalog with
  | error error => exact ⟨rfl, rfl, rfl, rfl⟩
  | ok catalog =>
    rcases workspace.order with ⟨error | packages, ordered⟩
    · exact ⟨rfl, rfl, rfl, rfl⟩
    · obtain ⟨hout, hproducts, -⟩ := Making.inDirectories_mirrors options packages
        (⟨tree, (record, log)⟩ : Products (σ × List PackageDocument)) trivial
      exact ⟨hout, rfl, congrArg Products.tree hproducts, congrArg Products.record hproducts⟩

/-- A run that succeeds has a catalog and an order, and documents that are recorded in that
order. -/
theorem Workspace.run_logs {workspace : Workspace} {options : RunOptions}
    {generator : Generator σ} {tree : FileTree} {record : σ} {log : List PackageDocument}
    {report : List GeneratedPackage}
    (hrun : (workspace.run options generator.logged tree (record, log)).result = .ok report) :
    ∃ catalog packages ordered documents, workspace.catalog = .ok catalog ∧
      workspace.order = (.ok packages, ordered) ∧
      packages.mapM (PackageDocument.outcome catalog options.rootNamespace) = .ok documents ∧
      report.map (·.name) = packages.map (·.name) ∧
      (workspace.run options generator.logged tree (record, log)).record.2 = log ++ documents := by
  rw [run_eq] at hrun ⊢
  cases hcatalog : workspace.catalog with
  | error error =>
    rw [hcatalog] at hrun
    cases hrun
  | ok catalog =>
    rw [hcatalog] at hrun
    rcases horder : workspace.order with ⟨error | packages, ordered⟩
    · rw [horder] at hrun
      cases hrun
    · rw [horder] at hrun
      obtain ⟨hnames, documents, hdocuments, hlog⟩ :=
        Making.inDirectories_logs (Prod.ext hrun rfl)
      exact ⟨catalog, packages, ordered, documents, rfl, rfl, hdocuments, hnames, hlog⟩

end RosInterface
