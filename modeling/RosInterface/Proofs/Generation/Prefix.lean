import RosInterface.Proofs.FileTree.Removal
import RosInterface.Proofs.Generation.DependencyOrder

namespace RosInterface

/-! # How far a run gets

A run generates a prefix of the build order: all of it, or the packages in front of the first one that
fails. `Workspace.run_generates_prefix` says so for every generator, along with what the run returns,
what the generator is called for, and what is left of the hidden directory.

* `Making.Attempt` lists the four ways in which one package can end, and `generate_attempt` says that
  there are no others;
* `Making.Ends` puts attempts together: each starts with the files and the record that the one before
  it left, and the first one that fails is the last.
-/

/-! ## Hidden directories -/

namespace RunDirectories

theorem isName_stagingName (number : Nat) : FileTree.IsName (stagingName number) := by
  have htext : (stagingName number).toList = ['.', 'r', 'o', 's', 'm', 's', 'g', '-'] ++
      (List.replicate (6 - (Nat.toDigits 10 number).length) '0' ++ Nat.toDigits 10 number) := by
    rw [stagingName, String.toList_append, String.toList_ofList]
    rfl
  constructor
  · intro hslash
    rw [htext, List.mem_append, List.mem_append] at hslash
    rcases hslash with hstart | hzero | hdigit
    · exact absurd hstart (by decide)
    · exact absurd (List.eq_of_mem_replicate hzero) (by decide)
    · exact absurd (Nat.isDigit_of_mem_toDigits (by decide) (by decide) hdigit) (by decide)
  · have hpiece : FileTree.Segment.ofPiece (stagingName number).toList =
        .enter (String.ofList (stagingName number).toList) := by
      rw [htext]
      rfl
    rw [hpiece, String.ofList_toList]

theorem isName_freshName (entries : List (String × Entry)) (limit number : Nat) :
    FileTree.IsName (freshName entries limit number) := by
  fun_induction freshName entries limit number with
  | case1 number => exact isName_stagingName number
  | case2 limit number taken ih => exact ih
  | case3 limit number free => exact isName_stagingName number

/-- The hidden directory of a run has a name of its own in the output directory. -/
theorem exists_name_of_create {output : Path} {tree created : FileTree}
    {directories : RunDirectories}
    (hcreate : (create output).run tree = (.ok directories, created)) :
    ∃ name, FileTree.IsName name ∧ directories = ⟨output, output.join name⟩ := by
  unfold create at hcreate
  rcases run_bind_eq_ok hcreate with ⟨-, afterOutput, -, hcreate⟩
  rcases run_bind_eq_ok hcreate with ⟨entries, afterList, -, hcreate⟩
  rcases run_bind_eq_ok hcreate with ⟨-, afterStaging, -, hcreate⟩
  cases hcreate
  exact ⟨_, isName_freshName entries entries.length 0, rfl⟩

theorem staging_endsWithName {output : Path} {tree created : FileTree} {directories : RunDirectories}
    (hcreate : (create output).run tree = (.ok directories, created)) :
    FileTree.EndsWithName directories.staging := by
  rcases exists_name_of_create hcreate with ⟨name, hname, rfl⟩
  exact hname.endsWithName output

end RunDirectories

/-! ## Attempts -/

namespace Making

variable {σ : Type} (document : SelectedPackage → Except TypeError PackageDocument)
  (generator : Generator σ) (directories : RunDirectories)

/-- What becomes of one package, with the documents that the generator is called for. -/
inductive Attempt (package : SelectedPackage) (before : Products σ) :
    List PackageDocument → Except WorkspaceError GeneratedPackage → Products σ → Prop
  /-- It has no document, and nothing is tried. -/
  | noDocument {error : TypeError} (hdocument : document package = .error error) :
      Attempt package before [] (.error (.type error)) before
  /-- Its directory cannot be created. -/
  | noDirectory {made : PackageDocument} {error : FileError} {tree : FileTree}
      (hdocument : document package = .ok made)
      (hdirectory : (directories.forPackage package.info).run before.tree = (.error error, tree)) :
      Attempt package before [] (.error (.file error)) { before with tree }
  /-- The generator fails. -/
  | rejected {made : PackageDocument} {own : PackageDirectories} {tree : FileTree}
      {error : WorkspaceError} {after : Products σ} (hdocument : document package = .ok made)
      (hdirectory : (directories.forPackage package.info).run before.tree = (.ok own, tree))
      (hcall : (generator made own).run { before with tree } = (.error error, after)) :
      Attempt package before [made] (.error error) after
  /-- The generator succeeds. -/
  | finished {made : PackageDocument} {own : PackageDirectories} {tree : FileTree} {artifact : Path}
      {after : Products σ} (hdocument : document package = .ok made)
      (hdirectory : (directories.forPackage package.info).run before.tree = (.ok own, tree))
      (hcall : (generator made own).run { before with tree } = (.ok artifact, after)) :
      Attempt package before [made]
        (.ok ⟨package.name, package.version, artifact, made.messages.length⟩) after

/-- Packages are generated one after the other. -/
inductive Generates :
    List SelectedPackage → Products σ → List PackageDocument → List GeneratedPackage →
      Products σ → Prop
  | nil (products : Products σ) : Generates [] products [] [] products
  | cons {package : SelectedPackage} {rest : List SelectedPackage}
      {before between after : Products σ} {made : PackageDocument} {documents : List PackageDocument}
      {generated : GeneratedPackage} {report : List GeneratedPackage}
      (hfirst : Attempt document generator directories package before [made] (.ok generated) between)
      (hrest : Generates rest between documents report after) :
      Generates (package :: rest) before (made :: documents) (generated :: report) after

/-- All packages are generated, or those in front of one that fails, which the error names. -/
inductive Ends (packages : List SelectedPackage) (before : Products σ) :
    List PackageDocument → Except WorkspaceError (List GeneratedPackage) → Products σ → Prop
  | complete {documents : List PackageDocument} {report : List GeneratedPackage} {after : Products σ}
      (hall : Generates document generator directories packages before documents report after) :
      Ends packages before documents (.ok report) after
  | stopped {front back : List SelectedPackage} {failing : SelectedPackage}
      {documents called : List PackageDocument} {report : List GeneratedPackage}
      {between after : Products σ} {error : WorkspaceError}
      (hsplit : packages = front ++ failing :: back)
      (hfront : Generates document generator directories front before documents report between)
      (hfailing : Attempt document generator directories failing between called (.error error) after) :
      Ends packages before (documents ++ called)
        (.error (.generation failing.name failing.version error.message)) after

variable {document generator directories}

theorem run_files {α : Type} (action : FileTree.Action α) (products : Products σ) :
    (files action).run products =
      ((action.run products.tree).1.mapError .file,
        { products with tree := (action.run products.tree).2 }) :=
  rfl

theorem run_call (made : PackageDocument) (own : PackageDirectories)
    (products : Products (σ × List PackageDocument)) :
    (generator.logged made own).run products =
      (((generator made own).run products.unlogged).1,
        ⟨((generator made own).run products.unlogged).2.tree,
          (((generator made own).run products.unlogged).2.record, products.record.2 ++ [made])⟩) :=
  rfl

/-- Generating a package comes to one of the attempts. The log tells which documents the generator
was called for. -/
theorem generate_attempt {package : SelectedPackage}
    {before after : Products (σ × List PackageDocument)}
    {outcome : Except WorkspaceError GeneratedPackage}
    (hrun : (generate document generator.logged directories package).run before =
      (outcome, after)) :
    ∃ called, after.record.2 = before.record.2 ++ called ∧
      Attempt document generator directories package before.unlogged called outcome
        after.unlogged := by
  unfold generate at hrun
  rw [run_bind] at hrun
  cases hdocument : document package with
  | error error =>
    rw [hdocument] at hrun
    cases hrun
    exact ⟨[], (List.append_nil _).symm, .noDocument hdocument⟩
  | ok made =>
    rw [hdocument] at hrun
    change ExceptT.run (files (directories.forPackage package.info) >>= _) before = _ at hrun
    rw [run_bind, run_files] at hrun
    rcases hdirectory : (directories.forPackage package.info).run before.tree with
      ⟨error | own, tree⟩
    · rw [hdirectory] at hrun
      cases hrun
      exact ⟨[], (List.append_nil _).symm, .noDirectory hdocument hdirectory⟩
    · rw [hdirectory] at hrun
      change ExceptT.run (generator.logged made own >>= _) { before with tree } = _ at hrun
      rw [run_bind, run_call] at hrun
      rcases hcall : (generator made own).run (Products.unlogged { before with tree }) with
        ⟨error | artifact, final⟩
      · rw [hcall] at hrun
        cases hrun
        exact ⟨[made], rfl, .rejected hdocument hdirectory hcall⟩
      · rw [hcall] at hrun
        cases hrun
        exact ⟨[made], rfl, .finished hdocument hdirectory hcall⟩

/-- An attempt that succeeds calls the generator once. -/
theorem Attempt.called_of_ok {package : SelectedPackage} {before after : Products σ}
    {called : List PackageDocument} {generated : GeneratedPackage}
    (h : Attempt document generator directories package before called (.ok generated) after) :
    ∃ made, called = [made] ∧ document package = .ok made ∧ generated.name = package.name ∧
      generated.version = package.version ∧ generated.messages = made.messages.length := by
  cases h with
  | finished hdocument hdirectory hcall => exact ⟨_, rfl, hdocument, rfl, rfl, rfl⟩

/-- Generating packages in order ends in one of the two ways. -/
theorem generateAll_ends {packages : List SelectedPackage}
    {before after : Products (σ × List PackageDocument)}
    {outcome : Except WorkspaceError (List GeneratedPackage)}
    (hrun : (generateAll document generator.logged directories packages).run before =
      (outcome, after)) :
    ∃ calls, after.record.2 = before.record.2 ++ calls ∧
      Ends document generator directories packages before.unlogged calls outcome
        after.unlogged := by
  unfold generateAll at hrun
  induction packages generalizing before after outcome with
  | nil =>
    cases hrun
    exact ⟨[], (List.append_nil _).symm, .complete (.nil _)⟩
  | cons package rest ih =>
    -- The first package fails and ends the run, or the others are generated from what it left.
    rw [List.mapM_cons, run_bind, blame, run_tryCatch_throw] at hrun
    rcases hfirst : (generate document generator.logged directories package).run before with
      ⟨error | generated, between⟩
    · rw [hfirst] at hrun
      cases hrun
      rcases generate_attempt hfirst with ⟨called, hlog, hattempt⟩
      exact ⟨called, hlog, .stopped rfl (.nil _) hattempt⟩
    · rw [hfirst] at hrun
      rcases generate_attempt hfirst with ⟨called, hlog, hattempt⟩
      rcases hattempt.called_of_ok with ⟨made, rfl, -⟩
      dsimp only [Except.mapError] at hrun
      rw [run_bind] at hrun
      rcases hrest : (rest.mapM fun package => blame package
          (generate document generator.logged directories package)).run between with
        ⟨result, final⟩
      rcases ih hrest with ⟨calls, hlogs, hends⟩
      have hlogged : final.record.2 = before.record.2 ++ made :: calls := by
        rw [hlogs, hlog, List.append_assoc, List.singleton_append]
      rw [hrest] at hrun
      cases hends with
      | complete hall =>
        cases hrun
        exact ⟨made :: calls, hlogged, .complete (.cons hattempt hall)⟩
      | stopped hsplit hfront hfailing =>
        cases hrun
        refine ⟨_, hlogged, ?_⟩
        exact .stopped (congrArg (package :: ·) hsplit) (.cons hattempt hfront) hfailing

/-- Between the creation and the removal of the hidden directory, the packages are generated. -/
theorem inDirectories_ends {options : RunOptions} {packages : List SelectedPackage}
    (hsome : packages ≠ []) {before after : Products (σ × List PackageDocument)}
    {outcome : Except WorkspaceError (List GeneratedPackage)} {created : FileTree}
    (hcreate : (RunDirectories.create options.output).run before.tree = (.ok directories, created))
    (hrun : (inDirectories document options generator.logged packages).run before =
      (outcome, after)) :
    ∃ calls last, after.record.2 = before.record.2 ++ calls ∧
      Ends document generator directories packages ⟨created, before.record.1⟩ calls outcome last ∧
      after.record.1 = last.record ∧
      after.tree =
        if options.preserve then last.tree else ((directories.remove).run last.tree).2 := by
  unfold inDirectories at hrun
  rw [if_neg (by simpa using hsome), run_bind, run_files, hcreate] at hrun
  dsimp only [Except.mapError] at hrun
  cases hpreserve : options.preserve with
  | true =>
    rw [hpreserve, if_pos rfl] at hrun
    rcases generateAll_ends hrun with ⟨calls, hlog, hends⟩
    exact ⟨calls, after.unlogged, hlog, hends, rfl, rfl⟩
  | false =>
    -- The removal comes last, after everything that counts.
    rw [hpreserve, if_neg Bool.false_ne_true, run_thenAlways, run_files] at hrun
    rcases Prod.mk.inj hrun with ⟨hout, hafter⟩
    rcases generateAll_ends (Prod.ext hout rfl) with ⟨calls, hlog, hends⟩
    rw [← hafter]
    exact ⟨calls, _, hlog, hends, rfl, rfl⟩

/-! ## Reports and calls -/

/-- A report has an entry for each package, in the same order. -/
theorem Generates.report_eq {packages : List SelectedPackage} {before after : Products σ}
    {documents : List PackageDocument} {report : List GeneratedPackage}
    (h : Generates document generator directories packages before documents report after)
    {count : SelectedPackage → Nat}
    (hcount : ∀ package made, document package = .ok made → made.messages.length = count package) :
    (report.map fun generated => (generated.name, generated.version, generated.messages)) =
      packages.map fun package => (package.name, package.version, count package) := by
  induction h with
  | nil => rfl
  | cons hfirst hrest ih =>
    rcases hfirst.called_of_ok with ⟨made, -, hmade, hname, hversion, hmessages⟩
    rw [List.map_cons, List.map_cons, ih, hname, hversion, hmessages, hcount _ _ hmade]

/-- A run that succeeds has generated all packages. -/
theorem Ends.generates {packages : List SelectedPackage} {before after : Products σ}
    {calls : List PackageDocument} {report : List GeneratedPackage}
    (h : Ends document generator directories packages before calls (.ok report) after) :
    Generates document generator directories packages before calls report after := by
  cases h with
  | complete hall => exact hall

theorem Generates.calls_eq {packages : List SelectedPackage} {before after : Products σ}
    {documents : List PackageDocument} {report : List GeneratedPackage}
    (h : Generates document generator directories packages before documents report after)
    (hname : ∀ package made, document package = .ok made → made.package.rosName = package.name) :
    documents.map (·.package.rosName) = packages.map (·.name) := by
  induction h with
  | nil => rfl
  | cons hfirst hrest ih =>
    rcases hfirst.called_of_ok with ⟨made, hcalled, hmade, -⟩
    cases hcalled
    rw [List.map_cons, List.map_cons, ih, hname _ _ hmade]

/-- The generator is called for no package twice, and for none behind one that failed. -/
theorem Ends.calls_prefix {packages : List SelectedPackage} {before after : Products σ}
    {calls : List PackageDocument} {outcome : Except WorkspaceError (List GeneratedPackage)}
    (h : Ends document generator directories packages before calls outcome after)
    (hname : ∀ package made, document package = .ok made → made.package.rosName = package.name) :
    calls.map (·.package.rosName) <+: packages.map (·.name) := by
  cases h with
  | complete hall => exact (hall.calls_eq hname) ▸ List.prefix_rfl
  | @stopped front back failing documents called _ _ _ _ hsplit hfront hfailing =>
    have hcalled : called.map (·.package.rosName) <+: [failing.name] := by
      cases hfailing with
      | noDocument | noDirectory => exact List.nil_prefix
      | rejected hdocument =>
        rw [List.map_singleton, hname _ _ hdocument]
    rw [hsplit, List.map_append, List.map_append, hfront.calls_eq hname, List.map_cons]
    refine (List.prefix_append_right_inj _).mpr (hcalled.trans ?_)
    exact ⟨back.map (·.name), rfl⟩

end Making

/-! ## Runs of a workspace -/

/-- The number of message types that are generated for a package. -/
def SelectedPackage.messageCount (package : SelectedPackage) : Nat :=
  if package.info.isMetaPackage then 0 else package.contents.messages.length

theorem PackageDocument.messageCount_of_outcome {catalog : Catalog} {rootNamespace : String}
    {package : SelectedPackage} {document : PackageDocument}
    (hmade : outcome catalog rootNamespace package = .ok document) :
    document.messages.length = package.messageCount := by
  unfold SelectedPackage.messageCount
  rcases (outcome_eq_ok hmade).2.2 with ⟨hmeta, hnone⟩ | ⟨hmeta, hmessages⟩
  · rw [hnone, hmeta]
    rfl
  · have hsame : document.messages.map (fun _ => ()) =
        package.contents.messages.map fun _ => () :=
      map_eq_of_mapM_eq_ok hmessages fun _ _ _ => rfl
    rw [hmeta, if_neg Bool.false_ne_true]
    simpa using congrArg List.length hsame

namespace Workspace

variable {workspace : Workspace}

/-- What a run needs before it changes anything: the types of all packages, and then an order of the
selected ones. -/
def plan (workspace : Workspace) : Except WorkspaceError (Catalog × List SelectedPackage) := do
  let catalog ← workspace.catalog
  let packages ← workspace.order.1
  pure (catalog, packages)

theorem plan_eq_ok {catalog : Catalog} {packages : List SelectedPackage}
    (hplan : workspace.plan = .ok (catalog, packages)) :
    workspace.catalog = .ok catalog ∧ workspace.order = (.ok packages, workspace.order.2) := by
  rcases bind_eq_ok_iff.mp hplan with ⟨found, hcatalog, hothers⟩
  rcases bind_eq_ok_iff.mp hothers with ⟨ordered, horder, hpair⟩
  cases hpair
  exact ⟨hcatalog, Prod.ext horder rfl⟩

/-- Without a plan, a run fails before it has changed anything. -/
theorem run_of_plan_error {error : WorkspaceError} (hplan : workspace.plan = .error error)
    {σ : Type} (options : RunOptions) (generator : Generator σ) (tree : FileTree) (record : σ) :
    let run := workspace.run options generator tree record
    run.result = .error error ∧ run.tree = tree ∧ run.record = record := by
  rw [run_eq]
  unfold plan at hplan
  cases hcatalog : workspace.catalog with
  | error failure =>
    rw [hcatalog] at hplan
    cases hplan
    exact ⟨rfl, rfl, rfl⟩
  | ok catalog =>
    rcases horder : workspace.order with ⟨failure | packages, ordered⟩
    · rw [hcatalog, horder] at hplan
      cases hplan
      exact ⟨rfl, rfl, rfl⟩
    · rw [hcatalog, horder] at hplan
      cases hplan

/-- With a plan, a run generates the packages of the plan. -/
theorem run_of_plan {catalog : Catalog} {packages : List SelectedPackage}
    (hplan : workspace.plan = .ok (catalog, packages)) {σ : Type} (options : RunOptions)
    (generator : Generator σ) (tree : FileTree) (record : σ) :
    let run := workspace.run options generator tree record
    (Making.inDirectories (PackageDocument.outcome catalog options.rootNamespace) options generator
      packages).run ⟨tree, record⟩ = (run.result, ⟨run.tree, run.record⟩) := by
  rcases plan_eq_ok hplan with ⟨hcatalog, horder⟩
  rw [run_eq, hcatalog, horder]
  rfl

/-- A run that has no plan returns the error that there is instead, and changes nothing. Otherwise the
plan has each selected package once. A run of no packages changes nothing either. Any other run, once
its directories are created, generates all packages in order or ends with the first one that fails;
the generator is called for the documents of those in front of it, and for its own if that and its
directory could be made. A report counts the messages of each package. Unless it is to be kept,
nothing is left of the hidden directory, whatever the generator did and however the run ended. -/
theorem run_generates_prefix (h : workspace.Reachable) {σ : Type} (options : RunOptions)
    (generator : Generator σ) (tree : FileTree) (record : σ) :
    let run := workspace.run options generator tree record
    let calls := (workspace.run options generator.logged tree (record, [])).record.2
    let untouched := run.tree = tree ∧ run.record = record ∧ calls = []
    (∀ error, workspace.plan = .error error → run.result = .error error ∧ untouched) ∧
    ∀ catalog packages, workspace.plan = .ok (catalog, packages) →
      (packages.map (·.name)).Nodup ∧ packages.Perm workspace.selected ∧
      (packages = [] → run.result = .ok [] ∧ untouched) ∧
      (packages ≠ [] → ∀ directories created,
        (RunDirectories.create options.output).run tree = (.ok directories, created) →
        ∃ last, Making.Ends (PackageDocument.outcome catalog options.rootNamespace) generator
            directories packages ⟨created, record⟩ calls run.result last ∧
          calls.map (·.package.rosName) <+: packages.map (·.name) ∧
          (∀ report, run.result = .ok report →
            (report.map fun generated => (generated.name, generated.version, generated.messages)) =
              packages.map fun package => (package.name, package.version, package.messageCount)) ∧
          run.record = last.record ∧
          (options.preserve = true → run.tree = last.tree) ∧
          (options.preserve = false → run.tree = ((directories.remove).run last.tree).2 ∧
            run.tree.Lacks directories.staging)) := by
  intro run calls untouched
  obtain ⟨hresult, -, htree, hrecord⟩ := workspace.run_logged options generator tree record []
  constructor
  · intro error hplan
    obtain ⟨hrun, hsame, hkept⟩ := run_of_plan_error hplan options generator tree record
    obtain ⟨-, -, hlog⟩ := run_of_plan_error hplan options generator.logged tree (record, [])
    exact ⟨hrun, hsame, hkept, congrArg Prod.snd hlog⟩
  · intro catalog packages hplan
    have hlogged := run_of_plan hplan options generator.logged tree (record, [])
    rcases plan_eq_ok hplan with ⟨-, horder⟩
    have hperm := (h.intact.inOrder horder).perm
    have hselection := h.intact.filtered (order_eq_ok h.intact.coherent horder).1
    have hnodup := (hperm.map (·.name)).nodup_iff.mpr hselection.distinct
    refine ⟨hnodup, hperm, ?_, ?_⟩
    · rintro rfl
      -- Nothing is done for an empty order, so the run ends where it started.
      have hrun := run_of_plan hplan options generator tree record
      rcases Prod.mk.inj hrun with ⟨hdone, hleft⟩
      rcases Products.mk.inj hleft with ⟨hsame, hkept⟩
      have hcalls := congrArg (·.2.record.2) hlogged
      exact ⟨hdone.symm, hsame.symm, hkept.symm, hcalls.symm⟩
    · intro hsome directories created hcreate
      obtain ⟨documents, last, hlog, hends, hkept, hleft⟩ :=
        Making.inDirectories_ends hsome hcreate hlogged
      have hcalls : calls = documents := hlog
      rw [hresult, ← hcalls] at hends
      have htree' : run.tree =
          if options.preserve then last.tree else ((directories.remove).run last.tree).2 :=
        htree.symm.trans hleft
      refine ⟨last, hends, hends.calls_prefix fun _ _ => rosName_of_outcome, ?_,
        hrecord.symm.trans hkept, ?_, ?_⟩
      · intro report hreport
        rw [hreport] at hends
        exact hends.generates.report_eq fun _ _ => PackageDocument.messageCount_of_outcome
      · intro hpreserve
        rw [htree', hpreserve, if_pos rfl]
      · intro hremoved
        rw [htree', hremoved, if_neg Bool.false_ne_true]
        have hname := RunDirectories.staging_endsWithName hcreate
        exact ⟨rfl, hname.lacks_remove last.tree⟩

/-- A generator that writes a file for each package, and then rejects one of them. -/
def rejectingGenerator (rejected : String) : Generator Unit := fun document directories => do
  let file := directories.staging.join "part"
  Making.files (FileTree.writeText file document.package.rosName)
  if document.package.rosName = rejected then throw (.file (.other "rejected")) else pure file

/-- The second of two packages is rejected: the run names it, and leaves no hidden directory. -/
theorem rejectedPackage_ends :
    let options : RunOptions := ⟨⟨"out"⟩, "", false⟩
    let generator := rejectingGenerator "a"
    let run := exampleWorkspace.run options generator exampleTree ()
    let calls := (exampleWorkspace.run options generator.logged exampleTree ((), [])).record.2
    exampleWorkspace.Reachable ∧
      run.result = .error (.generation "a" "1.0.0" "I/O error: rejected") ∧
      ∃ catalog packages created last, exampleWorkspace.plan = .ok (catalog, packages) ∧
        packages.map (·.name) = ["b", "a"] ∧
        (RunDirectories.create options.output).run exampleTree =
          (.ok ⟨⟨"out"⟩, ⟨"out/.rosmsg-000000"⟩⟩, created) ∧
        Making.Ends (PackageDocument.outcome catalog "") generator
          ⟨⟨"out"⟩, ⟨"out/.rosmsg-000000"⟩⟩ packages ⟨created, ()⟩ calls run.result last ∧
        calls.map (·.package.rosName) <+: ["b", "a"] ∧
        run.tree.Lacks ⟨"out/.rosmsg-000000"⟩ := by
  intro options generator run calls
  have hresult : run.result = .error (.generation "a" "1.0.0" "I/O error: rejected") := by
    dsimp only [run, options, generator]
    rw [run_eq, exampleWorkspace_catalog]
    decide +kernel
  have hplanned : exampleWorkspace.plan.toOption.map (·.2.map (·.name)) = some ["b", "a"] := by
    rw [plan, exampleWorkspace_catalog]
    decide +kernel
  have hcreated : ((RunDirectories.create options.output).run exampleTree).1.toOption =
      some ⟨⟨"out"⟩, ⟨"out/.rosmsg-000000"⟩⟩ := by
    decide +kernel
  rcases Option.map_eq_some_iff.mp hplanned with ⟨⟨catalog, packages⟩, hfound, hnames⟩
  have hplan := eq_ok_of_toOption hfound
  have hcreate : (RunDirectories.create options.output).run exampleTree =
      (.ok ⟨⟨"out"⟩, ⟨"out/.rosmsg-000000"⟩⟩,
        ((RunDirectories.create options.output).run exampleTree).2) :=
    Prod.ext (eq_ok_of_toOption hcreated) rfl
  have hsome : packages ≠ [] := by
    rintro rfl
    cases hnames
  obtain ⟨-, hplanned⟩ :=
    run_generates_prefix exampleWorkspace_reachable options generator exampleTree ()
  obtain ⟨-, -, -, hgenerated⟩ := hplanned catalog packages hplan
  obtain ⟨last, hends, hprefix, -, -, -, hremoved⟩ := hgenerated hsome _ _ hcreate
  exact ⟨exampleWorkspace_reachable, hresult, catalog, packages, _, last, hplan, hnames, hcreate,
    hends, hnames ▸ hprefix, (hremoved rfl).2⟩

end Workspace

end RosInterface
