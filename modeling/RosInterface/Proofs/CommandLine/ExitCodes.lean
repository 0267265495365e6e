import RosInterface.Proofs.CommandLine.Checking

namespace RosInterface

/-! # Exit codes for packages that cannot be processed

A package cannot be processed where its manifest or one of its definition files cannot be read as a
text, or where the text is none of its kind. The exit code that stands for this is not always the one
that a command ends with:

* `Fault` tells apart what can be wrong with a package, and `Faulty` says in which packages a build or
  an order meets it;
* `Command.exitCode_of_faults` gives the exit codes of all three commands: a definition file that is
  no text counts as an unexpected error, and so does any fault when packages are checked.
-/

open PackageFolder PackageInfo

variable {tree : FileTree} {folders : List PackageFolder} {folder : PackageFolder}
  {package : PackageInfo}

/-! ## Faults -/

/-- What keeps a package from being processed. -/
inductive Fault where
  /-- The manifest cannot be read, or the directories of definition files cannot be listed. -/
  | folder (error : PackageError)
  /-- A definition file is no text. -/
  | text (error : FileError)
  /-- The text of a definition file is none. -/
  | definition (error : DefinitionError)

namespace Fault

/-- The error of a command that meets a fault. -/
def error : Fault → CommandError
  | .folder error => .workspace (.package error)
  | .text error => .workspace (.file error)
  | .definition error => .workspace (.definition error)

/-- The exit code of a command that meets a fault and reports its error. -/
def exitCode : Fault → Nat
  | .folder _ => ExitCode.couldNotProcessPackage
  | .text _ => ExitCode.unexpectedError
  | .definition _ => ExitCode.couldNotProcessPackage

end Fault

/-- Something is wrong with a definition file of a package. Those of mere collections do not count. -/
inductive PackageInfo.HasFault (tree : FileTree) (package : PackageInfo) : Fault → Prop
  | text {file : MessageFile} {error : FileError} (hplain : package.isMetaPackage = false)
      (hfile : file ∈ package.messages) (htext : tree.readText file.path = .error error) :
      HasFault tree package (.text error)
  | definition {file : MessageFile} {text : String} {error : DefinitionError}
      (hplain : package.isMetaPackage = false) (hfile : file ∈ package.messages)
      (htext : tree.readText file.path = .ok text)
      (hdefinition : Definition.readMessages package.name file text = .error error) :
      HasFault tree package (.definition error)

/-- Something is wrong with the package in a folder. -/
inductive PackageFolder.HasFault (tree : FileTree) (folder : PackageFolder) : Fault → Prop
  | folder {error : PackageError} (hread : ofFolder tree folder = .error error) :
      HasFault tree folder (.folder error)
  | package {package : PackageInfo} {fault : Fault} (hread : ofFolder tree folder = .ok package)
      (hfault : package.HasFault tree fault) : HasFault tree folder fault

/-- The error of a package that cannot be read is that of a fault. -/
theorem PackageContents.exists_hasFault {error : WorkspaceError}
    (hread : ofPackage tree package = .error error) :
    ∃ fault, package.HasFault tree fault ∧ CommandError.workspace error = fault.error := by
  unfold ofPackage at hread
  split at hread
  · cases hread
  · rename_i hplain
    rw [Bool.not_eq_true] at hplain
    rcases bind_eq_error_iff.mp hread with hfiles | ⟨messages, -, hdone⟩
    · rcases exists_of_mapM_eq_error hfiles with ⟨file, hfile, hfails⟩
      rcases bind_eq_error_iff.mp hfails with htext | ⟨text, htext, hdefinition⟩
      · rcases mapError_eq_error_iff.mp htext with ⟨cause, hcause, rfl⟩
        exact ⟨_, .text hplain hfile hcause, rfl⟩
      · rcases mapError_eq_error_iff.mp hdefinition with ⟨cause, hcause, rfl⟩
        exact ⟨_, .definition hplain hfile (mapError_eq_ok_iff.mp htext) hcause, rfl⟩
    · cases hdone

/-- A package with a fault cannot be read. -/
theorem PackageInfo.HasFault.unreadable {fault : Fault} (h : package.HasFault tree fault)
    {contents : PackageContents} : PackageContents.ofPackage tree package ≠ .ok contents := by
  intro hread
  have hfiles (hplain : package.isMetaPackage = false) {file : MessageFile}
      (hfile : file ∈ package.messages) :
      ∃ messages, PackageContents.readMessages tree package.name file = .ok messages := by
    rw [PackageContents.ofPackage, hplain, if_neg Bool.false_ne_true] at hread
    rcases bind_eq_ok_iff.mp hread with ⟨messages, hmessages, -⟩
    rcases exists_mem_of_mapM_eq_ok hmessages hfile with ⟨found, -, hfound⟩
    exact ⟨found, hfound⟩
  cases h with
  | text hplain hfile htext =>
    rcases hfiles hplain hfile with ⟨messages, hmessages⟩
    rcases bind_eq_ok_iff.mp hmessages with ⟨text, hok, -⟩
    rw [htext] at hok
    cases hok
  | definition hplain hfile htext hdefinition =>
    rcases hfiles hplain hfile with ⟨messages, hmessages⟩
    rcases bind_eq_ok_iff.mp hmessages with ⟨text, hok, hrest⟩
    rw [htext] at hok
    cases hok
    rw [hdefinition] at hrest
    cases hrest

/-! ## Folders that are found -/

/-- Whatever is found is a package folder. -/
theorem PackageFolder.isPackage_of_find {root : Path} {strategy : BuildStrategy}
    (hfind : find tree root strategy = .ok folders) (hfolder : folder ∈ folders) :
    isPackage tree folder.path = true := by
  rcases bind_eq_ok_iff.mp hfind with ⟨canonical, -, hsearch⟩
  cases hentry : tree.entry? canonical with
  | none =>
    rw [hentry] at hsearch
    cases hsearch
    cases hfolder
  | some entry =>
    rw [hentry] at hsearch
    rcases bind_eq_ok_iff.mp hsearch with ⟨paths, hpaths, hfolders⟩
    cases hfolders
    rcases List.mem_map.mp hfolder with ⟨path, hpath, rfl⟩
    exact ((mem_pathsAt (mapError_eq_ok_iff.mp hpaths)).mp hpath).2

/-- A document that is no manifest lacks something. -/
theorem Manifest.exists_reason_of_ofDocument {origin : String} {root : Xml.Node}
    {error : PackageError} (hread : ofDocument origin root = .error error) :
    ∃ reason, error = .invalidManifest origin reason := by
  revert hread
  unfold ofDocument
  cases root.name? != some "package" with
  | true =>
    cases childText? root "name" with
    | none | some _ =>
      rintro ⟨⟩
      exact ⟨_, rfl⟩
  | false =>
    cases childText? root "name" with
    | none =>
      rintro ⟨⟩
      exact ⟨_, rfl⟩
    | some name =>
      cases childText? root "version" with
      | none =>
        rintro ⟨⟩
        exact ⟨_, rfl⟩
      | some version => exact nofun

/-- A manifest that is there is never said to be missing. -/
theorem Manifest.isNotFound_of_readFolder {path : Path} {error : PackageError}
    (hfile : isPackage tree path = true) (hread : readFolder tree path = .error error) :
    error.isNotFound = false := by
  have hthere : tree.isFile (path.join fileName) = true := hfile
  unfold readFolder at hread
  dsimp only at hread
  rw [hthere] at hread
  rcases bind_eq_error_iff.mp hread with htext | ⟨text, -, hparse⟩
  · rcases mapError_eq_error_iff.mp htext with ⟨cause, -, rfl⟩
    rfl
  · unfold parse at hparse
    split at hparse
    · rcases exists_reason_of_ofDocument hparse with ⟨reason, rfl⟩
      rfl
    · cases hparse
      rfl

theorem PackageInfo.isNotFound_of_ofFolder {error : PackageError}
    (hfile : isPackage tree folder.path = true) (hread : ofFolder tree folder = .error error) :
    error.isNotFound = false := by
  rcases bind_eq_error_iff.mp hread with hmanifest | ⟨manifest, -, hrest⟩
  · exact Manifest.isNotFound_of_readFolder hfile hmanifest
  · rcases bind_eq_error_iff.mp hrest with hmessages | ⟨messages, -, hdone⟩
    · rcases mapError_eq_error_iff.mp hmessages with ⟨cause, -, rfl⟩
      rfl
    · cases hdone

namespace Command

variable {paths : SearchPaths} {main : List PackageFolder} {packageFilter : PackageFilter}

/-! ## Building and ordering -/

/-- The faults that a build or an order may meet: those of the folders below the main path, and those
of the packages that are needed. -/
inductive Faulty (tree : FileTree) (paths : SearchPaths) (packageFilter : PackageFilter) :
    Fault → Prop
  | folder {main : List PackageFolder} {folder : PackageFolder} {error : PackageError}
      (hmain : find tree paths.packagePath .mandatory = .ok main) (hfolder : folder ∈ main)
      (hread : ofFolder tree folder = .error error) : Faulty tree paths packageFilter (.folder error)
  | package {workspace : Workspace} {package : PackageInfo} {fault : Fault}
      (hworkspace : assemble tree paths = .ok workspace) (hpackage : package ∈ workspace.available)
      (hneeded : ((workspace.parse tree).reclassified packageFilter).Needed package.name)
      (hfault : package.HasFault tree fault) : Faulty tree paths packageFilter fault

theorem Faulty.ofError_eq {fault : Fault} (h : Faulty tree paths packageFilter fault) :
    ExitCode.ofError fault.error = fault.exitCode := by
  cases h with
  | folder hmain hfolder hread =>
    have hthere := isNotFound_of_ofFolder (isPackage_of_find hmain hfolder) hread
    show ExitCode.ofPackageError _ = _
    rw [ExitCode.ofPackageError, hthere]
    rfl
  | package _ _ _ hfault =>
    cases hfault with
    | text | definition => rfl

/-- Where the main path cannot be searched, no package is met. -/
theorem Faulty.searchable {fault : Fault} (h : Faulty tree paths packageFilter fault) :
    ¬ Unsearchable tree paths.packagePath := by
  intro hunsearchable
  rcases find_fails_iff.mpr hunsearchable with ⟨error, hfails⟩
  cases h with
  | folder hmain _ _ => cases hfails.symm.trans hmain
  | package hworkspace _ _ _ => cases (assemble_of_unsearchable hfails).symm.trans hworkspace

/-- Loading ends with a fault if there is one. -/
theorem loadWorkspace_faulty (hmain : find tree paths.packagePath .mandatory = .ok main)
    (hnames : ∀ workspace, assemble tree paths = .ok workspace →
      ∀ name ∈ packageFilter.exactNames, workspace.isAvailable name = true) :
    (∃ fault, Faulty tree paths packageFilter fault ∧
      loadWorkspace tree paths packageFilter = .error fault.error) ∨
    (∀ fault, ¬ Faulty tree paths packageFilter fault) ∧
      ∃ workspace, loadWorkspace tree paths packageFilter = .ok workspace ∧
        workspace.stage.canOrder = true := by
  have hassemble := assemble_of_find hmain
  cases hread : ofFolders tree (foldersBehind tree paths main) with
  | error error =>
    -- All folders are read before any definition file is.
    left
    rcases exists_of_ofFoldersAfter hread with ⟨folder, hfolder, hmandatory, hfails⟩
    refine ⟨.folder error, .folder hmain (mem_main_of_mandatory hfolder hmandatory) hfails, ?_⟩
    exact loadWorkspace_of_unreadable hmain hread
  | ok packages =>
    rw [hread] at hassemble
    have hisRead := isRead_parsed hmain hread
    have havailable : ∀ name ∈ packageFilter.exactNames,
        (parsed tree packages).isAvailable name = true := by
      intro name hname
      have hthere := hnames _ hassemble name hname
      rw [Workspace.isAvailable_iff] at hthere ⊢
      rwa [hisRead.available]
    rw [loadWorkspace_of_read hmain hread]
    rcases hisRead.filter_cases havailable with
      ⟨names, hselecting⟩ | ⟨package, error, hfailing⟩
    · right
      constructor
      · -- Every folder was read, and the filter met no needed package that was not.
        intro fault hfaulty
        cases hfaulty with
        | folder hsame hfolder hfails =>
          cases hmain.symm.trans hsame
          rcases (ofFolders_fails_iff hmain).mpr ⟨_, hfolder, _, hfails⟩ with ⟨error, hother⟩
          cases hread.symm.trans hother
        | package hworkspace hpackage hneeded hfault =>
          cases hassemble.symm.trans hworkspace
          rcases hselecting.readable _ hpackage hneeded with ⟨contents, hcontents⟩
          exact hfault.unreadable hcontents
      · rw [hselecting.outcome]
        exact ⟨_, rfl, rfl⟩
    · left
      rcases PackageContents.exists_hasFault hfailing.unreadable with ⟨fault, hfault, herror⟩
      refine ⟨fault, .package hassemble hfailing.member hfailing.needed hfault, ?_⟩
      rw [hfailing.outcome, ← herror]
      rfl

/-- Ordering what was selected fails only where packages depend on one another in a cycle. -/
theorem order_cases {workspace : Workspace} (hstage : workspace.stage.canOrder = true) :
    (∃ packages, workspace.order.1 = .ok packages) ∨
      ∃ names, workspace.order.1 = .error (.circular names) := by
  rw [Workspace.order, hstage]
  rcases workspace.orderer.inOrder SelectedPackage.unit workspace.selected with
    ⟨remaining | packages, orderer⟩
  · exact .inr ⟨remaining, rfl⟩
  · exact .inl ⟨packages, rfl⟩

theorem ofResult_order {texts : List String} {workspace : Workspace}
    (hload : loadWorkspace tree paths (.ofTexts texts) = .ok workspace)
    (hstage : workspace.stage.canOrder = true) :
    ExitCode.ofResult (order tree paths texts).result = ExitCode.success ∨
      ExitCode.ofResult (order tree paths texts).result =
        ExitCode.couldNotDetermineBuildSequence := by
  unfold order
  rw [hload]
  dsimp only
  rcases order_cases hstage with ⟨packages, horder⟩ | ⟨names, horder⟩
  · rw [horder]
    exact .inl rfl
  · rw [horder]
    exact .inr rfl

/-! ## Checking -/

theorem checkFolder_succeeds_iff {folder : PackageFolder} :
    (∃ package, checkFolder tree folder = .ok package) ↔
      ∀ fault, ¬ folder.HasFault tree fault := by
  simp only [checkFolder_eq_ok_iff]
  constructor
  · rintro ⟨package, hread, contents, hcontents⟩ fault hfault
    cases hfault with
    | folder hfails => cases hread.symm.trans hfails
    | package hother hfault =>
      cases hread.symm.trans hother
      exact hfault.unreadable hcontents
  · intro hnone
    cases hread : ofFolder tree folder with
    | error error => exact absurd (.folder hread) (hnone (.folder error))
    | ok package =>
      refine ⟨package, rfl, ?_⟩
      cases hcontents : PackageContents.ofPackage tree package with
      | ok contents => exact ⟨contents, rfl⟩
      | error error =>
        rcases PackageContents.exists_hasFault hcontents with ⟨fault, hfault, -⟩
        exact absurd (.package hread hfault) (hnone fault)

/-- A check that could search its path counts what is wrong, and reports no more than how much. -/
theorem check_cases {path : Path} {folders : List PackageFolder}
    (hfind : find tree path .mandatory = .ok folders) :
    (check tree path).result = .ok () ∨
      ∃ failed total, (check tree path).result = .error (.invalidPackages failed total) := by
  unfold check
  rw [hfind]
  dsimp only
  split
  · exact .inl rfl
  · exact .inr ⟨_, _, rfl⟩

theorem ofResult_check {path : Path} {folders : List PackageFolder}
    (hfind : find tree path .mandatory = .ok folders) :
    ((∃ folder ∈ folders, ∃ fault, folder.HasFault tree fault) ∧
      ExitCode.ofResult (check tree path).result = ExitCode.unexpectedError) ∨
    ((∀ folder ∈ folders, ∀ fault, ¬ folder.HasFault tree fault) ∧
      ExitCode.ofResult (check tree path).result = ExitCode.success) := by
  by_cases hall : ∀ folder ∈ folders, ∀ fault, ¬ folder.HasFault tree fault
  · right
    have hchecked : ∀ folder ∈ folders, ∃ package, checkFolder tree folder = .ok package :=
      fun folder hfolder => checkFolder_succeeds_iff.mpr (hall folder hfolder)
    rw [check_eq_ok_iff.mpr ⟨folders, hfind, hchecked⟩]
    exact ⟨hall, rfl⟩
  · left
    simp only [not_forall, Classical.not_not, exists_prop] at hall
    rcases check_cases hfind with hok | ⟨failed, total, hfails⟩
    · rcases hall with ⟨folder, hfolder, fault, hfault⟩
      rcases check_eq_ok_iff.mp hok with ⟨found, hfound, hchecked⟩
      cases hfind.symm.trans hfound
      exact absurd hfault (checkFolder_succeeds_iff.mp (hchecked folder hfolder) fault)
    · rw [hfails]
      exact ⟨hall, rfl⟩

/-- Where a filter names packages that are there, faults decide how commands end. A build or an order
that meets a fault ends with the exit code of one that it meets, which is the one for packages that
cannot be processed unless a definition file is no text. Without a fault, packages are loaded if the
main path can be searched, and an order fails at most with a cycle. A check ends with an unexpected
error whatever the fault is. -/
theorem exitCode_of_faults {texts : List String}
    (hnames : ∀ workspace, assemble tree paths = .ok workspace →
      ∀ name ∈ (PackageFilter.ofTexts texts).exactNames, workspace.isAvailable name = true) :
    ((∃ fault, Faulty tree paths (.ofTexts texts) fault) →
      ∃ fault, Faulty tree paths (.ofTexts texts) fault ∧
        ExitCode.ofResult (order tree paths texts).result = fault.exitCode ∧
        ∀ configuration request, request.paths = paths → request.filter = texts →
          ExitCode.ofResult (build tree configuration request).result = fault.exitCode) ∧
    ((∀ fault, ¬ Faulty tree paths (.ofTexts texts) fault) →
      Unsearchable tree paths.packagePath ∨
      (∃ workspace, loadWorkspace tree paths (.ofTexts texts) = .ok workspace) ∧
        (ExitCode.ofResult (order tree paths texts).result = ExitCode.success ∨
          ExitCode.ofResult (order tree paths texts).result =
            ExitCode.couldNotDetermineBuildSequence)) ∧
    (∀ folders, find tree paths.packagePath .mandatory = .ok folders →
      ((∃ folder ∈ folders, ∃ fault, folder.HasFault tree fault) ∧
        ExitCode.ofResult (check tree paths.packagePath).result = ExitCode.unexpectedError) ∨
      ((∀ folder ∈ folders, ∀ fault, ¬ folder.HasFault tree fault) ∧
        ExitCode.ofResult (check tree paths.packagePath).result = ExitCode.success)) := by
  refine ⟨?_, ?_, fun folders => ofResult_check⟩
  · rintro ⟨any, hany⟩
    cases hmain : find tree paths.packagePath .mandatory with
    | error error => exact absurd (find_fails_iff.mp ⟨error, hmain⟩) hany.searchable
    | ok main =>
      rcases loadWorkspace_faulty hmain hnames with ⟨fault, hfault, hload⟩ | ⟨hnone, -⟩
      · have hcode := hfault.ofError_eq
        refine ⟨fault, hfault, ?_, ?_⟩
        · unfold order
          rw [hload]
          exact hcode
        · rintro configuration request rfl rfl
          unfold build
          rw [hload]
          exact hcode
      · exact absurd hany (hnone any)
  · intro hnone
    cases hmain : find tree paths.packagePath .mandatory with
    | error error => exact .inl (find_fails_iff.mp ⟨error, hmain⟩)
    | ok main =>
      rcases loadWorkspace_faulty hmain hnames with
        ⟨fault, hfault, -⟩ | ⟨-, workspace, hload, hstage⟩
      · exact absurd hfault (hnone fault)
      · exact .inr ⟨⟨workspace, hload⟩, ofResult_order hload hstage⟩

/-- A package with one definition file. -/
def singleTree (content : ByteArray) : FileTree where
  root := .directory [("src", .directory [("p", .directory
    [("package.xml", .file "<package><name>p</name><version>1</version></package>".toUTF8),
      ("msg", .directory [("A.msg", .file content)])])])]

/-- The package alone. -/
def singlePaths : SearchPaths :=
  ⟨⟨"src"⟩, [], [], true⟩

/-- A file that holds no declaration. -/
def brokenContent : ByteArray :=
  "int32".toUTF8

theorem brokenContent_exitCode :
    (∀ workspace, assemble (singleTree brokenContent) singlePaths = .ok workspace →
      ∀ name ∈ (PackageFilter.ofTexts ["p"]).exactNames, workspace.isAvailable name = true) ∧
    ∃ fault, Faulty (singleTree brokenContent) singlePaths (.ofTexts ["p"]) fault ∧
      fault.exitCode = ExitCode.couldNotProcessPackage ∧
      ExitCode.ofResult (order (singleTree brokenContent) singlePaths ["p"]).result =
        fault.exitCode := by
  have hassemble : (assemble (singleTree brokenContent) singlePaths).toOption.all
      (·.isAvailable "p") = true := by
    decide +kernel
  have hnames : ∀ workspace, assemble (singleTree brokenContent) singlePaths = .ok workspace →
      ∀ name ∈ (PackageFilter.ofTexts ["p"]).exactNames, workspace.isAvailable name = true := by
    intro workspace hworkspace name hname
    have hexact : (PackageFilter.ofTexts ["p"]).exactNames = ["p"] := by
      decide
    rw [hexact, List.mem_singleton] at hname
    rw [hworkspace] at hassemble
    rw [hname]
    exact hassemble
  have hcode : ExitCode.ofResult (order (singleTree brokenContent) singlePaths ["p"]).result =
      ExitCode.couldNotProcessPackage := by
    decide +kernel
  have hall := exitCode_of_faults hnames
  refine ⟨hnames, ?_⟩
  by_cases hfaulty : ∃ fault, Faulty (singleTree brokenContent) singlePaths (.ofTexts ["p"]) fault
  · rcases hall.1 hfaulty with ⟨fault, hfault, horder, -⟩
    exact ⟨fault, hfault, horder.symm.trans hcode, horder⟩
  · -- Without a fault, the order would have succeeded or found a cycle.
    rcases hall.2.1 (not_exists.mp hfaulty) with hunsearchable | ⟨-, hother⟩
    · have hfound : (find (singleTree brokenContent) singlePaths.packagePath
          .mandatory).toOption.isSome = true := by
        decide +kernel
      rcases find_fails_iff.mpr hunsearchable with ⟨error, hfails⟩
      rw [hfails] at hfound
      cases hfound
    · rcases hother with hother | hother
      · exact absurd (hcode.symm.trans hother) (by decide)
      · exact absurd (hcode.symm.trans hother) (by decide)

/-- A definition file that is there but no text is an unexpected error when packages are ordered, and
so is one without a declaration when packages are checked. -/
theorem binaryContent_exitCode :
    let binary := singleTree ⟨#[0xff]⟩
    binary.isFile ⟨"src/p/msg/A.msg"⟩ = true ∧
      (binary.readText ⟨"src/p/msg/A.msg"⟩).toOption = none ∧
      ExitCode.ofResult (order binary singlePaths []).result = ExitCode.unexpectedError ∧
      ExitCode.ofResult (check (singleTree brokenContent) singlePaths.packagePath).result =
        ExitCode.unexpectedError := by
  intro binary
  refine ⟨?_, ?_, ?_, ?_⟩
  · decide +kernel
  · decide +kernel
  · decide +kernel
  · decide +kernel

end Command

end RosInterface
