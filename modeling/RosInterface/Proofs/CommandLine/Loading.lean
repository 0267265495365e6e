import RosInterface.Proofs.Package.Precedence
import RosInterface.Proofs.Workspace.FailedFilters

namespace RosInterface

/-! # Loading packages

A command loads a workspace in one go: the packages are found, all of them are read from the same
tree, and a filter selects what is needed.

* `Workspace.IsRead` says what is known of a workspace before the filter, and `IsRead.filter_cases`
  what the filter then comes to, in terms of the files;
* `Command.loadWorkspace_of_read` and `Command.loadWorkspace_of_unreadable` say how loading ends.
-/

namespace Workspace

variable {tree : FileTree} {packages : List PackageInfo} {workspace : Workspace}
  {packageFilter : PackageFilter}

/-- A workspace that holds some packages and what was read from them. -/
structure IsRead (tree : FileTree) (packages : List PackageInfo) (workspace : Workspace) : Prop where
  reachable : workspace.Reachable
  parsed : workspace.stage.hasParsed = true
  available : workspace.available = packages
  readFrom : workspace.ReadFrom tree

theorem isRead_parse (tree : FileTree) (hdistinct : (packages.map (·.name)).Nodup) :
    IsRead tree packages (parse tree { available := packages }) := by
  have hpackages : ofPackages packages = .ok { available := packages } :=
    ofPackages_eq_ok_iff.mpr ⟨hdistinct, rfl⟩
  have hreachable := reachable_of_ofPackages hpackages
  have hcoherent := hreachable.intact.coherent
  have hempty : ReadFrom tree { available := packages } := ⟨fun _ _ _ => nofun, fun _ _ _ => nofun⟩
  refine ⟨hreachable.parse tree, hasParsed_parse _ tree, available_parse hcoherent tree, ?_⟩
  show ReadFrom tree (Workspace.perform { available := packages } (.parse tree))
  apply hempty.perform hcoherent
  rintro other ⟨⟩
  rfl

namespace IsRead

/-- Stored as failures are the errors of the packages that cannot be read. -/
theorem failure_iff (h : IsRead tree packages workspace) {name : String} {error : WorkspaceError} :
    workspace.failures.lookup name = some error ↔
      ∃ package ∈ packages, package.name = name ∧
        PackageContents.ofPackage tree package = .error error := by
  have horderly := h.reachable.orderly
  constructor
  · intro hfailure
    have hknown : workspace.isKnown name = true := by
      rw [isKnown, hfailure, Option.isSome_some, Bool.or_true]
    rcases isAvailable_iff.mp (horderly.available name hknown) with ⟨package, hpackage, rfl⟩
    exact ⟨package, h.available ▸ hpackage, rfl,
      h.readFrom.failures package hpackage error hfailure⟩
  · rintro ⟨package, hpackage, rfl, hfails⟩
    have hstored := h.readFrom.stored horderly h.parsed (h.available.symm ▸ hpackage)
    rw [hfails] at hstored
    exact hstored.2

/-- Everything that is needed could be read, and is selected. -/
structure Selecting (tree : FileTree) (packages : List PackageInfo) (workspace : Workspace)
    (packageFilter : PackageFilter) (names : List String) : Prop where
  outcome : workspace.filter packageFilter =
    (.ok (), (workspace.reclassified packageFilter).selecting names)
  members : ∀ name, name ∈ names ↔ (workspace.reclassified packageFilter).Needed name
  readable : ∀ package ∈ packages, (workspace.reclassified packageFilter).Needed package.name →
    ∃ contents, PackageContents.ofPackage tree package = .ok contents

/-- Something that is needed could not be read, which is the error. -/
structure Failing (tree : FileTree) (packages : List PackageInfo) (workspace : Workspace)
    (packageFilter : PackageFilter) (package : PackageInfo) (error : WorkspaceError) : Prop where
  outcome : (workspace.filter packageFilter).1 = .error error
  member : package ∈ packages
  needed : (workspace.reclassified packageFilter).Needed package.name
  unreadable : PackageContents.ofPackage tree package = .error error

/-- A filter of available packages comes to one of the two. -/
theorem filter_cases (h : IsRead tree packages workspace)
    (hnames : ∀ name ∈ packageFilter.exactNames, workspace.isAvailable name = true) :
    (∃ names, Selecting tree packages workspace packageFilter names) ∨
      ∃ package error, Failing tree packages workspace packageFilter package error := by
  have hfilter := filter_eq_finish h.parsed hnames
  have hspec := needed_spec (isKnown_reclassified (h.reachable.intact.parsed h.parsed) packageFilter)
  cases hsearch : (workspace.reclassified packageFilter).needed with
  | ok names =>
    rw [hsearch] at hspec hfilter
    rcases hspec with ⟨hmembers, hreadable⟩
    refine .inl ⟨names, hfilter, hmembers, fun package hpackage hneeded => ?_⟩
    cases hread : PackageContents.ofPackage tree package with
    | ok contents => exact ⟨contents, rfl⟩
    | error error =>
      have hfailure := h.failure_iff.mpr ⟨package, hpackage, rfl, hread⟩
      have hnone : workspace.failures.lookup package.name = none :=
        hreadable package.name ((hmembers _).mpr hneeded)
      rw [hnone] at hfailure
      cases hfailure
  | error name =>
    rw [hsearch] at hspec hfilter
    rcases hspec with ⟨hneeded, hfailed⟩
    rcases Option.isSome_iff_exists.mp hfailed with ⟨error, herror⟩
    rcases h.failure_iff.mp herror with ⟨package, hpackage, rfl, hread⟩
    refine .inr ⟨package, error, ?_, hpackage, hneeded, hread⟩
    rw [hfilter, finish, herror]
    rfl

end IsRead

end Workspace

/-! ## Commands -/

namespace Command

open PackageFolder PackageInfo

variable {tree : FileTree} {paths : SearchPaths} {main : List PackageFolder}
  {packageFilter : PackageFilter}

/-- The workspace of some packages before the filter. -/
def parsed (tree : FileTree) (packages : List PackageInfo) : Workspace :=
  Workspace.parse tree { available := packages }

theorem isRead_parsed (hmain : find tree paths.packagePath .mandatory = .ok main)
    {packages : List PackageInfo}
    (hread : ofFolders tree (foldersBehind tree paths main) = .ok packages) :
    (parsed tree packages).IsRead tree packages :=
  Workspace.isRead_parse tree (precedence_of_ofFolders hmain hread).distinct

/-- Where all folders could be read, the filter is what is left of loading. -/
theorem loadWorkspace_of_read (hmain : find tree paths.packagePath .mandatory = .ok main)
    {packages : List PackageInfo}
    (hread : ofFolders tree (foldersBehind tree paths main) = .ok packages) :
    loadWorkspace tree paths packageFilter =
      (((parsed tree packages).filter packageFilter).1.mapError CommandError.workspace).map
        fun _ => ((parsed tree packages).filter packageFilter).2 := by
  rw [loadWorkspace_eq, assemble_of_find hmain, hread]
  show ((parsed tree packages).filter packageFilter).1.mapError CommandError.workspace >>=
    (fun _ => pure ((parsed tree packages).filter packageFilter).2) = _
  cases ((parsed tree packages).filter packageFilter).1 with
  | error error => rfl
  | ok => rfl

/-- Where a folder could not be read, there is nothing to be filtered. -/
theorem loadWorkspace_of_unreadable (hmain : find tree paths.packagePath .mandatory = .ok main)
    {error : PackageError}
    (hread : ofFolders tree (foldersBehind tree paths main) = .error error) :
    loadWorkspace tree paths packageFilter = .error (.workspace (.package error)) := by
  rw [loadWorkspace_eq, assemble_of_find hmain, hread]
  rfl

end Command

end RosInterface
