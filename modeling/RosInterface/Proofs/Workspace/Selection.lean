import RosInterface.Proofs.Workspace.Parsing

namespace RosInterface

/-! # Selections

A filter that succeeds selects the needed packages, each with its own contents. Such a `Selection`
is closed: what the contents of a member refer to is a member as well, unless no such package is
available.
-/

/-! ## Reclassification -/

/-- A filter changes no more about a package than whether it is optional. -/
theorem PackageFilter.exists_of_mem_reclassify {packageFilter : PackageFilter}
    {packages : List PackageInfo} {package : PackageInfo}
    (hmem : package ∈ packageFilter.reclassify packages) :
    ∃ original ∈ packages, ∃ isOptional, package = { original with isOptional } := by
  unfold reclassify at hmem
  split at hmem
  · exact ⟨package, hmem, package.isOptional, rfl⟩
  · rcases List.mem_map.mp hmem with ⟨original, horiginal, rfl⟩
    exact ⟨original, horiginal, _, rfl⟩

theorem PackageFilter.map_name_reclassify (packageFilter : PackageFilter)
    (packages : List PackageInfo) :
    (packageFilter.reclassify packages).map (·.name) = packages.map (·.name) := by
  unfold reclassify
  split
  · rfl
  · rw [List.map_map]
    rfl

/-- Contents account for a package whether it is optional or not. -/
theorem PackageContents.Accounts.reclassified {package : PackageInfo} {contents : PackageContents}
    (h : contents.Accounts package) (isOptional : Bool) :
    contents.Accounts { package with isOptional } :=
  ⟨h.own, h.slashless, h.uses, h.collects⟩

namespace Workspace

variable {workspace : Workspace}

/-- A workspace whose packages are mandatory or optional as a filter has it. -/
def reclassified (workspace : Workspace) (packageFilter : PackageFilter) : Workspace :=
  { workspace with available := packageFilter.reclassify workspace.available }

theorem isAvailable_reclassified (packageFilter : PackageFilter) (name : String) :
    (workspace.reclassified packageFilter).isAvailable name = workspace.isAvailable name := by
  rw [Bool.eq_iff_iff, isAvailable_iff, isAvailable_iff]
  have hnames := packageFilter.map_name_reclassify workspace.available
  have hmem : name ∈ (packageFilter.reclassify workspace.available).map (·.name) ↔
      name ∈ workspace.available.map (·.name) := by rw [hnames]
  rwa [List.mem_map, List.mem_map] at hmem

/-- A filter looks at packages as they were read. -/
theorem isKnown_reclassified (hknown : ∀ name, workspace.isKnown name = workspace.isAvailable name)
    (packageFilter : PackageFilter) (name : String) :
    (workspace.reclassified packageFilter).isKnown name =
      (workspace.reclassified packageFilter).isAvailable name := by
  rw [isAvailable_reclassified]
  exact hknown name

theorem Coherent.reclassified (h : workspace.Coherent) (packageFilter : PackageFilter) :
    (workspace.reclassified packageFilter).Coherent := by
  refine ⟨?_, h.storedOnce, ?_, ?_, h.remembered⟩
  · exact (packageFilter.map_name_reclassify workspace.available).symm ▸ h.distinct
  · intro name hname
    rw [isAvailable_reclassified]
    exact h.stored name hname
  · intro package hmem contents hcontents
    rcases PackageFilter.exists_of_mem_reclassify hmem with ⟨original, horiginal, isOptional, rfl⟩
    exact (h.accounts original horiginal contents hcontents).reclassified isOptional

/-! ## What a filter does -/

/-- A workspace with the named packages selected. -/
def selecting (workspace : Workspace) (names : List String) : Workspace :=
  let selected := (workspace.available.filter (names.contains ·.name)).map workspace.select
  { workspace with
    selected
    registry := selected.foldl (fun r p => r.markBuilt p.name) workspace.registry
    stage := .filtered }

/-- A workspace that forgets why a package could not be read, and goes back to the beginning. -/
def dropping (workspace : Workspace) (name : String) : Workspace :=
  { workspace with
    failures := eraseName name workspace.failures
    selected := []
    stage := .discovered }

/-- What a filter does with the outcome of the search for needed packages. -/
def finish (workspace : Workspace) : Except String (List String) →
    Except WorkspaceError Unit × Workspace
  | .error name =>
    (.error ((workspace.failures.lookup name).getD (.missingPackage name)),
      workspace.dropping name)
  | .ok names => (.ok (), workspace.selecting names)

/-- A filter is rejected, or else it searches the reclassified packages. -/
theorem filter_eq (workspace : Workspace) (packageFilter : PackageFilter) :
    workspace.filter packageFilter =
      if !workspace.stage.hasParsed then
        (.error (.invalidStage .parsed workspace.stage), workspace)
      else
        match packageFilter.exactNames.find? (!workspace.isAvailable ·) with
        | some name => (.error (.missingPackage name), workspace)
        | none => (workspace.reclassified packageFilter).finish
            (workspace.reclassified packageFilter).needed := by
  have hfold : ({ workspace with available := packageFilter.reclassify workspace.available } :
    Workspace) = workspace.reclassified packageFilter := rfl
  unfold filter
  cases workspace.stage.hasParsed with
  | false => rfl
  | true =>
    cases packageFilter.exactNames.find? (!workspace.isAvailable ·) with
    | some name => rfl
    | none =>
      simp only [Bool.not_true, Bool.false_eq_true, if_false, hfold]
      cases (workspace.reclassified packageFilter).needed with
      | error name => rfl
      | ok names => rfl

/-- A filter that is not rejected came late enough, and all packages that it names are there. -/
theorem filter_cases (workspace : Workspace) (packageFilter : PackageFilter) :
    (∃ error, workspace.filter packageFilter = (.error error, workspace)) ∨
      (workspace.stage.hasParsed = true ∧
        (∀ name ∈ packageFilter.exactNames, workspace.isAvailable name = true) ∧
        workspace.filter packageFilter = (workspace.reclassified packageFilter).finish
          (workspace.reclassified packageFilter).needed) := by
  rw [filter_eq]
  cases workspace.stage.hasParsed with
  | false => exact Or.inl ⟨_, rfl⟩
  | true =>
    cases hexact : packageFilter.exactNames.find? (!workspace.isAvailable ·) with
    | some name => exact Or.inl ⟨_, rfl⟩
    | none =>
      refine Or.inr ⟨rfl, ?_, rfl⟩
      intro name hmem
      simpa using List.find?_eq_none.mp hexact name hmem

theorem hasParsed_parse (workspace : Workspace) (tree : FileTree) :
    (workspace.parse tree).stage.hasParsed = true := by
  unfold parse
  cases hparsed : workspace.stage.hasParsed with
  | true => exact hparsed
  | false => rfl

/-- Packages are read before they are selected. -/
theorem hasParsed_of_canOrder {stage : Stage} (h : stage.canOrder = true) :
    stage.hasParsed = true := by
  revert h
  cases stage <;> decide

/-- A filter that succeeds leaves the workspace ready to be ordered. -/
theorem canOrder_of_filter {packageFilter : PackageFilter}
    (hok : (workspace.filter packageFilter).1 = .ok ()) :
    (workspace.filter packageFilter).2.stage.canOrder = true := by
  rcases filter_cases workspace packageFilter with ⟨error, hfilter⟩ | ⟨-, -, hfilter⟩
  · rw [hfilter] at hok
    cases hok
  · rw [hfilter] at hok ⊢
    revert hok
    cases (workspace.reclassified packageFilter).needed with
    | error name => intro hok; cases hok
    | ok names => intro _; rfl

/-! ## Selections -/

/-- The selected packages are distinct, come with their stored contents, and are closed under
dependencies on available packages. -/
structure Selection (workspace : Workspace) : Prop where
  distinct : (workspace.selected.map (·.name)).Nodup
  stored : ∀ package ∈ workspace.selected,
    workspace.contents? package.name = some package.contents
  accounts : ∀ package ∈ workspace.selected, package.contents.Accounts package.info
  closed : ∀ package ∈ workspace.selected, ∀ used ∈ package.contents.dependencies,
    workspace.isAvailable used = true → used ∈ workspace.selected.map (·.name)

theorem map_name_selecting (workspace : Workspace) (names : List String) :
    (workspace.selecting names).selected.map (·.name) =
      (workspace.available.filter (names.contains ·.name)).map (·.name) := by
  unfold selecting
  rw [List.map_map]
  rfl

/-- Selecting packages flags them. -/
theorem registry_selecting (workspace : Workspace) (names : List String) :
    (workspace.selecting names).registry =
      ((workspace.selecting names).selected.map (·.name)).foldl Registry.markBuilt
        workspace.registry := by
  rw [List.foldl_map]
  rfl

/-- A needed package without a failure has contents. -/
theorem exists_contents_of_readable {name : String} (hknown : workspace.isKnown name = true)
    (hreadable : workspace.failures.lookup name = none) :
    ∃ contents, workspace.contents? name = some contents := by
  rw [isKnown, hreadable, Option.isSome_none, Bool.or_false] at hknown
  exact Option.isSome_iff_exists.mp hknown

theorem Needed.isAvailable {name : String} (h : workspace.Needed name) :
    workspace.isAvailable name = true := by
  cases h with
  | mandatory available _ => exact isAvailable_iff.mpr ⟨_, available, rfl⟩
  | dependency _ _ _ available => exact available

theorem mem_selecting_iff {names : List String}
    (hneeded : ∀ name, name ∈ names ↔ workspace.Needed name) {name : String} :
    name ∈ (workspace.selecting names).selected.map (·.name) ↔ workspace.Needed name := by
  rw [map_name_selecting, List.mem_map]
  constructor
  · rintro ⟨package, hpackage, rfl⟩
    rw [List.mem_filter, List.contains_iff_mem] at hpackage
    exact (hneeded _).mp hpackage.2
  · intro h
    rcases isAvailable_iff.mp h.isAvailable with ⟨package, hpackage, rfl⟩
    refine ⟨package, ?_, rfl⟩
    rw [List.mem_filter, List.contains_iff_mem]
    exact ⟨hpackage, (hneeded _).mpr h⟩

/-- Where the needed packages could all be read, they form a selection. -/
theorem Coherent.selection (h : workspace.Coherent)
    (hknown : ∀ name, workspace.isKnown name = workspace.isAvailable name) {names : List String}
    (hneeded : workspace.needed = .ok names) : (workspace.selecting names).Selection := by
  have hspec := needed_spec hknown
  rw [hneeded] at hspec
  rcases hspec with ⟨hnames, hreadable⟩
  -- Selected packages are needed, so they could be read and come with what was read.
  have hstored : ∀ package ∈ (workspace.selecting names).selected,
      workspace.contents? package.name = some package.contents ∧
        ∃ original ∈ workspace.available,
          package.info = { original with isOptional := false } := by
    intro package hpackage
    rcases List.mem_map.mp hpackage with ⟨original, horiginal, rfl⟩
    rw [List.mem_filter, List.contains_iff_mem] at horiginal
    rcases horiginal with ⟨havailable, hname⟩
    have hknown' : workspace.isKnown original.name = true :=
      (hknown _).trans (isAvailable_iff.mpr ⟨original, havailable, rfl⟩)
    rcases exists_contents_of_readable hknown' (hreadable _ hname) with ⟨contents, hcontents⟩
    refine ⟨?_, original, havailable, rfl⟩
    show workspace.contents? original.name = some ((workspace.contents? original.name).getD _)
    rw [hcontents]
    rfl
  refine ⟨?_, fun package hpackage => (hstored package hpackage).1, ?_, ?_⟩
  · rw [map_name_selecting]
    exact h.distinct.sublist (List.filter_sublist.map _)
  · intro package hpackage
    rcases hstored package hpackage with ⟨hcontents, original, horiginal, hinfo⟩
    have hname : package.name = original.name := by rw [SelectedPackage.name, hinfo]
    rw [hinfo]
    exact (h.accounts original horiginal _ (hname ▸ hcontents)).reclassified false
  · intro package hpackage used hused havailable
    have hname : package.name ∈ (workspace.selecting names).selected.map (·.name) :=
      List.mem_map.mpr ⟨package, hpackage, rfl⟩
    rw [mem_selecting_iff hnames] at hname ⊢
    exact .dependency hname (hstored package hpackage).1 hused havailable

end Workspace

end RosInterface
