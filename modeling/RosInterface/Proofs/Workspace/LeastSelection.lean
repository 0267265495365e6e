import RosInterface.Proofs.Workspace.Reachable

namespace RosInterface.Workspace

/-! # Selections are least

A filter selects the needed packages and no others: `Needed` is the least set that has the
mandatory packages and, with each member that could be read, the available packages which this
member depends on.

* `Ends` is the search for these packages without a limit. Its derivations are finite, so that one
  for every workspace says that the search comes to an end, also where packages depend on one
  another in a cycle;
* `Selects` is what the selection then looks like, and `filter_selects_least` is the main statement.
-/

variable {workspace : Workspace}

/-! ## The search without a limit -/

/-- Where a search ends that looks at the pending packages one after the other, however many there
will be. -/
inductive Ends (workspace : Workspace) : Closure → Except String (List String) → Prop where
  | done (names : List String) : Ends workspace ⟨names, []⟩ (.ok names)
  | unreadable {names pending : List String} {name : String}
      (failed : (workspace.failures.lookup name).isSome = true) :
      Ends workspace ⟨names, name :: pending⟩ (.error name)
  | skip {names pending : List String} {name : String} {outcome : Except String (List String)}
      (readable : workspace.failures.lookup name = none)
      (missing : workspace.contents? name = none)
      (rest : Ends workspace ⟨names, pending⟩ outcome) :
      Ends workspace ⟨names, name :: pending⟩ outcome
  | look {names pending : List String} {name : String} {contents : PackageContents}
      {outcome : Except String (List String)}
      (readable : workspace.failures.lookup name = none)
      (found : workspace.contents? name = some contents)
      (rest : Ends workspace
        (contents.dependencies.foldl (Closure.need workspace) ⟨names, pending⟩) outcome) :
      Ends workspace ⟨names, name :: pending⟩ outcome

/-- A search whose limit is not below what is left to be looked at ends as one without a limit. -/
theorem ends_close {limit : Nat} {closure : Closure}
    (hlimit : workspace.unsettled closure ≤ limit) :
    workspace.Ends closure (workspace.close limit closure) := by
  rcases closure with ⟨names, pending⟩
  -- Each turn settles one package, which is one less for the limit.
  induction limit generalizing names pending with
  | zero =>
    cases pending with
    | nil => exact .done names
    | cons name pending =>
      rw [unsettled_cons] at hlimit
      exact absurd hlimit (Nat.not_succ_le_zero _)
  | succ limit ih =>
    cases pending with
    | nil => exact .done names
    | cons name pending =>
      rw [unsettled_cons] at hlimit
      have hfewer : workspace.unsettled ⟨names, pending⟩ ≤ limit := Nat.le_of_succ_le_succ hlimit
      rw [close]
      cases hfailure : workspace.failures.lookup name with
      | some error => exact .unreadable (by rw [hfailure]; rfl)
      | none =>
        cases hcontents : workspace.contents? name with
        | none => exact .skip hfailure hcontents (ih names pending hfewer)
        | some contents =>
          have hextends := extends_dependencies workspace contents.dependencies ⟨names, pending⟩
          exact .look hfailure hcontents (ih _ _ (Nat.le_trans hextends.settles hfewer))

/-- The search for needed packages comes to an end, whatever depends on what. -/
theorem ends_needed (workspace : Workspace) :
    workspace.Ends ⟨workspace.mandatory, workspace.mandatory.reverse⟩ workspace.needed :=
  ends_close (unsettled_needed_le workspace)

/-! ## What is selected -/

/-- An available package as it is once it is selected. -/
def chosen (package : PackageInfo) : PackageInfo :=
  { package with isOptional := false }

/-- Selected are the packages of a set, each once and in the order of the available ones. All of
them are mandatory, and come with what was read from them. -/
structure Selects (workspace : Workspace) (names : String → Prop)
    (selected : List SelectedPackage) : Prop where
  inOrder : (selected.map (·.info)).Sublist (workspace.available.map chosen)
  once : (selected.map (·.name)).Nodup
  members : ∀ name, name ∈ selected.map (·.name) ↔ names name
  mandatory : ∀ package ∈ selected, package.info.isOptional = false
  stored : ∀ package ∈ selected, workspace.contents? package.name = some package.contents

theorem map_info_selecting (workspace : Workspace) (names : List String) :
    (workspace.selecting names).selected.map (·.info) =
      (workspace.available.filter (names.contains ·.name)).map chosen := by
  unfold selecting
  rw [List.map_map]
  rfl

/-- The needed packages are what is selected when all of them could be read. -/
theorem Coherent.selects (h : workspace.Coherent)
    (hknown : ∀ name, workspace.isKnown name = workspace.isAvailable name) {names : List String}
    (hneeded : workspace.needed = .ok names) :
    workspace.Selects workspace.Needed (workspace.selecting names).selected := by
  have hselection := h.selection hknown hneeded
  have hspec := needed_spec hknown
  rw [hneeded] at hspec
  refine ⟨?_, hselection.distinct, fun name => mem_selecting_iff hspec.1, ?_, hselection.stored⟩
  · rw [map_info_selecting]
    exact List.filter_sublist.map chosen
  · intro package hpackage
    have hinfo : package.info ∈ (workspace.selecting names).selected.map (·.info) :=
      List.mem_map.mpr ⟨package, hpackage, rfl⟩
    rw [map_info_selecting] at hinfo
    rcases List.mem_map.mp hinfo with ⟨original, -, horiginal⟩
    rw [← horiginal]
    rfl

/-- A filter decides no more than which packages are optional, which makes no difference once they
are selected. -/
theorem map_chosen_reclassify (packageFilter : PackageFilter) (packages : List PackageInfo) :
    (packageFilter.reclassify packages).map chosen = packages.map chosen := by
  unfold PackageFilter.reclassify
  split
  · rfl
  · rw [List.map_map]
    rfl

theorem Selects.of_reclassified {packageFilter : PackageFilter} {names : String → Prop}
    {selected : List SelectedPackage}
    (h : (workspace.reclassified packageFilter).Selects names selected) :
    workspace.Selects names selected := by
  refine ⟨?_, h.once, h.members, h.mandatory, h.stored⟩
  rw [← map_chosen_reclassify packageFilter]
  exact h.inOrder

/-! ## Filters -/

/-- Where all packages could be read and a filter names available ones only, the filter has the
outcome of its search. -/
theorem filter_eq_finish (hparsed : workspace.stage.hasParsed = true)
    {packageFilter : PackageFilter}
    (hnames : ∀ name ∈ packageFilter.exactNames, workspace.isAvailable name = true) :
    workspace.filter packageFilter = (workspace.reclassified packageFilter).finish
      (workspace.reclassified packageFilter).needed := by
  have hall : packageFilter.exactNames.find? (!workspace.isAvailable ·) = none := by
    rw [List.find?_eq_none]
    intro name hname
    simpa using hnames name hname
  rw [filter_eq, hparsed, hall]
  rfl

/-- A filter that names available packages only selects what is needed once the packages are
reclassified. It comes to an end; it fails with the reason why a needed package could not be read if
there is such a package, and otherwise selects exactly the needed ones. -/
theorem filter_selects_least (h : workspace.Reachable)
    (hparsed : workspace.stage.hasParsed = true) {packageFilter : PackageFilter}
    (hnames : ∀ name ∈ packageFilter.exactNames, workspace.isAvailable name = true) :
    let classified := workspace.reclassified packageFilter
    let outcome := workspace.filter packageFilter
    classified.Ends ⟨classified.mandatory, classified.mandatory.reverse⟩ classified.needed ∧
    ((∃ name error, classified.Needed name ∧ workspace.failures.lookup name = some error ∧
        outcome.1 = .error error) ↔
      ∃ name, classified.Needed name ∧ (workspace.failures.lookup name).isSome = true) ∧
    ((¬ ∃ name, classified.Needed name ∧ (workspace.failures.lookup name).isSome = true) →
      outcome.1 = .ok () ∧ workspace.Selects classified.Needed outcome.2.selected) := by
  intro classified outcome
  have hcoherent : classified.Coherent := h.intact.coherent.reclassified packageFilter
  have hknown : ∀ name, classified.isKnown name = classified.isAvailable name := by
    intro name
    rw [isAvailable_reclassified]
    exact h.intact.parsed hparsed name
  have hfilter : outcome = classified.finish classified.needed := filter_eq_finish hparsed hnames
  have hspec := needed_spec hknown
  refine ⟨ends_needed classified, ?_⟩
  cases hsearch : classified.needed with
  | ok names =>
    rw [hsearch] at hspec hfilter
    -- A search that succeeds has met all needed packages, and none of them had failed.
    have hfine : ¬ ∃ name, classified.Needed name ∧
        (workspace.failures.lookup name).isSome = true := by
      rintro ⟨name, hneeded, hfailed⟩
      have hreadable : workspace.failures.lookup name = none :=
        hspec.2 name ((hspec.1 name).mpr hneeded)
      rw [hreadable] at hfailed
      cases hfailed
    constructor
    · constructor
      · rintro ⟨name, error, -, -, herror⟩
        rw [hfilter] at herror
        cases herror
      · intro hfailed
        exact absurd hfailed hfine
    · intro _
      rw [hfilter]
      exact ⟨rfl, (hcoherent.selects hknown hsearch).of_reclassified⟩
  | error culprit =>
    rw [hsearch] at hspec hfilter
    rcases hspec with ⟨hneeded, hfailed⟩
    constructor
    · constructor
      · intro _
        exact ⟨culprit, hneeded, hfailed⟩
      · intro _
        rcases Option.isSome_iff_exists.mp hfailed with ⟨error, herror⟩
        refine ⟨culprit, error, hneeded, herror, ?_⟩
        rw [hfilter]
        show Except.error ((classified.failures.lookup culprit).getD _) = _
        rw [herror]
        rfl
    · intro hfine
      exact absurd ⟨culprit, hneeded, hfailed⟩ hfine

/-- The definition files of three packages: the first two depend on one another. -/
def cyclicTree : FileTree where
  root := .directory [("A.msg", .file "b/B x\n".toUTF8), ("B.msg", .file "a/C y\n".toUTF8),
    ("C.msg", .file "int8 z\n".toUTF8), ("D.msg", .file "broken\n".toUTF8)]

/-- Two packages that depend on one another, and one that cannot be read. -/
def cyclicPackages : List PackageInfo :=
  [examplePackage "d" [⟨⟨"D.msg"⟩, .message⟩] false,
    examplePackage "b" [⟨⟨"B.msg"⟩, .message⟩] false,
    examplePackage "a" [⟨⟨"A.msg"⟩, .message⟩, ⟨⟨"C.msg"⟩, .message⟩] false]

/-- The filter that names one of them. -/
def cyclicFilter : PackageFilter :=
  .ofTexts ["a"]

/-- Both packages of the cycle are selected, in the order in which they were discovered, and the one
that cannot be read is left alone. -/
theorem cyclicPackages_selected :
    let parsed := parse cyclicTree { available := cyclicPackages }
    let outcome := parsed.filter cyclicFilter
    parsed.Reachable ∧ parsed.stage.hasParsed = true ∧
      (∀ name ∈ cyclicFilter.exactNames, parsed.isAvailable name = true) ∧
      outcome.1 = .ok () ∧
      parsed.Selects (parsed.reclassified cyclicFilter).Needed outcome.2.selected ∧
      outcome.2.selected.map (·.name) = ["b", "a"] := by
  intro parsed outcome
  have hpackages : ofPackages cyclicPackages = .ok { available := cyclicPackages } :=
    ofPackages_eq_ok_iff.mpr ⟨by decide, rfl⟩
  have hreachable : parsed.Reachable := .parse (reachable_of_ofPackages hpackages) cyclicTree
  have hparsed : parsed.stage.hasParsed = true := by decide +kernel
  have hnames : ∀ name ∈ cyclicFilter.exactNames, parsed.isAvailable name = true := by
    decide +kernel
  have hok : outcome.1 = .ok () := by decide +kernel
  have hselected : outcome.2.selected.map (·.name) = ["b", "a"] := by decide +kernel
  rcases filter_selects_least hreachable hparsed hnames with ⟨-, hfails, hselects⟩
  -- The filter did not fail, so no needed package had.
  have hfine : ¬ ∃ name, (parsed.reclassified cyclicFilter).Needed name ∧
      (parsed.failures.lookup name).isSome = true := by
    intro hfailed
    rcases hfails.mpr hfailed with ⟨name, error, -, -, herror⟩
    rw [hok] at herror
    cases herror
  exact ⟨hreachable, hparsed, hnames, hok, (hselects hfine).2, hselected⟩

end RosInterface.Workspace
