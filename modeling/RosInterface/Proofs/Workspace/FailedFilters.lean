import RosInterface.Proofs.Workspace.Forgetting

namespace RosInterface

/-! # Filters that fail

A filter fails in one of two ways. It is rejected before anything is looked at, or it needs a package
that could not be read. A rejection changes nothing. In the other case the filter has decided by then
which packages are mandatory, and this stays:

* `Reachable.failure` tells the two apart by the error, since what is stored as a failure is never the
  error of a rejection;
* `Failure.filter_after` says that the empty filter does afterwards what the failed filter does, and
  `Failure.fails_again` that it fails in the same way if the definition files are the same.

`failed_filter_stays_in_force` puts this together, and says when the failed filter has left the
classification of the packages alone.
-/

/-- The error rejects a filter: the filter came too early, or it names a package that is not there. -/
def WorkspaceError.IsRejection : WorkspaceError → Prop
  | invalidStage _ _ | missingPackage _ => True
  | _ => False

/-- A package that cannot be read has a file that cannot be read, or that is no definition file. -/
theorem PackageContents.not_isRejection_of_ofPackage {tree : FileTree} {package : PackageInfo}
    {error : WorkspaceError} (hread : ofPackage tree package = .error error) :
    ¬ error.IsRejection := by
  unfold ofPackage at hread
  split at hread
  · cases hread
  · rcases bind_eq_error_iff.mp hread with hfile | ⟨messages, -, hdone⟩
    · rcases exists_of_mapM_eq_error hfile with ⟨file, -, hfails⟩
      rcases bind_eq_error_iff.mp hfails with htext | ⟨text, -, hdefinition⟩
      · rcases mapError_eq_error_iff.mp htext with ⟨cause, -, rfl⟩
        exact id
      · rcases mapError_eq_error_iff.mp hdefinition with ⟨cause, -, rfl⟩
        exact id
    · cases hdone

namespace PackageFilter

/-- A filter leaves the classification alone if it has no terms, or agrees with it on each package. -/
theorem reclassify_eq_self_iff {packageFilter : PackageFilter} {packages : List PackageInfo} :
    packageFilter.reclassify packages = packages ↔ packageFilter.isEmpty = true ∨
      ∀ package ∈ packages, package.isOptional = !packageFilter.isMatch package.name := by
  unfold reclassify
  cases packageFilter.isEmpty with
  | true => simp
  | false =>
    rw [if_neg Bool.false_ne_true, or_iff_right Bool.false_ne_true]
    induction packages with
    | nil => simp
    | cons package rest ih =>
      rw [List.map_cons, List.cons.injEq, ih, List.forall_mem_cons]
      refine and_congr_left fun _ => ?_
      rw [PackageInfo.mk.injEq]
      simp [eq_comm]

theorem reclassify_empty (packages : List PackageInfo) :
    PackageFilter.reclassify {} packages = packages :=
  reclassify_eq_self_iff.mpr (Or.inl rfl)

end PackageFilter

namespace Workspace

variable {workspace : Workspace} {packageFilter : PackageFilter} {error : WorkspaceError}

/-! ## Two kinds of failure -/

/-- What is stored as a failure is an outcome of reading some package. -/
theorem Reachable.not_isRejection (h : workspace.Reachable) {name : String}
    (hfailure : workspace.failures.lookup name = some error) : ¬ error.IsRejection := by
  induction h generalizing name with
  | empty => cases hfailure
  | add _ added ih =>
    rcases add_eq_ok_iff.mp added with ⟨-, rfl⟩
    exact ih hfailure
  | @parse before _ tree ih =>
    -- Reading one package after the other, each adds at most its own failure.
    have hpackages : ∀ (packages : List PackageInfo) {start : Workspace},
        (∀ {name : String}, start.failures.lookup name = some error → ¬ error.IsRejection) →
        (packages.foldl (Workspace.parsePackage tree) start).failures.lookup name = some error →
          ¬ error.IsRejection := by
      intro packages
      induction packages with
      | nil => exact fun hstart hlast => hstart hlast
      | cons package rest ihRest =>
        intro start hstart hlast
        refine ihRest ?_ hlast
        intro other hother
        rcases failure_parsePackage hother with hold | ⟨-, hread⟩
        · exact hstart hold
        · exact PackageContents.not_isRejection_of_ofPackage hread
    unfold Workspace.parse at hfailure
    split at hfailure
    · exact ih hfailure
    · exact hpackages before.available (fun hother => ih hother) hfailure
  | @filter before _ packageFilter ih =>
    rcases filter_cases before packageFilter with ⟨rejection, hfilter⟩ | ⟨-, -, hfilter⟩
    · rw [hfilter] at hfailure
      exact ih hfailure
    · rw [hfilter] at hfailure
      cases hneeded : (before.reclassified packageFilter).needed with
      | error culprit =>
        rw [hneeded] at hfailure
        exact ih (of_lookup_eraseName hfailure)
      | ok names =>
        rw [hneeded] at hfailure
        exact ih hfailure
  | @order before _ ih =>
    rcases order_frame before with ⟨orderer, hsame | ⟨-, hordered⟩⟩
    · rw [hsame] at hfailure
      exact ih hfailure
    · rw [hordered] at hfailure
      exact ih hfailure

/-- A filter that was not rejected got as far as the search for needed packages, and met one that
could not be read. -/
structure Failure (workspace : Workspace) (packageFilter : PackageFilter) (error : WorkspaceError)
    (name : String) : Prop where
  parsed : workspace.stage.hasParsed = true
  available : ∀ name ∈ packageFilter.exactNames, workspace.isAvailable name = true
  search : (workspace.reclassified packageFilter).needed = .error name
  needed : (workspace.reclassified packageFilter).Needed name
  stored : workspace.failures.lookup name = some error
  after : (workspace.filter packageFilter).2 = (workspace.reclassified packageFilter).dropping name

/-- The error tells whether a filter was rejected. -/
theorem Reachable.failure (h : workspace.Reachable)
    (hfails : (workspace.filter packageFilter).1 = .error error) :
    (error.IsRejection ∧ (workspace.filter packageFilter).2 = workspace) ∨
      (¬ error.IsRejection ∧ ∃ name, workspace.Failure packageFilter error name) := by
  cases hparsed : workspace.stage.hasParsed with
  | false =>
    rw [filter_eq, hparsed] at hfails ⊢
    cases hfails
    exact Or.inl ⟨trivial, rfl⟩
  | true =>
    cases hexact : packageFilter.exactNames.find? (!workspace.isAvailable ·) with
    | some name =>
      rw [filter_eq, hparsed, hexact] at hfails ⊢
      cases hfails
      exact Or.inl ⟨trivial, rfl⟩
    | none =>
      have havailable : ∀ name ∈ packageFilter.exactNames, workspace.isAvailable name = true := by
        intro name hname
        simpa using List.find?_eq_none.mp hexact name hname
      have hfilter := filter_eq_finish hparsed havailable
      cases hsearch : (workspace.reclassified packageFilter).needed with
      | ok names =>
        rw [hfilter, hsearch] at hfails
        cases hfails
      | error name =>
        rw [hsearch] at hfilter
        have hspec := needed_spec (isKnown_reclassified (h.intact.parsed hparsed) packageFilter)
        rw [hsearch] at hspec
        rcases hspec with ⟨hneeded, hfailed⟩
        rcases Option.isSome_iff_exists.mp hfailed with ⟨cause, hcause⟩
        -- The error is what was stored for the needed package.
        have hsame : cause = error := by
          rw [hfilter, finish, hcause] at hfails
          exact Except.error.inj hfails
        subst hsame
        refine Or.inr ⟨h.not_isRejection hcause, name, hparsed, havailable, hsearch, hneeded, hcause,
          ?_⟩
        rw [hfilter]
        rfl

/-! ## What comes after a failure -/

theorem reclassified_eq_self (hclassified : packageFilter.reclassify workspace.available =
    workspace.available) : workspace.reclassified packageFilter = workspace := by
  rw [Workspace.mk.injEq]
  exact ⟨hclassified, rfl, rfl, rfl, rfl, rfl, rfl⟩

theorem reclassified_empty (workspace : Workspace) : workspace.reclassified {} = workspace :=
  reclassified_eq_self (PackageFilter.reclassify_empty workspace.available)

/-- The empty filter selects what is mandatory already. -/
theorem filter_empty (hparsed : workspace.stage.hasParsed = true) :
    workspace.filter {} = workspace.finish workspace.needed := by
  rw [filter_eq_finish hparsed (fun _ hname => absurd hname List.not_mem_nil), reclassified_empty]

variable {name : String}

/-- Reading the definition files again leaves the packages as the failed filter has classified
them. -/
theorem Failure.packages_parse (h : workspace.Failure packageFilter error name)
    (hcoherent : workspace.Coherent) (tree : FileTree) :
    ((workspace.filter packageFilter).2.parse tree).available =
      packageFilter.reclassify workspace.available := by
  rw [h.after]
  exact available_parse ((hcoherent.reclassified packageFilter).dropping name) tree

/-- The failed filter is still in force: once the definition files were read again, whatever they are
by then, the empty filter does the same as that filter. -/
theorem Failure.filter_after (h : workspace.Failure packageFilter error name)
    (hcoherent : workspace.Coherent) (tree : FileTree) :
    ((workspace.filter packageFilter).2.parse tree).filter {} =
      ((workspace.filter packageFilter).2.parse tree).filter packageFilter := by
  have hkept := h.packages_parse hcoherent tree
  have hparsed := hasParsed_parse (workspace.filter packageFilter).2 tree
  have hclassified : packageFilter.reclassify
      ((workspace.filter packageFilter).2.parse tree).available =
        ((workspace.filter packageFilter).2.parse tree).available := by
    rw [hkept, reclassify_reclassify]
  have hnames : ∀ name ∈ packageFilter.exactNames,
      ((workspace.filter packageFilter).2.parse tree).isAvailable name = true := by
    intro name hname
    have havailable := (isAvailable_reclassified packageFilter name).trans (h.available name hname)
    rw [isAvailable, hkept]
    exact havailable
  rw [filter_empty hparsed, filter_eq_finish hparsed hnames, reclassified_eq_self hclassified]

/-- With the same definition files the empty filter fails as the failed filter did. -/
theorem Failure.fails_again (h : workspace.Failure packageFilter error name)
    (hreachable : workspace.Reachable) {tree : FileTree} (hread : workspace.ReadFrom tree) :
    (((workspace.filter packageFilter).2.parse tree).filter {}).1 = .error error := by
  let again := (workspace.filter packageFilter).2.parse tree
  have hfiltered := hreachable.filter packageFilter
  have hparsed : again.stage.hasParsed = true := hasParsed_parse _ tree
  have hkept : again.available = (workspace.reclassified packageFilter).available :=
    h.packages_parse hreachable.intact.coherent tree
  -- Both workspaces have read all packages from the tree, and so they know the same about them.
  have hreadFiltered : (workspace.perform (.filter packageFilter)).ReadFrom tree :=
    hread.perform hreachable.intact.coherent nofun
  have hreadAgain : ((workspace.perform (.filter packageFilter)).perform (.parse tree)).ReadFrom
      tree :=
    hreadFiltered.perform hfiltered.intact.coherent fun _ hother => (Operation.parse.inj hother).symm
  have halike : Alike again workspace :=
    alike_of_readFrom hreadAgain hread (hfiltered.parse tree).orderly hreachable.orderly hparsed
      h.parsed (by rw [hkept]; exact map_chosen_reclassify packageFilter workspace.available)
  have hclassified : Alike again (workspace.reclassified packageFilter) :=
    ⟨congrArg (List.map chosen) hkept, halike.contents, halike.failures⟩
  have hsearch : again.needed = .error name := (hclassified.needed_eq hkept).trans h.search
  have hstored : again.failures.lookup name = some error := (halike.failures name).trans h.stored
  rw [filter_empty hparsed, hsearch, finish, hstored]
  rfl

/-! ## The classification -/

/-- A filter that fails with a rejection leaves the workspace as it was. Any other failure is that of
a needed package that could not be read, and all that changes apart from the stage, the selection and
this failure is which packages are optional. It stays the same only if the filter has no terms or
agrees with it on every package. What the failed filter has decided stays in force: when the
definition files were read again, the empty filter does what the failed filter would do, and with the
same files it fails again. So it comes to what it would have come to without the failed filter if
that has left the packages alone. -/
theorem failed_filter_stays_in_force (h : workspace.Reachable)
    (hfails : (workspace.filter packageFilter).1 = .error error) :
    let after := (workspace.filter packageFilter).2
    (error.IsRejection → after = workspace) ∧
    (¬ error.IsRejection →
      (∃ name, (workspace.reclassified packageFilter).Needed name ∧
        workspace.failures.lookup name = some error ∧
        after = (workspace.reclassified packageFilter).dropping name) ∧
      (after.available = workspace.available ↔ packageFilter.isEmpty = true ∨
        ∀ package ∈ workspace.available,
          package.isOptional = !packageFilter.isMatch package.name) ∧
      (∀ tree, (after.parse tree).filter {} = (after.parse tree).filter packageFilter) ∧
      ∀ tree, workspace.ReadFrom tree →
        ((after.parse tree).filter {}).1 = .error error ∧
          (after.available = workspace.available →
            ((workspace.parse tree).filter {}).1 = .error error)) := by
  intro after
  rcases h.failure hfails with ⟨hrejection, hsame⟩ | ⟨hother, name, hfailure⟩
  · exact ⟨fun _ => hsame, fun hnot => absurd hrejection hnot⟩
  · have havailable : after.available = packageFilter.reclassify workspace.available :=
      congrArg Workspace.available hfailure.after
    refine ⟨fun hrejection => absurd hrejection hother, fun _ => ⟨?_, ?_, ?_, ?_⟩⟩
    · exact ⟨name, hfailure.needed, hfailure.stored, hfailure.after⟩
    · rw [havailable]
      exact PackageFilter.reclassify_eq_self_iff
    · exact hfailure.filter_after h.intact.coherent
    · intro tree hread
      refine ⟨hfailure.fails_again h hread, fun hkept => ?_⟩
      -- The packages are those that the failed filter has searched.
      have hsearch := hfailure.search
      rw [reclassified_eq_self (havailable.symm.trans hkept)] at hsearch
      rw [parse, if_pos hfailure.parsed, filter_empty hfailure.parsed, hsearch, finish,
        hfailure.stored]
      rfl

/-- A mandatory package that can be read, and an optional one that cannot. -/
def heldBack : List Operation :=
  [.add (examplePackage "a" [⟨⟨"C.msg"⟩, .message⟩] false),
    .add (examplePackage "d" [⟨⟨"D.msg"⟩, .message⟩] true), .parse cyclicTree]

/-- Why the second one cannot be read. -/
def heldBackError : WorkspaceError :=
  .definition ⟨"d", "D.msg", 1, "expected a name after type broken"⟩

/-- Naming the package that cannot be read fails, and so does the empty filter from then on. -/
theorem heldBack_fails_again :
    let workspace := performAll {} heldBack
    let packageFilter := PackageFilter.ofTexts ["d"]
    let after := (workspace.filter packageFilter).2
    workspace.Reachable ∧ (workspace.filter packageFilter).1 = .error heldBackError ∧
      ¬ heldBackError.IsRejection ∧ after.available ≠ workspace.available ∧
      (after.parse cyclicTree).filter {} = (after.parse cyclicTree).filter packageFilter ∧
      workspace.ReadFrom cyclicTree ∧
      ((after.parse cyclicTree).filter {}).1 = .error heldBackError := by
  intro workspace packageFilter after
  have hreachable : workspace.Reachable := reachable_performAll heldBack
  have hread : workspace.ReadFrom cyclicTree := by
    refine readFrom_performAll fun other hother => ?_
    simpa [heldBack] using hother
  have hfails : (workspace.filter packageFilter).1 = .error heldBackError := by decide +kernel
  have hother : ¬ heldBackError.IsRejection := id
  obtain ⟨-, hfailure⟩ := failed_filter_stays_in_force hreachable hfails
  obtain ⟨-, hkept, hsame, hagain⟩ := hfailure hother
  refine ⟨hreachable, hfails, hother, ?_, hsame cyclicTree, hread, (hagain cyclicTree hread).1⟩
  rw [Ne, hkept]
  decide +kernel

/-- Before that, the empty filter would have selected the package that can be read: the failed filter
has made it optional, and the other one mandatory. -/
theorem heldBack_reclassified :
    let workspace := performAll {} heldBack
    let failed := workspace.filter (.ofTexts ["d"])
    let flags (workspace : Workspace) :=
      workspace.available.map fun package => (package.name, package.isOptional)
    failed.1 = .error heldBackError ∧
      flags workspace = [("a", false), ("d", true)] ∧
      flags failed.2 = [("a", true), ("d", false)] ∧
      ((workspace.parse cyclicTree).filter {}).1 = .ok () ∧
      ((workspace.parse cyclicTree).filter {}).2.selected.map (·.name) = ["a"] ∧
      ((failed.2.parse cyclicTree).filter {}).1 = .error heldBackError := by
  decide +kernel

end Workspace

end RosInterface
