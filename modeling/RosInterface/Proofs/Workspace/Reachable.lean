import RosInterface.Proofs.Workspace.Selection

namespace RosInterface.Workspace

/-! # What holds of every workspace

`Reachable` is every workspace that packages can be brought to: packages are added, definition files
read, filters applied and orders asked for, in any sequence and with any outcome. The invariant is
`Intact`: beside what holds in every stage, all packages are known once the definition files have
been read, and a selection is there once a filter has been applied.
-/

variable {workspace : Workspace}

/-- Neither depends on the stage, nor on which order is remembered. -/
theorem Coherent.reordered (h : workspace.Coherent) {orderer : BuildOrderer}
    (hremembers : orderer.Remembers) (stage : Stage) :
    Coherent { workspace with orderer, stage } :=
  ⟨h.distinct, h.storedOnce, h.stored, h.accounts, hremembers⟩

theorem Selection.reordered (h : workspace.Selection) (orderer : BuildOrderer) (stage : Stage) :
    Selection { workspace with orderer, stage } :=
  ⟨h.distinct, h.stored, h.accounts, h.closed⟩

/-- Coherent, and as far as the stage says it is. -/
structure Intact (workspace : Workspace) : Prop where
  coherent : workspace.Coherent
  parsed : workspace.stage.hasParsed = true →
    ∀ name, workspace.isKnown name = workspace.isAvailable name
  filtered : workspace.stage.canOrder = true → workspace.Selection

/-- Little is expected of a workspace at the beginning. -/
theorem Coherent.intact (h : workspace.Coherent) (hstage : workspace.stage = .discovered) :
    workspace.Intact := by
  refine ⟨h, ?_, ?_⟩
  · intro hparsed
    rw [hstage] at hparsed
    cases hparsed
  · intro hfiltered
    rw [hstage] at hfiltered
    cases hfiltered

theorem intact_empty : Intact {} :=
  coherent_empty.intact rfl

theorem Intact.add (h : workspace.Intact) {package : PackageInfo} {extended : Workspace}
    (hadd : workspace.add package = .ok extended) : extended.Intact := by
  have hcoherent := h.coherent.add hadd
  rcases add_eq_ok_iff.mp hadd with ⟨-, rfl⟩
  exact hcoherent.intact rfl

theorem Intact.parse (h : workspace.Intact) (tree : FileTree) : (workspace.parse tree).Intact := by
  unfold Workspace.parse
  cases hstage : workspace.stage.hasParsed with
  | true => exact h
  | false =>
    rw [if_neg Bool.false_ne_true]
    obtain ⟨hcoherent, havailable, hknown⟩ :=
      h.coherent.parsePackages tree (List.Subset.refl workspace.available)
    refine ⟨hcoherent.reordered hcoherent.remembered .parsed, ?_, ?_⟩
    · intro _ name
      rw [Bool.eq_iff_iff]
      constructor
      · intro hname
        exact hcoherent.stored name (isKnown_iff.mp hname)
      · intro hname
        rcases isAvailable_iff.mp hname with ⟨package, hpackage, rfl⟩
        refine isKnown_iff.mpr ((hknown _).mpr (Or.inr ?_))
        rw [← havailable]
        exact List.mem_map.mpr ⟨package, hpackage, rfl⟩
    · intro hfiltered
      cases hfiltered

theorem Coherent.dropping (h : workspace.Coherent) (name : String) :
    (workspace.dropping name).Coherent := by
  have hsub : (workspace.dropping name).knownNames.Sublist workspace.knownNames := by
    refine (List.Sublist.refl _).append ?_
    show ((eraseName name workspace.failures).map (·.1)).Sublist _
    rw [map_eraseName]
    exact List.filter_sublist
  exact ⟨h.distinct, h.storedOnce.sublist hsub, fun other hother => h.stored other
    (hsub.subset hother), h.accounts, h.remembered⟩

theorem Intact.filter (h : workspace.Intact) (packageFilter : PackageFilter) :
    (workspace.filter packageFilter).2.Intact := by
  have hcoherent := h.coherent.reclassified packageFilter
  rcases filter_cases workspace packageFilter with ⟨error, hfilter⟩ | ⟨hstage, -, hfilter⟩
  · rw [hfilter]
    exact h
  · rw [hfilter]
    have hknown := isKnown_reclassified (h.parsed hstage) packageFilter
    -- A filter that fails goes back to the beginning, where little is asked for.
    cases hneeded : (workspace.reclassified packageFilter).needed with
    | error name => exact (hcoherent.dropping name).intact rfl
    | ok names =>
      refine ⟨⟨hcoherent.distinct, hcoherent.storedOnce, hcoherent.stored, hcoherent.accounts,
        hcoherent.remembered⟩, fun _ => hknown, fun _ => hcoherent.selection hknown hneeded⟩

/-! ## Ordering -/

/-- An order that is found is that of the selected packages, whatever was remembered. -/
theorem order_eq_ok (h : workspace.Coherent) {packages : List SelectedPackage} {after : Workspace}
    (horder : workspace.order = (.ok packages, after)) :
    workspace.stage.canOrder = true ∧
      ∃ order, BuildOrder.sequence (workspace.selected.map SelectedPackage.unit) = .ok order ∧
        packages = order.filterMap (workspace.selected[·]?) := by
  -- A remembered order is what the sequence would be, so only the sequence matters.
  have houtcome := h.remembered.inOrder_eq SelectedPackage.unit workspace.selected
  unfold order at horder
  cases hstage : workspace.stage.canOrder with
  | false =>
    rw [hstage] at horder
    cases horder
  | true =>
    rw [hstage] at horder
    refine ⟨rfl, ?_⟩
    revert horder houtcome
    rcases workspace.orderer.inOrder SelectedPackage.unit workspace.selected with
      ⟨remaining | found, orderer⟩
    · intro horder _
      cases horder
    · intro horder houtcome
      cases horder
      cases hsequence : BuildOrder.sequence (workspace.selected.map SelectedPackage.unit) with
      | error remaining =>
        rw [hsequence] at houtcome
        cases houtcome
      | ok order =>
        rw [hsequence] at houtcome
        exact ⟨order, rfl, Except.ok.inj houtcome⟩

/-- The selected packages in an order in which each has what it depends on in front of it. -/
structure InOrder (workspace : Workspace) (packages : List SelectedPackage) : Prop where
  perm : packages.Perm workspace.selected
  first : ∀ before package after, packages = before ++ package :: after →
    ∀ used ∈ package.contents.dependencies, used ≠ package.name →
      workspace.isAvailable used = true → used ∈ before.map (·.name)

theorem Intact.inOrder (h : workspace.Intact) {packages : List SelectedPackage} {after : Workspace}
    (horder : workspace.order = (.ok packages, after)) : workspace.InOrder packages := by
  rcases order_eq_ok h.coherent horder with ⟨hstage, order, hsequence, rfl⟩
  rcases BuildOrderer.sequence_members hsequence with ⟨hperm, hfirst⟩
  refine ⟨hperm, ?_⟩
  intro before package after hsplit used hused hother havailable
  have hmem : package ∈ workspace.selected := by
    rw [← hperm.mem_iff, hsplit]
    simp
  exact hfirst before package after hsplit used hused hother
    ((h.filtered hstage).closed package hmem used hused havailable)

theorem Intact.order (h : workspace.Intact) : workspace.order.2.Intact := by
  have hremembers := h.coherent.remembered.inOrder SelectedPackage.unit workspace.selected
  unfold Workspace.order
  cases hstage : workspace.stage.canOrder with
  | false => exact h
  | true =>
    have hparsed := hasParsed_of_canOrder hstage
    revert hremembers
    rcases workspace.orderer.inOrder SelectedPackage.unit workspace.selected with
      ⟨remaining | found, orderer⟩
    · intro hremembers
      exact ⟨h.coherent.reordered hremembers _, h.parsed,
        fun hfiltered => (h.filtered hfiltered).reordered orderer _⟩
    · intro hremembers
      exact ⟨h.coherent.reordered hremembers _, fun _ => h.parsed hparsed,
        fun _ => (h.filtered hstage).reordered orderer _⟩

/-! ## Every workspace -/

/-- The workspaces that operations lead to. A failed addition leads nowhere new. -/
inductive Reachable : Workspace → Prop where
  | empty : Reachable {}
  | add {workspace extended : Workspace} {package : PackageInfo} (earlier : Reachable workspace)
      (added : workspace.add package = .ok extended) : Reachable extended
  | parse {workspace : Workspace} (earlier : Reachable workspace) (tree : FileTree) :
      Reachable (workspace.parse tree)
  | filter {workspace : Workspace} (earlier : Reachable workspace)
      (packageFilter : PackageFilter) : Reachable (workspace.filter packageFilter).2
  | order {workspace : Workspace} (earlier : Reachable workspace) : Reachable workspace.order.2

theorem Reachable.intact (h : workspace.Reachable) : workspace.Intact := by
  induction h with
  | empty => exact intact_empty
  | add _ added ih => exact ih.add added
  | parse _ tree ih => exact ih.parse tree
  | filter _ packageFilter ih => exact ih.filter packageFilter
  | order _ ih => exact ih.order

theorem contents?_parsePackages {tree : FileTree} {packages : List PackageInfo} {name : String}
    {contents : PackageContents}
    (hcontents : (packages.foldl (Workspace.parsePackage tree) workspace).contents? name =
      some contents) :
    workspace.contents? name = some contents ∨
      ∃ package, PackageContents.ofPackage tree package = .ok contents := by
  induction packages generalizing workspace with
  | nil => exact Or.inl hcontents
  | cons package rest ih =>
    rcases ih hcontents with hstored | hread
    · rcases contents?_parsePackage hstored with hold | ⟨-, hread⟩
      · exact Or.inl hold
      · exact Or.inr ⟨package, hread⟩
    · exact Or.inr hread

/-- Whatever is stored was read from the definition files of some package. -/
theorem Reachable.exists_read (h : workspace.Reachable) {name : String}
    {contents : PackageContents} (hcontents : workspace.contents? name = some contents) :
    ∃ tree package, PackageContents.ofPackage tree package = .ok contents := by
  induction h with
  | empty => cases hcontents
  | add _ added ih =>
    rcases add_eq_ok_iff.mp added with ⟨-, rfl⟩
    exact ih hcontents
  | @parse workspace _ tree ih =>
    unfold Workspace.parse at hcontents
    split at hcontents
    · exact ih hcontents
    · rcases @contents?_parsePackages workspace tree workspace.available name contents hcontents with
        hold | ⟨package, hread⟩
      · exact ih hold
      · exact ⟨tree, package, hread⟩
  | @filter workspace _ packageFilter ih =>
    rcases filter_cases workspace packageFilter with ⟨error, hfilter⟩ | ⟨-, -, hfilter⟩
    · rw [hfilter] at hcontents
      exact ih hcontents
    · rw [hfilter] at hcontents
      cases hneeded : (workspace.reclassified packageFilter).needed with
      | error failing =>
        rw [hneeded] at hcontents
        exact ih hcontents
      | ok names =>
        rw [hneeded] at hcontents
        exact ih hcontents
  | @order workspace _ ih =>
    refine ih ?_
    unfold Workspace.order at hcontents
    split at hcontents
    · exact hcontents
    · split at hcontents
      · exact hcontents
      · exact hcontents

theorem reachable_of_ofPackages {packages : List PackageInfo}
    (hpackages : ofPackages packages = .ok workspace) : workspace.Reachable := by
  suffices hfold : ∀ start : Workspace, start.Reachable →
      packages.foldlM add start = .ok workspace → workspace.Reachable from
    hfold {} .empty hpackages
  clear hpackages
  induction packages with
  | nil =>
    intro start hstart hfold
    cases hfold
    exact hstart
  | cons package rest ih =>
    intro start hstart hfold
    rw [List.foldlM_cons, bind_eq_ok_iff] at hfold
    rcases hfold with ⟨extended, hadd, hrest⟩
    exact ih extended (hstart.add hadd) hrest

/-- A package of which little more is known than its definition files. -/
def examplePackage (name : String) (messages : List MessageFile) (isOptional : Bool) :
    PackageInfo where
  name
  version := "1.0.0"
  isMetaPackage := false
  description := none
  projectUrl := none
  repositoryUrl := none
  authors := []
  dependencies := []
  directory := ⟨"/"⟩
  messages
  isOptional

end RosInterface.Workspace
