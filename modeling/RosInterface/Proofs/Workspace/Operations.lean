import RosInterface.Proofs.Workspace.LeastSelection

namespace RosInterface.Workspace

/-! # Sequences of operations

Operations are performed one after the other on a workspace that is empty at first. Any of them may
fail, and the definition files may be different ones each time they are read. The main statement is
`performAll_orderly`: after every such sequence a package is known or selected as the stage says, and
the stage changes only as it may.

Most of it is known of every reachable workspace already. `Staged` adds what the selection looks like
in each stage.
-/

variable {workspace : Workspace}

/-! ## Operations -/

/-- What can be done to a workspace. Definition files are read from the tree as it is by then. -/
inductive Operation where
  | add (package : PackageInfo)
  | parse (tree : FileTree)
  | filter (packageFilter : PackageFilter)
  | order

/-- The workspace after an operation. An addition that is rejected leaves it alone, other failures
may not. -/
def perform (workspace : Workspace) : Operation → Workspace
  | .add package =>
    match workspace.add package with
    | .ok extended => extended
    | .error _ => workspace
  | .parse tree => workspace.parse tree
  | .filter packageFilter => (workspace.filter packageFilter).2
  | .order => workspace.order.2

/-- The workspace after operations that were performed one after the other. -/
def performAll (workspace : Workspace) (operations : List Operation) : Workspace :=
  operations.foldl perform workspace

theorem performAll_concat (workspace : Workspace) (operations : List Operation)
    (operation : Operation) :
    workspace.performAll (operations ++ [operation]) =
      (workspace.performAll operations).perform operation :=
  List.foldl_concat ..

theorem Reachable.perform (h : workspace.Reachable) (operation : Operation) :
    (workspace.perform operation).Reachable := by
  cases operation with
  | add package =>
    rw [Workspace.perform]
    cases hadd : workspace.add package with
    | error error => exact h
    | ok extended => exact h.add hadd
  | parse tree => exact h.parse tree
  | filter packageFilter => exact h.filter packageFilter
  | order => exact h.order

theorem reachable_performAll (operations : List Operation) :
    (performAll {} operations).Reachable := by
  induction operations using List.reverseRecOn with
  | nil => exact .empty
  | append_singleton operations operation ih =>
    rw [performAll_concat]
    exact ih.perform operation

/-- Ordering changes what the orderer remembers, and the stage if an order is found. -/
theorem order_frame (workspace : Workspace) :
    ∃ orderer, workspace.order.2 = { workspace with orderer } ∨
      (workspace.stage.canOrder = true ∧
        workspace.order.2 = { workspace with orderer, stage := .ordered }) := by
  unfold order
  cases workspace.stage.canOrder with
  | false => exact ⟨workspace.orderer, Or.inl rfl⟩
  | true =>
    rcases workspace.orderer.inOrder SelectedPackage.unit workspace.selected with
      ⟨remaining | found, orderer⟩
    · exact ⟨orderer, Or.inl rfl⟩
    · exact ⟨orderer, Or.inr ⟨rfl, rfl⟩⟩

/-! ## Stages -/

theorem canBecome_discovered {stage : Stage} (h : Stage.discovered ≠ stage) :
    stage.canBecome .discovered = true := by
  revert h
  cases stage <;> decide

theorem canBecome_filtered {stage : Stage} (h : stage.hasParsed = true) :
    stage.canBecome .filtered = true := by
  revert h
  cases stage <;> decide

theorem canBecome_ordered {stage : Stage} (h : stage.canOrder = true) :
    stage.canBecome .ordered = true := by
  revert h
  cases stage <;> decide

/-- An operation that changes the stage goes to one that may come next. -/
theorem canBecome_perform (workspace : Workspace) (operation : Operation)
    (hchanged : (workspace.perform operation).stage ≠ workspace.stage) :
    workspace.stage.canBecome (workspace.perform operation).stage = true := by
  cases operation with
  | add package =>
    rw [perform] at hchanged ⊢
    cases hadd : workspace.add package with
    | error error =>
      rw [hadd] at hchanged
      exact absurd rfl hchanged
    | ok extended =>
      rw [hadd] at hchanged
      rcases add_eq_ok_iff.mp hadd with ⟨-, rfl⟩
      exact canBecome_discovered hchanged
  | parse tree =>
    rw [perform, parse] at hchanged ⊢
    cases hstage : workspace.stage with
    | discovered => rfl
    | parsed | filtered | ordered =>
      rw [hstage] at hchanged
      exact absurd hstage hchanged
  | filter packageFilter =>
    rw [perform] at hchanged ⊢
    rcases filter_cases workspace packageFilter with ⟨error, hfilter⟩ | ⟨hparsed, -, hfilter⟩
    · rw [hfilter] at hchanged
      exact absurd rfl hchanged
    · -- Only a workspace whose definition files were read gets this far.
      rw [hfilter] at hchanged ⊢
      cases hneeded : (workspace.reclassified packageFilter).needed with
      | error name =>
        rw [hneeded] at hchanged
        exact canBecome_discovered hchanged
      | ok names => exact canBecome_filtered hparsed
  | order =>
    rw [perform] at hchanged ⊢
    rcases order_frame workspace with ⟨orderer, hsame | ⟨hstage, hordered⟩⟩
    · rw [hsame] at hchanged
      exact absurd rfl hchanged
    · rw [hordered]
      exact canBecome_ordered hstage

/-! ## Selections in each stage -/

/-- Nothing is selected before a filter was applied. From then on the selection is one of the
available packages, in their order and with their contents. -/
structure Staged (workspace : Workspace) : Prop where
  unselected : workspace.stage.canOrder = false → workspace.selected = []
  selects : workspace.stage.canOrder = true →
    workspace.Selects (· ∈ workspace.selected.map (·.name)) workspace.selected

theorem staged_of_unselected (hselected : workspace.selected = [])
    (hstage : workspace.stage.canOrder = false) : workspace.Staged := by
  refine ⟨fun _ => hselected, ?_⟩
  rw [hstage]
  exact fun hordered => absurd hordered Bool.false_ne_true

theorem selected_parsePackage (workspace : Workspace) (tree : FileTree) (package : PackageInfo) :
    (workspace.parsePackage tree package).selected = workspace.selected := by
  unfold parsePackage
  split
  · rfl
  · split
    · rfl
    · rfl

theorem selected_parsePackages (tree : FileTree) (packages : List PackageInfo) :
    (packages.foldl (parsePackage tree) workspace).selected = workspace.selected := by
  induction packages generalizing workspace with
  | nil => rfl
  | cons package rest ih =>
    rw [List.foldl_cons, ih, selected_parsePackage]

theorem Staged.parse (h : workspace.Staged) (tree : FileTree) : (workspace.parse tree).Staged := by
  unfold Workspace.parse
  cases hstage : workspace.stage with
  | discovered =>
    have hnone : workspace.selected = [] := h.unselected (by rw [hstage]; rfl)
    exact staged_of_unselected ((selected_parsePackages tree _).trans hnone) rfl
  | parsed => exact h
  | filtered => exact h
  | ordered => exact h

theorem Staged.filter (h : workspace.Staged) (hintact : workspace.Intact)
    (packageFilter : PackageFilter) : (workspace.filter packageFilter).2.Staged := by
  rcases filter_cases workspace packageFilter with ⟨error, hfilter⟩ | ⟨hparsed, -, hfilter⟩
  · rw [hfilter]
    exact h
  · rw [hfilter]
    cases hneeded : (workspace.reclassified packageFilter).needed with
    | error name => exact staged_of_unselected rfl rfl
    | ok names =>
      have hknown := isKnown_reclassified (hintact.parsed hparsed) packageFilter
      have hselects := (hintact.coherent.reclassified packageFilter).selects hknown hneeded
      refine ⟨fun hstage => absurd hstage.symm Bool.false_ne_true, fun _ => ?_⟩
      exact ⟨hselects.inOrder, hselects.once, fun _ => Iff.rfl, hselects.mandatory,
        hselects.stored⟩

theorem Selects.reordered {needed : String → Prop} {selected : List SelectedPackage}
    (h : workspace.Selects needed selected) (orderer : BuildOrderer) (stage : Stage) :
    ({ workspace with orderer, stage } : Workspace).Selects needed selected :=
  ⟨h.inOrder, h.once, h.members, h.mandatory, h.stored⟩

theorem Staged.order (h : workspace.Staged) : workspace.order.2.Staged := by
  rcases order_frame workspace with ⟨orderer, hsame | ⟨hstage, hordered⟩⟩
  · rw [hsame]
    exact ⟨h.unselected, fun hstage => (h.selects hstage).reordered orderer workspace.stage⟩
  · rw [hordered]
    constructor
    · intro hnot
      cases hnot
    · intro _
      exact (h.selects hstage).reordered orderer .ordered

theorem Reachable.staged (h : workspace.Reachable) : workspace.Staged := by
  induction h with
  | empty => exact staged_of_unselected rfl rfl
  | add _ added _ =>
    rcases add_eq_ok_iff.mp added with ⟨-, rfl⟩
    exact staged_of_unselected rfl rfl
  | parse _ tree ih => exact ih.parse tree
  | filter earlier packageFilter ih => exact ih.filter earlier.intact packageFilter
  | order _ ih => exact ih.order

/-! ## Orderly workspaces -/

/-- Selected are some of the available packages, each once and in their order. All of them are
mandatory and could be read, and what they depend on is selected with them if it is available. -/
structure SelectsClosed (workspace : Workspace) : Prop where
  inOrder : (workspace.selected.map (·.info)).Sublist (workspace.available.map chosen)
  once : (workspace.selected.map (·.name)).Nodup
  mandatory : ∀ package ∈ workspace.selected, package.info.isOptional = false
  stored : ∀ package ∈ workspace.selected,
    workspace.contents? package.name = some package.contents
  readable : ∀ package ∈ workspace.selected, workspace.failures.lookup package.name = none
  closed : ∀ package ∈ workspace.selected, ∀ used ∈ package.contents.dependencies,
    workspace.isAvailable used = true → used ∈ workspace.selected.map (·.name)

/-- Available packages have names of their own, at most one outcome of reading is stored for each of
them and none for others, and the stage says for which there is one and which are selected. -/
structure Orderly (workspace : Workspace) : Prop where
  distinct : (workspace.available.map (·.name)).Nodup
  apart : ∀ name, workspace.contents? name = none ∨ workspace.failures.lookup name = none
  available : ∀ name, workspace.isKnown name = true → workspace.isAvailable name = true
  parsed : workspace.stage.hasParsed = true → ∀ package ∈ workspace.available,
    ((workspace.contents? package.name).isSome ^^
      (workspace.failures.lookup package.name).isSome) = true
  unselected : workspace.stage.canOrder = false → workspace.selected = []
  selected : workspace.stage.canOrder = true → workspace.SelectsClosed

/-- A package is not stored both with its contents and with a failure. -/
theorem Coherent.apart (h : workspace.Coherent) (name : String) :
    workspace.contents? name = none ∨ workspace.failures.lookup name = none := by
  rw [or_iff_not_imp_left, ← ne_eq, Option.ne_none_iff_isSome, contents?, List.lookup_isSome_iff,
    List.lookup_eq_none_iff]
  rintro ⟨entry, hentry, hname⟩ other hother
  have hdisjoint := List.disjoint_of_nodup_append h.storedOnce
  rw [bne_iff_ne]
  rintro rfl
  rw [beq_iff_eq] at hname
  exact hdisjoint (List.mem_map.mpr ⟨entry, hentry, hname.symm⟩)
    (List.mem_map.mpr ⟨other, hother, rfl⟩)

theorem Reachable.selectsClosed (h : workspace.Reachable)
    (hstage : workspace.stage.canOrder = true) : workspace.SelectsClosed := by
  have hselects := h.staged.selects hstage
  have hselection := h.intact.filtered hstage
  refine ⟨hselects.inOrder, hselects.once, hselects.mandatory, hselects.stored, ?_,
    hselection.closed⟩
  intro package hpackage
  rcases h.intact.coherent.apart package.name with hnone | hnone
  · rw [hselects.stored package hpackage] at hnone
    cases hnone
  · exact hnone

theorem Reachable.orderly (h : workspace.Reachable) : workspace.Orderly := by
  have hcoherent := h.intact.coherent
  refine ⟨hcoherent.distinct, hcoherent.apart, ?_, ?_, h.staged.unselected, h.selectsClosed⟩
  · intro name hknown
    exact hcoherent.stored name (isKnown_iff.mp hknown)
  · intro hparsed package hpackage
    have hknown : workspace.isKnown package.name = true :=
      (h.intact.parsed hparsed package.name).trans (isAvailable_iff.mpr ⟨package, hpackage, rfl⟩)
    -- One of the two is there, and one of the two is not.
    rw [isKnown, ← contents?] at hknown
    rcases hcoherent.apart package.name with hnone | hnone
    · simpa [hnone] using hknown
    · simpa [hnone] using hknown

/-- After any sequence of operations a workspace is orderly, and the next operation changes the stage
only to one that may come next. -/
theorem performAll_orderly (operations : List Operation) (operation : Operation) :
    let workspace := performAll {} operations
    let after := workspace.perform operation
    workspace.Orderly ∧
      (after.stage ≠ workspace.stage → workspace.stage.canBecome after.stage = true) :=
  ⟨(reachable_performAll operations).orderly, canBecome_perform _ operation⟩

end RosInterface.Workspace
