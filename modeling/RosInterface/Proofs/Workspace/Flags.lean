import RosInterface.Proofs.Registry
import RosInterface.Proofs.Workspace.Operations

namespace RosInterface.Workspace

/-! # Flags of referenced packages

The registry has the packages that the contents of read packages depend on. A filter that succeeds
flags those of them that it selects, and nothing takes a flag away. So a flag says that some filter
selected the package, and not that the package is selected now.

* `flags_remember_selections` says so for every sequence of operations, and that the flags describe
  the selection exactly as long as no flagged package has dropped out of it;
* `refiltered_flags_outdated` is a sequence of two filters after which they do not.
-/

variable {workspace : Workspace}

/-! ## Registries of workspaces -/

/-- The registry has one entry for every package that read contents depend on. -/
structure Registered (workspace : Workspace) : Prop where
  increasing : workspace.registry.Increasing
  referenced : ∀ name, name ∈ workspace.registry.names ↔
    ∃ entry ∈ workspace.contents, name ∈ entry.2.dependencies

theorem Registered.parsePackage (h : workspace.Registered) (tree : FileTree)
    (package : PackageInfo) : (workspace.parsePackage tree package).Registered := by
  unfold Workspace.parsePackage
  split
  · exact h
  · cases PackageContents.ofPackage tree package with
    | error error => exact ⟨h.increasing, h.referenced⟩
    | ok contents =>
      refine ⟨h.increasing.addAll contents.dependencies, ?_⟩
      intro name
      rw [Registry.mem_names_addAll h.increasing, h.referenced]
      simp only [List.mem_append, List.mem_singleton, or_and_right, exists_or, exists_eq_left]

theorem Registered.parse (h : workspace.Registered) (tree : FileTree) :
    (workspace.parse tree).Registered := by
  have hall : ∀ packages : List PackageInfo,
      (packages.foldl (Workspace.parsePackage tree) workspace).Registered := by
    intro packages
    induction packages generalizing workspace with
    | nil => exact h
    | cons package rest ih => exact ih (h.parsePackage tree package)
  unfold Workspace.parse
  split
  · exact h
  · exact ⟨(hall workspace.available).increasing, (hall workspace.available).referenced⟩

theorem names_registry_selecting (workspace : Workspace) (names : List String) :
    (workspace.selecting names).registry.names = workspace.registry.names := by
  rw [registry_selecting, Registry.names_markAll]

theorem Registered.filter (h : workspace.Registered) (packageFilter : PackageFilter) :
    (workspace.filter packageFilter).2.Registered := by
  rcases filter_cases workspace packageFilter with ⟨error, hfilter⟩ | ⟨-, -, hfilter⟩
  · rw [hfilter]
    exact h
  · rw [hfilter]
    cases (workspace.reclassified packageFilter).needed with
    | error name => exact ⟨h.increasing, h.referenced⟩
    | ok names =>
      have hnames : (((workspace.reclassified packageFilter).finish (.ok names)).2.registry.names) =
          workspace.registry.names := names_registry_selecting _ names
      constructor
      · rw [Registry.Increasing, hnames]
        exact h.increasing
      · rw [hnames]
        exact h.referenced

theorem registry_order (workspace : Workspace) : workspace.order.2.registry = workspace.registry ∧
    workspace.order.2.contents = workspace.contents ∧
      workspace.order.2.selected = workspace.selected := by
  rcases order_frame workspace with ⟨orderer, hsame | ⟨-, hordered⟩⟩
  · rw [hsame]
    exact ⟨rfl, rfl, rfl⟩
  · rw [hordered]
    exact ⟨rfl, rfl, rfl⟩

theorem Reachable.registered (h : workspace.Reachable) : workspace.Registered := by
  induction h with
  | empty => exact ⟨List.Pairwise.nil, by simp [Registry.names]⟩
  | add _ added ih =>
    rcases add_eq_ok_iff.mp added with ⟨-, rfl⟩
    exact ⟨ih.increasing, ih.referenced⟩
  | parse _ tree ih => exact ih.parse tree
  | filter _ packageFilter ih => exact ih.filter packageFilter
  | @order earlier _ ih =>
    obtain ⟨hregistry, hcontents, -⟩ := registry_order earlier
    exact ⟨hregistry ▸ ih.increasing, by rw [hregistry, hcontents]; exact ih.referenced⟩

/-! ## Flags -/

/-- A flag is set in the entry of the package. -/
def IsFlagged (workspace : Workspace) (name : String) : Prop :=
  ⟨name, true⟩ ∈ workspace.registry.entries

/-- The operation is a filter that succeeds and selects the package, which is referenced by then. -/
def Flags (workspace : Workspace) (operation : Operation) (name : String) : Prop :=
  ∃ packageFilter, operation = .filter packageFilter ∧
    (workspace.filter packageFilter).1 = .ok () ∧ name ∈ workspace.registry.names ∧
    name ∈ (workspace.filter packageFilter).2.selected.map (·.name)

/-- The package was flagged in the course of the operations. -/
def WasFlagged (operations : List Operation) (name : String) : Prop :=
  ∃ earlier operation later, operations = earlier ++ operation :: later ∧
    (performAll {} earlier).Flags operation name

theorem not_flags {operation : Operation} (hother : ∀ packageFilter, operation ≠ .filter packageFilter)
    (name : String) : ¬ workspace.Flags operation name := by
  rintro ⟨packageFilter, rfl, -⟩
  exact hother packageFilter rfl

/-- The entries of selected packages are flagged, and others stay as they are. -/
theorem isFlagged_selecting {names : List String} {name : String} :
    (workspace.selecting names).IsFlagged name ↔ workspace.IsFlagged name ∨
      (name ∈ workspace.registry.names ∧
        name ∈ (workspace.selecting names).selected.map (·.name)) := by
  unfold IsFlagged
  rw [registry_selecting, Registry.entries_markAll, List.mem_map]
  constructor
  · rintro ⟨⟨other, isBuilt⟩, hentry, hmarked⟩
    rcases RegistryEntry.mk.inj hmarked with ⟨rfl, hflag⟩
    rw [Bool.or_eq_true, List.contains_iff_mem] at hflag
    rcases hflag with hold | hselected
    · exact Or.inl (hold ▸ hentry)
    · exact Or.inr ⟨Registry.mem_names_of_mem_entries hentry, hselected⟩
  · rintro (hold | ⟨hname, hselected⟩)
    · exact ⟨_, hold, rfl⟩
    · rcases List.mem_map.mp hname with ⟨entry, hentry, rfl⟩
      refine ⟨entry, hentry, ?_⟩
      rw [Registry.marked, List.contains_iff_mem.mpr hselected, Bool.or_true]

/-- References set no flags. -/
theorem isFlagged_parse (hregistered : workspace.Registered) (tree : FileTree) {name : String} :
    (workspace.parse tree).IsFlagged name ↔ workspace.IsFlagged name := by
  have hpackage : ∀ {before : Workspace} (package : PackageInfo), before.Registered →
      ((before.parsePackage tree package).IsFlagged name ↔ before.IsFlagged name) := by
    intro before package hbefore
    unfold Workspace.parsePackage
    split
    · exact Iff.rfl
    · cases PackageContents.ofPackage tree package with
      | error error => exact Iff.rfl
      | ok contents =>
        unfold IsFlagged
        simp [Registry.mem_entries_addAll hbefore.increasing]
  have hall : ∀ (packages : List PackageInfo) {before : Workspace}, before.Registered →
      ((packages.foldl (Workspace.parsePackage tree) before).IsFlagged name ↔
        before.IsFlagged name) := by
    intro packages
    induction packages with
    | nil => exact fun _ => Iff.rfl
    | cons package rest ih =>
      intro before hbefore
      exact (ih (hbefore.parsePackage tree package)).trans (hpackage package hbefore)
  unfold Workspace.parse
  split
  · exact Iff.rfl
  · exact hall workspace.available hregistered

/-- An operation takes no flag away, and sets one if it is a filter that selects the package. -/
theorem isFlagged_perform (h : workspace.Reachable) (operation : Operation) {name : String} :
    (workspace.perform operation).IsFlagged name ↔
      workspace.IsFlagged name ∨ workspace.Flags operation name := by
  cases operation with
  | add package =>
    rw [or_iff_left (not_flags (by simp) name), perform]
    cases hadd : workspace.add package with
    | error error => exact Iff.rfl
    | ok extended =>
      rcases add_eq_ok_iff.mp hadd with ⟨-, rfl⟩
      exact Iff.rfl
  | parse tree =>
    rw [or_iff_left (not_flags (by simp) name)]
    exact isFlagged_parse h.registered tree
  | order =>
    rw [or_iff_left (not_flags (by simp) name), perform, IsFlagged, (registry_order workspace).1]
    rfl
  | filter packageFilter =>
    have hflags : workspace.Flags (.filter packageFilter) name ↔
        (workspace.filter packageFilter).1 = .ok () ∧ name ∈ workspace.registry.names ∧
          name ∈ (workspace.filter packageFilter).2.selected.map (·.name) := by
      constructor
      · rintro ⟨other, hother, hrest⟩
        cases hother
        exact hrest
      · exact fun hrest => ⟨packageFilter, rfl, hrest⟩
    rw [hflags, perform]
    rcases filter_cases workspace packageFilter with ⟨error, hfilter⟩ | ⟨-, -, hfilter⟩
    · rw [hfilter]
      simp
    · rw [hfilter]
      cases (workspace.reclassified packageFilter).needed with
      | error failed =>
        simp only [finish, reduceCtorEq, false_and, or_false]
        exact Iff.rfl
      | ok names =>
        simp only [finish, true_and]
        exact isFlagged_selecting

theorem wasFlagged_concat {operations : List Operation} {last : Operation} {name : String} :
    WasFlagged (operations ++ [last]) name ↔
      WasFlagged operations name ∨ (performAll {} operations).Flags last name := by
  constructor
  · rintro ⟨earlier, operation, later, hsplit, hflags⟩
    -- The operation is the last one, or stands in front of it.
    cases later using List.reverseRecOn with
    | nil =>
      rcases List.append_inj' hsplit rfl with ⟨rfl, hlast⟩
      cases hlast
      exact Or.inr hflags
    | append_singleton later final =>
      rw [← List.cons_append, ← List.append_assoc] at hsplit
      rcases List.append_inj' hsplit rfl with ⟨rfl, -⟩
      exact Or.inl ⟨earlier, operation, later, rfl, hflags⟩
  · rintro (⟨earlier, operation, later, rfl, hflags⟩ | hflags)
    · exact ⟨earlier, operation, later ++ [last], by simp, hflags⟩
    · exact ⟨operations, last, [], rfl, hflags⟩

/-- Flagged is what was flagged in the course of the operations. -/
theorem isFlagged_performAll (operations : List Operation) {name : String} :
    (performAll {} operations).IsFlagged name ↔ WasFlagged operations name := by
  induction operations using List.reverseRecOn with
  | nil =>
    constructor
    · intro hflagged
      exact absurd hflagged List.not_mem_nil
    · rintro ⟨earlier, operation, later, hsplit, -⟩
      simp at hsplit
  | append_singleton operations operation ih =>
    rw [performAll_concat, isFlagged_perform (reachable_performAll operations), ih,
      wasFlagged_concat]

/-- A package that is selected and referenced is flagged. -/
theorem Reachable.isFlagged_of_selected (h : workspace.Reachable)
    (hstage : workspace.stage.canOrder = true) {name : String}
    (hname : name ∈ workspace.registry.names) (hselected : name ∈ workspace.selected.map (·.name)) :
    workspace.IsFlagged name := by
  induction h with
  | empty => exact absurd hname List.not_mem_nil
  | add _ added _ =>
    rcases add_eq_ok_iff.mp added with ⟨-, rfl⟩
    exact absurd hselected List.not_mem_nil
  | @parse before earlier tree ih =>
    cases hparsed : before.stage.hasParsed with
    | true =>
      rw [Workspace.parse, if_pos hparsed] at hstage hname hselected ⊢
      exact ih hstage hname hselected
    | false =>
      rw [Workspace.parse, if_neg (by simp [hparsed])] at hstage
      cases hstage
  | @filter before earlier packageFilter ih =>
    rcases filter_cases before packageFilter with ⟨error, hfilter⟩ | ⟨-, -, hfilter⟩
    · rw [hfilter] at hstage hname hselected ⊢
      exact ih hstage hname hselected
    · rw [hfilter] at hstage hname hselected ⊢
      revert hstage hname hselected
      cases (before.reclassified packageFilter).needed with
      | error failed => exact fun hstage => absurd hstage Bool.false_ne_true
      | ok names =>
        intro _ hname hselected
        refine isFlagged_selecting.mpr (Or.inr ⟨?_, hselected⟩)
        rw [← names_registry_selecting _ names]
        exact hname
  | @order before earlier ih =>
    obtain ⟨hregistry, -, hsame⟩ := registry_order before
    rw [hregistry] at hname
    rw [hsame] at hselected
    rw [IsFlagged, hregistry]
    refine ih ?_ hname hselected
    -- Nothing can be ordered, or have been ordered, before a filter was applied.
    cases hbefore : before.stage.canOrder with
    | true => rfl
    | false =>
      rw [Workspace.order, hbefore] at hstage
      exact hbefore.symm.trans hstage

/-! ## What flags say -/

/-- The registry has the packages that read contents depend on, and the flags say which of them a
filter selected in the course of the operations. Where a filter was applied, the selected ones are
among them; so the flags and the packages without one describe the selection exactly if no package
that was flagged has dropped out of it. -/
theorem flags_remember_selections (operations : List Operation) :
    let workspace := performAll {} operations
    let selected := workspace.selected.map (·.name)
    (∀ name, name ∈ workspace.registry.names ↔
        ∃ entry ∈ workspace.contents, name ∈ entry.2.dependencies) ∧
      (∀ entry ∈ workspace.registry.entries,
        entry.isBuilt = true ↔ WasFlagged operations entry.package) ∧
      (workspace.stage.canOrder = true →
        (∀ entry ∈ workspace.registry.entries,
          entry.package ∈ selected → entry.isBuilt = true) ∧
        ((∀ entry ∈ workspace.registry.entries,
            (entry.isBuilt = true ↔ entry.package ∈ selected)) ↔
          ∀ name, WasFlagged operations name → name ∈ selected) ∧
        (workspace.registry.external = workspace.registry.names.filter (!selected.contains ·) ↔
          ∀ name, WasFlagged operations name → name ∈ selected)) := by
  intro workspace selected
  have hreachable : workspace.Reachable := reachable_performAll operations
  have hregistered := hreachable.registered
  -- The entry of a package is unique, so its flag is that of the package.
  have hflag : ∀ entry ∈ workspace.registry.entries,
      (entry.isBuilt = true ↔ workspace.IsFlagged entry.package) := by
    intro entry hentry
    constructor
    · intro hbuilt
      show (⟨entry.package, true⟩ : RegistryEntry) ∈ workspace.registry.entries
      rw [← hbuilt]
      exact hentry
    · intro hflagged
      rw [hregistered.increasing.unique hentry hflagged rfl]
  have hwas : ∀ name, workspace.IsFlagged name ↔ WasFlagged operations name :=
    fun _ => isFlagged_performAll operations
  refine ⟨hregistered.referenced, fun entry hentry => (hflag entry hentry).trans (hwas _), ?_⟩
  intro hstage
  have hselected : ∀ entry ∈ workspace.registry.entries,
      entry.package ∈ selected → entry.isBuilt = true := by
    intro entry hentry hmem
    exact (hflag entry hentry).mpr
      (hreachable.isFlagged_of_selected hstage (Registry.mem_names_of_mem_entries hentry) hmem)
  have hexact : (∀ entry ∈ workspace.registry.entries,
      (entry.isBuilt = true ↔ entry.package ∈ selected)) ↔
        ∀ name, WasFlagged operations name → name ∈ selected := by
    constructor
    · intro hdescribe name hname
      exact (hdescribe _ ((hwas name).mpr hname)).mp rfl
    · intro hkept entry hentry
      refine ⟨fun hbuilt => ?_, hselected entry hentry⟩
      exact hkept _ ((hwas _).mp ((hflag entry hentry).mp hbuilt))
  exact ⟨hselected, hexact, (Registry.external_eq_iff hregistered.increasing).trans hexact⟩

/-- Definition files of three packages; a field of the first one has a type of the second one. -/
def sharedTree : FileTree where
  root := .directory [("A.msg", .file "b/B x\n".toUTF8), ("B.msg", .file "int8 y\n".toUTF8),
    ("C.msg", .file "int8 z\n".toUTF8)]

/-- The three packages are added and read, and all of them are selected. -/
def filteredOnce : List Operation :=
  [.add (examplePackage "a" [⟨⟨"A.msg"⟩, .message⟩] false),
    .add (examplePackage "b" [⟨⟨"B.msg"⟩, .message⟩] false),
    .add (examplePackage "c" [⟨⟨"C.msg"⟩, .message⟩] false),
    .parse sharedTree, .filter {}]

/-- Then another filter selects the third one only. -/
def filteredAgain : List Operation :=
  filteredOnce ++ [.filter (.ofTexts ["c"])]

/-- After the first filter the flags describe the selection. -/
theorem filteredOnce_described :
    let workspace := performAll {} filteredOnce
    let selected := workspace.selected.map (·.name)
    workspace.stage.canOrder = true ∧ selected = ["a", "b", "c"] ∧
      workspace.registry.entries = [⟨"b", true⟩] ∧
      (∀ name, WasFlagged filteredOnce name → name ∈ selected) ∧
      workspace.registry.external = workspace.registry.names.filter (!selected.contains ·) := by
  intro workspace selected
  have hstage : workspace.stage.canOrder = true := by decide +kernel
  have hselected : selected = ["a", "b", "c"] := by decide +kernel
  have hentries : workspace.registry.entries = [⟨"b", true⟩] := by decide +kernel
  obtain ⟨-, -, hfiltered⟩ := flags_remember_selections filteredOnce
  obtain ⟨-, hexact, hexternal⟩ := hfiltered hstage
  have hmem : "b" ∈ selected := by
    rw [hselected]
    decide
  have hkept : ∀ name, WasFlagged filteredOnce name → name ∈ selected := by
    refine hexact.mp fun entry hentry => ?_
    rw [hentries, List.mem_singleton] at hentry
    rw [hentry]
    exact ⟨fun _ => hmem, fun _ => rfl⟩
  exact ⟨hstage, hselected, hentries, hkept, hexternal.mpr hkept⟩

/-- After the second one they do not: the package that was selected only the first time is flagged,
and no package is said not to be built. -/
theorem refiltered_flags_outdated :
    let workspace := performAll {} filteredAgain
    workspace.stage.canOrder = true ∧ workspace.selected.map (·.name) = ["c"] ∧
      workspace.registry.names = ["b"] ∧
      ¬ (∀ entry ∈ workspace.registry.entries,
        (entry.isBuilt = true ↔ entry.package ∈ workspace.selected.map (·.name))) ∧
      workspace.registry.external = [] := by
  intro workspace
  have hselected : workspace.selected.map (·.name) = ["c"] := by decide +kernel
  have hflagged : (⟨"b", true⟩ : RegistryEntry) ∈ workspace.registry.entries := by decide +kernel
  refine ⟨by decide +kernel, hselected, by decide +kernel, ?_, by decide +kernel⟩
  intro hdescribe
  have hmem := (hdescribe _ hflagged).mp rfl
  rw [hselected] at hmem
  exact absurd hmem (by decide)

end RosInterface.Workspace
