import RosInterface.Proofs.Registry
import RosInterface.Proofs.Workspace.Operations

namespace RosInterface.Workspace

/-! # Operations that leave no trace

What a filter selects, and the order of it, does not depend on what was done before, provided that
the definition files stay the same and the filter says of every package whether it is mandatory.
`filter_forgets_history` compares a workspace after any sequence of operations with one to which the
same packages were added and nothing else was done.

* `ReadFrom` is the invariant: whatever is stored for a package is the outcome of reading its files,
  however often packages were read and failures dropped;
* `Alike` relates two workspaces that differ in no more than which packages are optional, and
  `Alike.filter` says that a filter makes this difference disappear;
* an order is remembered together with the units that it is the order of, so that it is never taken
  for the order of others, and `Coherent.order_eq` can leave the memory out.
-/

variable {workspace : Workspace}

/-! ## What was read -/

/-- Stored are outcomes of reading the definition files in one tree. -/
structure ReadFrom (tree : FileTree) (workspace : Workspace) : Prop where
  contents : ∀ package ∈ workspace.available, ∀ contents,
    workspace.contents? package.name = some contents →
      PackageContents.ofPackage tree package = .ok contents
  failures : ∀ package ∈ workspace.available, ∀ error,
    workspace.failures.lookup package.name = some error →
      PackageContents.ofPackage tree package = .error error

/-- Failures that were dropped are gone, and the others stay. -/
theorem of_lookup_eraseName {α : Type} {name other : String} {entries : List (String × α)} {value : α}
    (hlookup : (eraseName name entries).lookup other = some value) :
    entries.lookup other = some value := by
  rw [eraseName, lookup_filter_ne] at hlookup
  split at hlookup
  · cases hlookup
  · exact hlookup

/-- Reading a package only ever adds the failure to read it. -/
theorem failure_parsePackage {tree : FileTree} {package : PackageInfo} {name : String}
    {error : WorkspaceError}
    (hfailure : (workspace.parsePackage tree package).failures.lookup name = some error) :
    workspace.failures.lookup name = some error ∨
      (name = package.name ∧ PackageContents.ofPackage tree package = .error error) := by
  unfold parsePackage at hfailure
  split at hfailure
  · exact Or.inl hfailure
  · cases hread : PackageContents.ofPackage tree package with
    | ok contents =>
      rw [hread] at hfailure
      exact Or.inl (of_lookup_eraseName hfailure)
    | error found =>
      rw [hread] at hfailure
      simp only [List.lookup_append, Option.or_eq_some_iff] at hfailure
      rcases hfailure with hold | ⟨-, hnew⟩
      · exact Or.inl (of_lookup_eraseName hold)
      · cases hname : name == package.name with
        | true =>
          rw [List.lookup_cons, hname] at hnew
          exact Or.inr ⟨beq_iff_eq.mp hname, congrArg _ (Option.some.inj hnew)⟩
        | false =>
          rw [List.lookup_cons, hname] at hnew
          cases hnew

theorem ReadFrom.parsePackage {tree : FileTree} (h : workspace.ReadFrom tree)
    (hdistinct : (workspace.available.map (·.name)).Nodup) {package : PackageInfo}
    (hmem : package ∈ workspace.available) : (workspace.parsePackage tree package).ReadFrom tree := by
  have havailable := (parsePackage_frame workspace tree package).1
  constructor
  · intro other hother contents hcontents
    rw [havailable] at hother
    rcases contents?_parsePackage hcontents with hold | ⟨hname, hread⟩
    · exact h.contents other hother contents hold
    · rw [List.inj_on_of_nodup_map hdistinct hother hmem hname]
      exact hread
  · intro other hother error hfailure
    rw [havailable] at hother
    rcases failure_parsePackage hfailure with hold | ⟨hname, hread⟩
    · exact h.failures other hother error hold
    · rw [List.inj_on_of_nodup_map hdistinct hother hmem hname]
      exact hread

theorem ReadFrom.parsePackages {tree : FileTree} (h : workspace.ReadFrom tree)
    (hdistinct : (workspace.available.map (·.name)).Nodup) {packages : List PackageInfo}
    (hsub : packages ⊆ workspace.available) :
    (packages.foldl (Workspace.parsePackage tree) workspace).ReadFrom tree := by
  induction packages generalizing workspace with
  | nil => exact h
  | cons package rest ih =>
    rcases List.cons_subset.mp hsub with ⟨hfirst, hrest⟩
    have havailable := (parsePackage_frame workspace tree package).1
    exact ih (h.parsePackage hdistinct hfirst) (havailable ▸ hdistinct) (havailable ▸ hrest)

/-- Whether a package is optional makes no difference to its contents. -/
theorem ReadFrom.reclassified {tree : FileTree} (h : workspace.ReadFrom tree)
    (packageFilter : PackageFilter) : (workspace.reclassified packageFilter).ReadFrom tree := by
  constructor
  · intro package hmem contents hcontents
    rcases PackageFilter.exists_of_mem_reclassify hmem with ⟨original, horiginal, isOptional, rfl⟩
    exact h.contents original horiginal contents hcontents
  · intro package hmem error hfailure
    rcases PackageFilter.exists_of_mem_reclassify hmem with ⟨original, horiginal, isOptional, rfl⟩
    exact h.failures original horiginal error hfailure

/-- Operations that read from no other tree keep what is stored true to the tree. -/
theorem ReadFrom.perform {tree : FileTree} (h : workspace.ReadFrom tree)
    (hcoherent : workspace.Coherent) {operation : Operation}
    (hreads : ∀ other, operation = .parse other → other = tree) :
    (workspace.perform operation).ReadFrom tree := by
  cases operation with
  | add package =>
    rw [Workspace.perform]
    cases hadd : workspace.add package with
    | error error => exact h
    | ok extended =>
      rcases add_eq_ok_iff.mp hadd with ⟨hnew, rfl⟩
      -- Nothing can be stored for a package that was not available.
      have hunknown : package.name ∉ workspace.knownNames := by
        intro hknown
        have havailable := hcoherent.stored _ hknown
        rw [hnew] at havailable
        cases havailable
      constructor
      · intro other hother contents hcontents
        rcases List.mem_append.mp hother with hold | hlast
        · exact h.contents other hold contents hcontents
        · rw [List.mem_singleton] at hlast
          subst hlast
          exact absurd (mem_knownNames_of_contents? hcontents) hunknown
      · intro other hother error hfailure
        rcases List.mem_append.mp hother with hold | hlast
        · exact h.failures other hold error hfailure
        · rw [List.mem_singleton] at hlast
          subst hlast
          have hknown : other.name ∈ workspace.knownNames :=
            isKnown_iff.mp (by rw [isKnown, hfailure, Option.isSome_some, Bool.or_true])
          exact absurd hknown hunknown
  | parse other =>
    rw [hreads other rfl, Workspace.perform, parse]
    split
    · exact h
    · have hall := h.parsePackages hcoherent.distinct (List.Subset.refl workspace.available)
      exact ⟨hall.contents, hall.failures⟩
  | filter packageFilter =>
    rw [Workspace.perform]
    rcases filter_cases workspace packageFilter with ⟨error, hfilter⟩ | ⟨-, -, hfilter⟩
    · rw [hfilter]
      exact h
    · rw [hfilter]
      have hclassified := h.reclassified packageFilter
      cases (workspace.reclassified packageFilter).needed with
      | ok names => exact ⟨hclassified.contents, hclassified.failures⟩
      | error name =>
        refine ⟨hclassified.contents, fun package hmem error hfailure => ?_⟩
        exact hclassified.failures package hmem error (of_lookup_eraseName hfailure)
  | order =>
    rw [Workspace.perform]
    rcases order_frame workspace with ⟨orderer, hsame | ⟨-, hordered⟩⟩
    · rw [hsame]
      exact ⟨h.contents, h.failures⟩
    · rw [hordered]
      exact ⟨h.contents, h.failures⟩

/-- Once all packages were read, what is stored for one is what its files hold. -/
theorem ReadFrom.stored {tree : FileTree} (h : workspace.ReadFrom tree) (horderly : workspace.Orderly)
    (hparsed : workspace.stage.hasParsed = true) {package : PackageInfo}
    (hmem : package ∈ workspace.available) :
    match PackageContents.ofPackage tree package with
    | .ok contents => workspace.contents? package.name = some contents ∧
        workspace.failures.lookup package.name = none
    | .error error => workspace.contents? package.name = none ∧
        workspace.failures.lookup package.name = some error := by
  have hone := horderly.parsed hparsed package hmem
  cases hcontents : workspace.contents? package.name with
  | some contents =>
    rw [h.contents package hmem contents hcontents]
    rw [hcontents] at hone
    cases hfailure : workspace.failures.lookup package.name with
    | none => exact ⟨rfl, rfl⟩
    | some error =>
      rw [hfailure] at hone
      cases hone
  | none =>
    rw [hcontents] at hone
    cases hfailure : workspace.failures.lookup package.name with
    | none =>
      rw [hfailure] at hone
      cases hone
    | some error =>
      rw [h.failures package hmem error hfailure]
      exact ⟨rfl, rfl⟩

/-! ## Workspaces that are alike -/

/-- The workspaces have the same packages, except that they may disagree on which are optional, and
know the same about them. -/
structure Alike (a b : Workspace) : Prop where
  packages : a.available.map chosen = b.available.map chosen
  contents : ∀ name, a.contents? name = b.contents? name
  failures : ∀ name, a.failures.lookup name = b.failures.lookup name

theorem isAvailable_eq_of_chosen {a b : Workspace}
    (hpackages : a.available.map chosen = b.available.map chosen) (name : String) :
    a.isAvailable name = b.isAvailable name := by
  have hnames := congrArg (List.map (·.name)) hpackages
  rw [List.map_map, List.map_map] at hnames
  rw [Bool.eq_iff_iff, isAvailable_iff, isAvailable_iff]
  have hmem : name ∈ a.available.map (·.name) ↔ name ∈ b.available.map (·.name) :=
    iff_of_eq (congrArg (name ∈ ·) hnames)
  rwa [List.mem_map, List.mem_map] at hmem

/-- Two workspaces with the same packages that were read from the same files are alike. -/
theorem alike_of_readFrom {tree : FileTree} {a b : Workspace} (ha : a.ReadFrom tree)
    (hb : b.ReadFrom tree) (haOrderly : a.Orderly) (hbOrderly : b.Orderly)
    (haParsed : a.stage.hasParsed = true) (hbParsed : b.stage.hasParsed = true)
    (hpackages : a.available.map chosen = b.available.map chosen) : Alike a b := by
  suffices hsame : ∀ name, a.contents? name = b.contents? name ∧
      a.failures.lookup name = b.failures.lookup name from
    ⟨hpackages, fun name => (hsame name).1, fun name => (hsame name).2⟩
  intro name
  cases havailable : a.isAvailable name with
  | false =>
    -- Nothing is stored for a name that no package has.
    have hnone : ∀ {workspace : Workspace}, workspace.Orderly → workspace.isAvailable name = false →
        workspace.contents? name = none ∧ workspace.failures.lookup name = none := by
      intro workspace horderly hmissing
      have hunknown : workspace.isKnown name = false := by
        rw [← Bool.not_eq_true]
        intro hknown
        rw [horderly.available name hknown] at hmissing
        cases hmissing
      rw [isKnown, Bool.or_eq_false_iff] at hunknown
      simpa [contents?] using hunknown
    rcases hnone haOrderly havailable with ⟨hcontents, hfailure⟩
    rcases hnone hbOrderly (isAvailable_eq_of_chosen hpackages name ▸ havailable) with
      ⟨hcontents', hfailure'⟩
    rw [hcontents, hcontents', hfailure, hfailure']
    exact ⟨rfl, rfl⟩
  | true =>
    rcases isAvailable_iff.mp havailable with ⟨package, hpackage, rfl⟩
    have hmem : chosen package ∈ b.available.map chosen :=
      hpackages ▸ List.mem_map.mpr ⟨package, hpackage, rfl⟩
    rcases List.mem_map.mp hmem with ⟨other, hother, hsame⟩
    have hname : other.name = package.name := (congrArg PackageInfo.name hsame :)
    have hread : PackageContents.ofPackage tree other = PackageContents.ofPackage tree package :=
      (congrArg (PackageContents.ofPackage tree) hsame :)
    have hstored := ha.stored haOrderly haParsed hpackage
    have hstored' := hb.stored hbOrderly hbParsed hother
    rw [hread, hname] at hstored'
    cases houtcome : PackageContents.ofPackage tree package with
    | ok contents =>
      rw [houtcome] at hstored hstored'
      exact ⟨hstored.1.trans hstored'.1.symm, hstored.2.trans hstored'.2.symm⟩
    | error error =>
      rw [houtcome] at hstored hstored'
      exact ⟨hstored.1.trans hstored'.1.symm, hstored.2.trans hstored'.2.symm⟩

/-- A filter that has terms decides of every package whether it is optional. -/
theorem reclassify_congr {packageFilter : PackageFilter} (hterms : packageFilter.isEmpty = false)
    {packages others : List PackageInfo} (hsame : packages.map chosen = others.map chosen) :
    packageFilter.reclassify packages = packageFilter.reclassify others := by
  have hchosen : ∀ members : List PackageInfo, packageFilter.reclassify members =
      (members.map chosen).map fun package =>
        { package with isOptional := !packageFilter.isMatch package.name } := by
    intro members
    rw [PackageFilter.reclassify, hterms, if_neg Bool.false_ne_true, List.map_map]
    rfl
  rw [hchosen, hchosen, hsame]

theorem Alike.isKnown_eq {a b : Workspace} (h : Alike a b) (name : String) :
    a.isKnown name = b.isKnown name := by
  rw [isKnown, isKnown, ← contents?, ← contents?, h.contents name, h.failures name]

/-- Workspaces that are alike and agree on which packages are optional need the same packages. -/
theorem Alike.needed_eq {a b : Workspace} (h : Alike a b) (havailable : a.available = b.available) :
    a.needed = b.needed := by
  have hagree : AgreeOn a b fun _ => True :=
    ⟨fun name _ => h.contents name, fun name _ => h.failures name,
      fun _ _ _ _ used _ => ⟨h.isKnown_eq used, fun _ => trivial⟩⟩
  have hmandatory : a.mandatory = b.mandatory := by rw [mandatory, mandatory, havailable]
  exact needed_congr hagree hmandatory fun _ _ => trivial

theorem Alike.selected_eq {a b : Workspace} (h : Alike a b) (havailable : a.available = b.available)
    (names : List String) : (a.selecting names).selected = (b.selecting names).selected := by
  have hselect : a.select = b.select := by
    funext package
    rw [select, select, h.contents]
  show (a.available.filter _).map a.select = (b.available.filter _).map b.select
  rw [havailable, hselect]

/-- A filter that has terms cannot tell such workspaces apart. -/
theorem Alike.filter {a b : Workspace} (h : Alike a b) (ha : a.stage.hasParsed = true)
    (hb : b.stage.hasParsed = true) {packageFilter : PackageFilter}
    (hterms : packageFilter.isEmpty = false) :
    (a.filter packageFilter).1 = (b.filter packageFilter).1 ∧
      ((a.filter packageFilter).1 = .ok () →
        (a.filter packageFilter).2.selected = (b.filter packageFilter).2.selected) := by
  have havailable : (a.reclassified packageFilter).available =
      (b.reclassified packageFilter).available := reclassify_congr hterms h.packages
  have hclassified : Alike (a.reclassified packageFilter) (b.reclassified packageFilter) :=
    ⟨congrArg (List.map chosen) havailable, h.contents, h.failures⟩
  have hnames : (fun name => !a.isAvailable name) = fun name => !b.isAvailable name := by
    funext name
    rw [isAvailable_eq_of_chosen h.packages name]
  rw [filter_eq, filter_eq, ha, hb, hnames, hclassified.needed_eq havailable]
  cases packageFilter.exactNames.find? (fun name => !b.isAvailable name) with
  | some name => exact ⟨rfl, fun hok => by cases hok⟩
  | none =>
    cases (b.reclassified packageFilter).needed with
    | error name =>
      refine ⟨?_, fun hok => by cases hok⟩
      show Except.error _ = Except.error _
      rw [hclassified.failures name]
    | ok names => exact ⟨rfl, fun _ => hclassified.selected_eq havailable names⟩

/-! ## Filters that are applied again -/

theorem reclassify_reclassify (packageFilter : PackageFilter) (packages : List PackageInfo) :
    packageFilter.reclassify (packageFilter.reclassify packages) =
      packageFilter.reclassify packages := by
  unfold PackageFilter.reclassify
  split
  · rfl
  · rw [List.map_map]
    rfl

theorem selecting_selecting (workspace : Workspace) (names : List String) :
    (workspace.selecting names).selecting names = workspace.selecting names := by
  have hregistry : ((workspace.selecting names).selecting names).registry =
      (workspace.selecting names).registry := by
    rw [registry_selecting, registry_selecting]
    exact Registry.markAll_markAll _ workspace.registry
  rw [Workspace.mk.injEq]
  exact ⟨rfl, rfl, rfl, rfl, hregistry, rfl, rfl⟩

/-- A filter that succeeded changes nothing when it is applied once more. -/
theorem filter_filter {packageFilter : PackageFilter}
    (hok : (workspace.filter packageFilter).1 = .ok ()) :
    (workspace.filter packageFilter).2.filter packageFilter = workspace.filter packageFilter := by
  rcases filter_cases workspace packageFilter with ⟨error, hfilter⟩ | ⟨-, hnames, hfilter⟩
  · rw [hfilter] at hok
    cases hok
  · cases hneeded : (workspace.reclassified packageFilter).needed with
    | error name =>
      rw [hfilter, hneeded] at hok
      cases hok
    | ok names =>
      let once := (workspace.reclassified packageFilter).selecting names
      have honce : workspace.filter packageFilter = (.ok (), once) := by
        rw [hfilter, hneeded]
        rfl
      -- The packages are classified already, and so the same ones are needed.
      have hclassified : once.reclassified packageFilter = once := by
        rw [Workspace.mk.injEq]
        exact ⟨reclassify_reclassify packageFilter workspace.available, rfl, rfl, rfl, rfl, rfl, rfl⟩
      have halike : Alike once (workspace.reclassified packageFilter) :=
        ⟨rfl, fun _ => rfl, fun _ => rfl⟩
      have hagain : once.needed = .ok names := (halike.needed_eq rfl).trans hneeded
      have havailable : ∀ name ∈ packageFilter.exactNames, once.isAvailable name = true := by
        intro name hname
        exact (isAvailable_reclassified packageFilter name).trans (hnames name hname)
      rw [honce, filter_eq_finish rfl havailable, hclassified, hagain]
      exact congrArg _ (selecting_selecting _ names)

/-! ## Histories -/

/-- The operation adds a package. -/
def Operation.isAddition : Operation → Bool
  | .add _ => true
  | _ => false

/-- The additions among some operations. -/
def additions (operations : List Operation) : List Operation :=
  operations.filter (·.isAddition)

/-- Whenever definition files are read, they are as they are in the tree. -/
def ReadsOnly (tree : FileTree) (operations : List Operation) : Prop :=
  ∀ other, .parse other ∈ operations → other = tree

theorem readFrom_performAll {tree : FileTree} {operations : List Operation}
    (hreads : ReadsOnly tree operations) : (performAll {} operations).ReadFrom tree := by
  induction operations using List.reverseRecOn with
  | nil =>
    exact ⟨fun _ hmem => absurd hmem List.not_mem_nil, fun _ hmem => absurd hmem List.not_mem_nil⟩
  | append_singleton operations operation ih =>
    rw [performAll_concat]
    have hearlier : ReadsOnly tree operations :=
      fun other hother => hreads other (List.mem_append_left _ hother)
    refine (ih hearlier).perform (reachable_performAll operations).intact.coherent ?_
    rintro other rfl
    exact hreads other (by simp)

theorem available_parse (h : workspace.Coherent) (tree : FileTree) :
    (workspace.parse tree).available = workspace.available := by
  unfold parse
  split
  · rfl
  · exact (h.parsePackages tree (List.Subset.refl workspace.available)).2.1

/-- Only additions change which packages are available. -/
theorem map_chosen_perform (h : workspace.Coherent) {operation : Operation}
    (hother : operation.isAddition = false) :
    (workspace.perform operation).available.map chosen = workspace.available.map chosen := by
  cases operation with
  | add package => cases hother
  | parse tree => rw [perform, available_parse h]
  | filter packageFilter =>
    rw [perform]
    rcases filter_cases workspace packageFilter with ⟨error, hfilter⟩ | ⟨-, -, hfilter⟩
    · rw [hfilter]
    · rw [hfilter]
      have hchosen := map_chosen_reclassify packageFilter workspace.available
      cases (workspace.reclassified packageFilter).needed with
      | error name => exact hchosen
      | ok names => exact hchosen
  | order =>
    rw [perform]
    rcases order_frame workspace with ⟨orderer, hsame | ⟨-, hordered⟩⟩
    · rw [hsame]
    · rw [hordered]

/-- Workspaces with the same packages have the same ones after an addition. -/
theorem map_chosen_add {a b : Workspace}
    (hpackages : a.available.map chosen = b.available.map chosen) (package : PackageInfo) :
    (a.perform (.add package)).available.map chosen =
      (b.perform (.add package)).available.map chosen := by
  rw [perform, perform, add, add, isAvailable_eq_of_chosen hpackages]
  cases b.isAvailable package.name with
  | true => exact hpackages
  | false =>
    show (a.available ++ [package]).map chosen = (b.available ++ [package]).map chosen
    rw [List.map_append, List.map_append, hpackages]

/-- The packages are those that were added. -/
theorem map_chosen_performAll (operations : List Operation) :
    (performAll {} operations).available.map chosen =
      (performAll {} (additions operations)).available.map chosen := by
  induction operations using List.reverseRecOn with
  | nil => rfl
  | append_singleton operations operation ih =>
    rw [performAll_concat, additions, List.filter_append, ← additions]
    cases hkind : operation.isAddition with
    | true =>
      have hlast : [operation].filter (·.isAddition) = [operation] := by simp [hkind]
      rw [hlast, performAll_concat]
      cases operation with
      | add package => exact map_chosen_add ih package
      | parse | filter | order => cases hkind
    | false =>
      have hlast : [operation].filter (·.isAddition) = [] := by simp [hkind]
      rw [hlast, List.append_nil, ← ih]
      exact map_chosen_perform (reachable_performAll operations).intact.coherent hkind

/-- The order of a workspace is a matter of its selection alone. -/
theorem Coherent.order_eq (h : workspace.Coherent) (hstage : workspace.stage.canOrder = true) :
    workspace.order.1 =
      ((BuildOrder.sequence (workspace.selected.map SelectedPackage.unit)).map fun order =>
        order.filterMap (workspace.selected[·]?)).mapError .circular := by
  -- What is remembered was found for the same units, so it is what would be found now.
  rw [← h.remembered.inOrder_eq SelectedPackage.unit workspace.selected, order, hstage]
  rcases workspace.orderer.inOrder SelectedPackage.unit workspace.selected with
    ⟨remaining | found, orderer⟩
  · rfl
  · rfl

/-- After any operations, reading the definition files and applying a filter that has terms comes to
what it comes to in a new workspace with the same packages: the same error, or else the same
selection, and then the same order or the same error instead of it. Applying the filter once more
changes nothing. -/
theorem filter_forgets_history {tree : FileTree} {operations : List Operation}
    (hreads : ReadsOnly tree operations) {packageFilter : PackageFilter}
    (hterms : packageFilter.isEmpty = false) :
    let used := ((performAll {} operations).parse tree).filter packageFilter
    let fresh := ((performAll {} (additions operations)).parse tree).filter packageFilter
    used.1 = fresh.1 ∧
      (used.1 = .ok () →
        used.2.selected = fresh.2.selected ∧ used.2.order.1 = fresh.2.order.1 ∧
          used.2.filter packageFilter = used) := by
  intro used fresh
  -- Both workspaces have read all of their packages from the tree.
  have hready : ∀ {operations : List Operation}, ReadsOnly tree operations →
      let workspace := (performAll {} operations).parse tree
      workspace.Reachable ∧ workspace.ReadFrom tree ∧
        workspace.available = (performAll {} operations).available := by
    intro operations hreads
    have hreachable := reachable_performAll operations
    have hcoherent := hreachable.intact.coherent
    have hread : (Workspace.perform _ (.parse tree)).ReadFrom tree :=
      (readFrom_performAll hreads).perform hcoherent
        fun other hother => (Operation.parse.inj hother).symm
    exact ⟨hreachable.parse tree, hread, available_parse hcoherent tree⟩
  have hadditions : ReadsOnly tree (additions operations) :=
    fun other hother => hreads other (List.mem_of_mem_filter hother)
  obtain ⟨husedReachable, husedRead, husedAvailable⟩ := hready hreads
  obtain ⟨hfreshReachable, hfreshRead, hfreshAvailable⟩ := hready hadditions
  have halike := alike_of_readFrom husedRead hfreshRead husedReachable.orderly
    hfreshReachable.orderly (hasParsed_parse _ tree) (hasParsed_parse _ tree)
    (by rw [husedAvailable, hfreshAvailable, map_chosen_performAll])
  obtain ⟨houtcome, hselected⟩ :=
    halike.filter (hasParsed_parse _ tree) (hasParsed_parse _ tree) hterms
  refine ⟨houtcome, fun hok => ⟨hselected hok, ?_, filter_filter hok⟩⟩
  have hused := (husedReachable.filter packageFilter).intact.coherent.order_eq
    (canOrder_of_filter hok)
  have hfresh := (hfreshReachable.filter packageFilter).intact.coherent.order_eq
    (canOrder_of_filter (houtcome.symm.trans hok))
  rw [hused, hfresh, hselected hok]

/-- Packages are added, one of which cannot be read and one of which is there already; then the ones
that are mandatory cannot be selected, nor can they be ordered. -/
def failedAttempts : List Operation :=
  [.add (examplePackage "a" [⟨⟨"A.msg"⟩, .message⟩] false),
    .add (examplePackage "b" [⟨⟨"C.msg"⟩, .message⟩] true),
    .parse cyclicTree, .filter {},
    .add (examplePackage "d" [⟨⟨"D.msg"⟩, .message⟩] false),
    .add (examplePackage "a" [] true),
    .parse cyclicTree, .filter {}, .order]

/-- None of this shows when two packages are named that can be read. -/
theorem failedAttempts_forgotten :
    let packageFilter := PackageFilter.ofTexts ["a"]
    let used := ((performAll {} failedAttempts).parse cyclicTree).filter packageFilter
    let fresh := ((performAll {} (additions failedAttempts)).parse cyclicTree).filter packageFilter
    ReadsOnly cyclicTree failedAttempts ∧ packageFilter.isEmpty = false ∧
      used.1 = .ok () ∧ used.2.selected.map (·.name) = ["a", "b"] ∧
      used.2.selected = fresh.2.selected ∧ used.2.order.1 = fresh.2.order.1 ∧
      used.2.filter packageFilter = used := by
  intro packageFilter used fresh
  have hreads : ReadsOnly cyclicTree failedAttempts := by
    intro other hother
    simpa [failedAttempts] using hother
  have hterms : packageFilter.isEmpty = false := by decide +kernel
  have hok : used.1 = .ok () := by decide +kernel
  obtain ⟨-, hresult⟩ := filter_forgets_history hreads hterms
  obtain ⟨hselected, horder, hagain⟩ := hresult hok
  exact ⟨hreads, hterms, hok, by decide +kernel, hselected, horder, hagain⟩

end RosInterface.Workspace
