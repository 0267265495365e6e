import RosInterface.Proofs.Generation.Memoryless
import RosInterface.Proofs.Workspace.ExtraTypes

namespace RosInterface

/-! # Packages that are not generated

A package that nothing needs is read like any other, and its types are in the catalog. They play no
part in a run: no chain of fields leads from a selected package to one that is not selected. But the
catalog is built at all only if no type is defined twice, and this is asked of every package that
could be read. `run_ignores_unneeded` says that there is no other way for such a package to show.
-/

/-- Both runs end with the same result, the same files and the same record. -/
def RunOutcome.Agrees {σ : Type} (a b : RunOutcome σ) : Prop :=
  a.result = b.result ∧ a.tree = b.tree ∧ a.record = b.record

namespace Making

variable {σ : Type} {document : SelectedPackage → Except TypeError PackageDocument}

/-- Only the documents of the packages themselves matter. -/
theorem inDirectories_congr {other : SelectedPackage → Except TypeError PackageDocument}
    {packages : List SelectedPackage}
    (hsame : ∀ package ∈ packages, document package = other package) (options : RunOptions)
    (generator : Generator σ) :
    inDirectories document options generator packages =
      inDirectories other options generator packages := by
  have hgenerated : ∀ directories, generateAll document generator directories packages =
      generateAll other generator directories packages := by
    intro directories
    refine mapM_congr fun package hpackage => ?_
    rw [generate, generate, hsame package hpackage]
  unfold inDirectories
  simp only [hgenerated]

/-- Whatever is wrong with a type becomes an error of the package that is generated. -/
theorem inDirectories_failsOnly (options : RunOptions) (generator : Generator σ)
    (packages : List SelectedPackage) :
    FailsOnly (fun error => ∀ problem, error ≠ .type problem)
      (inDirectories document options generator packages) := by
  unfold inDirectories
  cases packages.isEmpty with
  | true => exact .of_pure []
  | false =>
    have hfiles : FailsOnly (fun error => ∀ problem, error ≠ .type problem)
        (files (RunDirectories.create options.output) : Making σ RunDirectories) := by
      intro products error hfails problem hproblem
      rw [hproblem] at hfails
      revert hfails
      show ((RunDirectories.create options.output).run products.tree).1.mapError
        WorkspaceError.file = _ → False
      cases ((RunDirectories.create options.output).run products.tree).1 with
      | error failure => intro hfails; cases hfails
      | ok directories => intro hfails; cases hfails
    refine hfiles.bind fun directories => ?_
    have hgenerated : FailsOnly (fun error => ∀ problem, error ≠ .type problem)
        (generateAll document generator directories packages) :=
      .mapM fun package => .tryCatch_throw fun error problem hproblem => by cases hproblem
    cases options.preserve with
    | true => exact hgenerated
    | false =>
      -- The removal of the directories at the end has no say in the outcome.
      intro products error hfails
      exact hgenerated products error hfails

end Making

namespace Workspace

variable {workspace : Workspace}

/-! ## Types within reach of a selection -/

/-- The type belongs to a selected package, or to none that is available. -/
def OfSelected (workspace : Workspace) (identity : TypeIdentity) : Prop :=
  ∀ name, identity.package = some name → workspace.isAvailable name = true →
    name ∈ workspace.selected.map (·.name)

/-- The fields of such types have such types. -/
theorem Coherent.ofSelected_of_depends (h : workspace.Coherent) (hselection : workspace.Selection)
    {catalog : Catalog} (hcatalog : workspace.catalog = .ok catalog) {user used : TypeIdentity}
    (huser : workspace.OfSelected user) (hdep : catalog.Depends user used) :
    workspace.OfSelected used := by
  rcases h.of_depends hcatalog hdep with ⟨owner, contents, howner, hthere, hcontents, hdependency⟩
  rcases List.mem_map.mp (huser owner howner hthere) with ⟨member, hmember, rfl⟩
  intro name hname havailable
  by_cases hsame : name = member.name
  · exact List.mem_map.mpr ⟨member, hmember, hsame.symm⟩
  · have hstored := hselection.stored member hmember
    rw [hcontents, Option.some.injEq] at hstored
    have hused : name ∈ member.contents.dependencies := hstored ▸ hdependency name hname hsame
    exact hselection.closed member hmember name hused havailable

theorem Selection.ofSelected (h : workspace.Selection) {package : SelectedPackage}
    (hpackage : package ∈ workspace.selected) {message : ParsedMessage}
    (hmessage : message ∈ package.contents.messages) : workspace.OfSelected message.identity := by
  have hown := (h.accounts package hpackage).own message hmessage
  intro name hname _
  rw [hown, Option.some.injEq] at hname
  exact List.mem_map.mpr ⟨package, hpackage, hname⟩

namespace OneMore

variable {tree : FileTree} {extra : PackageInfo} {more less : Workspace}

theorem order_eq (h : OneMore tree extra more less) : more.order.1 = less.order.1 := by
  unfold order
  rw [h.stage, h.orderer, h.selected]
  split
  · rfl
  · rcases less.orderer.inOrder SelectedPackage.unit less.selected with ⟨remaining | found, orderer⟩
    · rfl
    · rfl

/-- Selected packages are those of the smaller workspace. -/
theorem not_selected (h : OneMore tree extra more less) (hmore : more.Coherent)
    (hless : less.Coherent) (hselection : less.Selection) :
    extra.name ∉ more.selected.map (·.name) := by
  intro hmem
  rw [h.selected] at hmem
  rcases List.mem_map.mp hmem with ⟨package, hpackage, hname⟩
  have hknown := mem_knownNames_of_contents? (hselection.stored package hpackage)
  rcases isAvailable_iff.mp (hless.stored _ hknown) with ⟨other, hother, hsame⟩
  rcases h.available with ⟨isOptional, front, back, hmoreAvailable, hlessAvailable⟩
  have hdistinct := hmore.distinct
  rw [hmoreAvailable, List.append_assoc, List.singleton_append, List.map_append, List.map_cons,
    List.nodup_middle, List.nodup_cons, ← List.map_append, ← hlessAvailable] at hdistinct
  exact hdistinct.1 (List.mem_map.mpr ⟨other, hother, hsame.trans hname⟩)

variable {a b : Catalog} {middle : List (TypeReference × Descriptor)}

/-- Definitions of the extra package are out of reach. -/
theorem outcome_eq (h : OneMore tree extra more less) (hmore : more.Coherent)
    (hselection : more.Selection) (hunselected : extra.name ∉ more.selected.map (·.name))
    (hcatalog : more.catalog = .ok a) (hinserted : Inserted middle a.definitions b.definitions)
    (hmiddle : ∀ entry ∈ middle, entry.1.identity.package = some extra.name)
    {identity : TypeIdentity} (hidentity : more.OfSelected identity) :
    a.outcome identity = b.outcome identity := by
  refine Catalog.outcome_congr ?_ ?_ hidentity
  · -- The types within reach belong to selected packages, or to none that is available.
    intro identity hidentity
    refine hinserted.find?_eq fun entry hentry => ?_
    rw [beq_eq_false_iff_ne]
    rintro rfl
    have havailable : more.isAvailable extra.name = true := h.isAvailable_iff_or.mpr (Or.inr rfl)
    exact hunselected (hidentity _ (hmiddle entry hentry) havailable)
  · intro user used huser hdep
    exact hmore.ofSelected_of_depends hselection hcatalog huser hdep

theorem document_eq (h : OneMore tree extra more less) (hmore : more.Coherent)
    (hselection : more.Selection) (hunselected : extra.name ∉ more.selected.map (·.name))
    (hcatalog : more.catalog = .ok a) (hinserted : Inserted middle a.definitions b.definitions)
    (hmiddle : ∀ entry ∈ middle, entry.1.identity.package = some extra.name)
    {package : SelectedPackage} (hpackage : package ∈ more.selected) (rootNamespace : String) :
    PackageDocument.outcome a rootNamespace package =
      PackageDocument.outcome b rootNamespace package := by
  have hmessages : package.contents.messages.mapM (MessageData.outcome a) =
      package.contents.messages.mapM (MessageData.outcome b) := by
    refine mapM_congr fun message hmessage => ?_
    have hsigned := h.outcome_eq hmore hselection hunselected hcatalog hinserted hmiddle
      (hselection.ofSelected hpackage hmessage)
    rw [MessageData.outcome, MessageData.outcome, hsigned]
  unfold PackageDocument.outcome
  rw [hmessages]

end OneMore

/-! ## Runs -/

theorem order_ne_type {problem : TypeError} : workspace.order.1 ≠ .error (.type problem) := by
  unfold order
  split
  · intro hsame
    cases hsame
  · rcases workspace.orderer.inOrder SelectedPackage.unit workspace.selected with
      ⟨remaining | found, orderer⟩
    · intro hsame
      cases hsame
    · intro hsame
      cases hsame

variable {σ : Type}

/-- Only the catalog makes a run fail with a problem of types. -/
theorem run_ne_type {problem : TypeError} (hcatalog : workspace.catalog ≠ .error (.type problem))
    (options : RunOptions) (generator : Generator σ) (files : FileTree) (record : σ) :
    (workspace.run options generator files record).result ≠ .error (.type problem) := by
  have horder : workspace.order.1 ≠ .error (.type problem) := order_ne_type
  rw [run_eq]
  cases hbuilt : workspace.catalog with
  | error error =>
    rw [hbuilt] at hcatalog
    intro hsame
    cases hsame
    exact hcatalog rfl
  | ok catalog =>
    rcases hordered : workspace.order with ⟨error | packages, ordered⟩
    · rw [hordered] at horder
      intro hsame
      cases hsame
      exact horder rfl
    · intro hsame
      exact Making.inDirectories_failsOnly options generator packages _ _ hsame problem rfl

namespace OneMore

variable {tree : FileTree} {extra : PackageInfo} {more less : Workspace}

/-- The runs of two workspaces that have a selection differ exactly if a repeated type of the extra
package is the first one. -/
theorem run_agrees_iff (h : OneMore tree extra more less) (hmore : more.Intact)
    (hless : less.Intact) (hfiltered : less.stage.canOrder = true) (options : RunOptions)
    (generator : Generator σ) (files : FileTree) (record : σ) :
    (more.run options generator files record).Agrees (less.run options generator files record) ↔
      ¬ RepeatsFirst tree extra less := by
  have hparsed := hasParsed_of_canOrder hfiltered
  constructor
  · -- The error names a type of the extra package, and no run without it ends with that one.
    rintro ⟨hresult, -⟩ hfirst
    obtain ⟨identity, -, hcatalog, hother⟩ :=
      h.catalogs_differ hmore.coherent hless.coherent hparsed hfirst
    have hfails : (more.run options generator files record).result =
        .error (.type (.duplicate identity.text)) := by
      rw [run_eq, hcatalog]
    exact run_ne_type hother options generator files record (hresult.symm.trans hfails)
  · intro hfirst
    rcases h.catalogs_agree hmore.coherent hless.coherent hparsed hfirst with
      ⟨error, hcatalog, hcatalog'⟩ | ⟨a, b, hcatalog, hcatalog', middle, hinserted, hmiddle⟩
    · rw [run_eq, run_eq, hcatalog, hcatalog']
      exact ⟨rfl, rfl, rfl⟩
    · have hselection := hmore.filtered (h.stage ▸ hfiltered)
      have hunselected := h.not_selected hmore.coherent hless.coherent (hless.filtered hfiltered)
      have horder := h.order_eq
      rw [run_eq, run_eq, hcatalog, hcatalog']
      rcases hordered : more.order with ⟨outcome, ordered⟩
      rcases hordered' : less.order with ⟨outcome', ordered'⟩
      rw [hordered, hordered'] at horder
      subst horder
      cases outcome with
      | error error => exact ⟨rfl, rfl, rfl⟩
      | ok packages =>
        -- The order has selected packages only, and their documents are the same.
        have hsame : ∀ package ∈ packages,
            PackageDocument.outcome a options.rootNamespace package =
              PackageDocument.outcome b options.rootNamespace package := by
          intro package hpackage
          have hselected := (hmore.inOrder hordered).perm.mem_iff.mp hpackage
          exact h.document_eq hmore.coherent hselection hunselected hcatalog hinserted hmiddle
            hselected options.rootNamespace
        have hrun := Making.inDirectories_congr hsame options generator
        simp only [hrun]
        exact ⟨rfl, rfl, rfl⟩

end OneMore

/-! ## Workspaces of packages -/

/-- A package whose definition files can all be read, and define a type twice. -/
def DefinesTwice (tree : FileTree) (package : PackageInfo) : Prop :=
  ∃ contents, PackageContents.ofPackage tree package = .ok contents ∧ RepeatsType contents

theorem readable?_eq_some_iff {tree : FileTree} {package : PackageInfo} {name : String}
    {contents : PackageContents} : readable? tree package = some (name, contents) ↔
      package.name = name ∧ PackageContents.ofPackage tree package = .ok contents := by
  unfold readable?
  cases PackageContents.ofPackage tree package with
  | error error => simp [Except.toOption]
  | ok read => simp [Except.toOption]

theorem contents_filter (workspace : Workspace) (packageFilter : PackageFilter) :
    (workspace.filter packageFilter).2.contents = workspace.contents := by
  rcases filter_cases workspace packageFilter with ⟨error, hfilter⟩ | ⟨-, -, hfilter⟩
  · rw [hfilter]
  · rw [hfilter]
    cases (workspace.reclassified packageFilter).needed with
    | error name => rfl
    | ok names => rfl

/-- Where a workspace has the contents of some packages, it is up to these whether a repeated type
of another one comes first. -/
theorem repeatsFirst_iff {tree : FileTree} {extra : PackageInfo} {packages : List PackageInfo}
    (hcontents : workspace.contents = packages.filterMap (readable? tree)) :
    RepeatsFirst tree extra workspace ↔ DefinesTwice tree extra ∧
      ∀ package ∈ packages, package.name < extra.name → ¬ DefinesTwice tree package := by
  constructor
  · rintro ⟨contents, hread, hrepeats, hsmaller⟩
    refine ⟨⟨contents, (readable?_eq_some_iff.mp hread).2, hrepeats⟩, ?_⟩
    rintro package hpackage hlt ⟨other, hother, htwice⟩
    have hmem : (package.name, other) ∈ workspace.contents := by
      rw [hcontents, List.mem_filterMap]
      exact ⟨package, hpackage, readable?_eq_some_iff.mpr ⟨rfl, hother⟩⟩
    exact hsmaller _ hmem (compare_eq_lt_iff.mpr hlt) htwice
  · rintro ⟨⟨contents, hread, hrepeats⟩, hsmaller⟩
    refine ⟨contents, readable?_eq_some_iff.mpr ⟨rfl, hread⟩, hrepeats, ?_⟩
    rintro ⟨name, other⟩ hmem hlt htwice
    rw [hcontents, List.mem_filterMap] at hmem
    rcases hmem with ⟨package, hpackage, hentry⟩
    rcases readable?_eq_some_iff.mp hentry with ⟨rfl, hother⟩
    exact hsmaller package hpackage (compare_eq_lt_iff.mp hlt) ⟨other, hother, htwice⟩

/-- A package that a filter does not make needed has no say in which packages are selected, nor in
the error if that fails. It has none in the run either, unless its own definition files define a
type twice: then the run is rejected for that reason, or because of a package with a smaller name of
which the same is true. -/
theorem run_ignores_unneeded {before after : List PackageInfo} {extra : PackageInfo}
    {full : Workspace} (hpackages : ofPackages (before ++ extra :: after) = .ok full)
    {tree : FileTree} {packageFilter : PackageFilter}
    (hunneeded : ¬ ((full.parse tree).reclassified packageFilter).Needed extra.name) :
    ∃ fewer, ofPackages (before ++ after) = .ok fewer ∧
      let more := (full.parse tree).filter packageFilter
      let less := (fewer.parse tree).filter packageFilter
      more.1 = less.1 ∧ more.2.selected = less.2.selected ∧
        (more.1 = .ok () → ∀ {σ : Type} (options : RunOptions) (generator : Generator σ)
          (files : FileTree) (record : σ),
          (more.2.run options generator files record).Agrees
              (less.2.run options generator files record) ↔
            (DefinesTwice tree extra →
              ∃ package ∈ before ++ after, package.name < extra.name ∧
                DefinesTwice tree package)) := by
  rcases ofPackages_eq_ok_iff.mp hpackages with ⟨hdistinct, hfull⟩
  have hsub : (before ++ after).Sublist (before ++ extra :: after) :=
    (List.sublist_cons_self extra after).append_left before
  have hfewer := hdistinct.sublist (hsub.map (·.name))
  have hofFewer : ofPackages (before ++ after) = .ok { available := before ++ after } :=
    ofPackages_eq_ok_iff.mpr ⟨hfewer, rfl⟩
  refine ⟨_, hofFewer, ?_⟩
  intro more less
  have hparse : OneMore tree extra (full.parse tree)
      (parse tree { available := before ++ after }) :=
    hfull ▸ oneMore_parse tree hdistinct hfewer
  have hmoreParsed := (reachable_of_ofPackages hpackages).parse tree
  have hlessParsed := (reachable_of_ofPackages hofFewer).parse tree
  have hstage : (full.parse tree).stage.hasParsed = true := by
    rcases parse_eq tree hdistinct with ⟨registry, hparsed⟩
    rw [hfull, hparsed]
    rfl
  obtain ⟨houtcome, hselected, hfiltered⟩ :=
    hparse.filter (hmoreParsed.intact.parsed hstage) hunneeded
  refine ⟨houtcome, hselected, ?_⟩
  intro hok σ options generator files record
  have hcontents : less.2.contents = (before ++ after).filterMap (readable? tree) := by
    rcases parse_eq tree hfewer with ⟨registry, hparsed⟩
    rw [contents_filter, hparsed]
  rw [(hfiltered hok).run_agrees_iff (hmoreParsed.filter packageFilter).intact
    (hlessParsed.filter packageFilter).intact (canOrder_of_filter (houtcome ▸ hok)),
    repeatsFirst_iff hcontents]
  push Not
  rfl

/-- Definition files of which one cannot be read, and two define the same type. -/
def mixedTree : FileTree where
  root := .directory [("A.msg", .file "int32 x\n".toUTF8), ("Broken.msg", .file "int32\n".toUTF8),
    ("FooRequest.msg", .file "int32 y\n".toUTF8), ("Foo.srv", .file "int32 q\n---\n".toUTF8)]

/-- A package that is built for its own sake. -/
def goodPackage : PackageInfo :=
  examplePackage "a" [⟨⟨"A.msg"⟩, .message⟩] false

/-- A package that cannot be read. -/
def brokenPackage : PackageInfo :=
  examplePackage "x" [⟨⟨"Broken.msg"⟩, .message⟩] true

/-- A package whose message file and service file define the same type. -/
def clashingPackage : PackageInfo :=
  examplePackage "x" [⟨⟨"FooRequest.msg"⟩, .message⟩, ⟨⟨"Foo.srv"⟩, .service⟩] true

/-- A package is not needed if the search ends without it. -/
theorem not_needed_of_not_mem {tree : FileTree} {packages : List PackageInfo}
    (hdistinct : (packages.map (·.name)).Nodup) {packageFilter : PackageFilter}
    {names : List String}
    (hneeded : ((parse tree { available := packages }).reclassified packageFilter).needed =
      .ok names) {name : String} (hname : name ∉ names) :
    ¬ ((parse tree { available := packages }).reclassified packageFilter).Needed name := by
  have hpackages := ofPackages_eq_ok_iff.mpr ⟨hdistinct, rfl⟩
  have hreachable := (reachable_of_ofPackages hpackages).parse tree
  have hknown := isKnown_reclassified (hreachable.intact.parsed (hasParsed_parse _ tree)) packageFilter
  have hspec := needed_spec hknown
  rw [hneeded] at hspec
  exact fun hfound => hname ((hspec.1 name).mpr hfound)

/-- Nobody notices a package that cannot be read, as long as it is not needed. -/
theorem brokenPackage_ignored :
    let more := (parse mixedTree { available := [goodPackage, brokenPackage] }).filter {}
    let less := (parse mixedTree { available := [goodPackage] }).filter {}
    let generator : Generator Unit := fun document _ => pure ⟨document.package.rosName⟩
    ofPackages [goodPackage, brokenPackage] =
        .ok { available := [goodPackage, brokenPackage] } ∧
      ¬ ((parse mixedTree { available := [goodPackage, brokenPackage] }).reclassified {}).Needed
        brokenPackage.name ∧
      more.1 = .ok () ∧
      (more.2.run ⟨⟨"out"⟩, "", false⟩ generator mixedTree ()).Agrees
        (less.2.run ⟨⟨"out"⟩, "", false⟩ generator mixedTree ()) := by
  intro more less generator
  have hpackages : ofPackages [goodPackage, brokenPackage] =
      .ok { available := [goodPackage, brokenPackage] } :=
    ofPackages_eq_ok_iff.mpr ⟨by decide, rfl⟩
  have hneeded : ((parse mixedTree { available := [goodPackage, brokenPackage] }).reclassified
      {}).needed = .ok ["a"] := by decide +kernel
  have hunneeded := not_needed_of_not_mem (by decide) hneeded
    (show brokenPackage.name ∉ ["a"] by decide)
  have hok : more.1 = .ok () := by decide +kernel
  have hunreadable : (PackageContents.ofPackage mixedTree brokenPackage).toOption = none := by
    decide +kernel
  refine ⟨hpackages, hunneeded, hok, ?_⟩
  obtain ⟨fewer, hfewer, -, -, hruns⟩ :=
    @run_ignores_unneeded [goodPackage] [] brokenPackage _ hpackages mixedTree {} hunneeded
  rcases ofPackages_eq_ok_iff.mp hfewer with ⟨-, rfl⟩
  refine (hruns hok _ generator mixedTree ()).mpr ?_
  rintro ⟨contents, hread, -⟩
  rw [hread] at hunreadable
  cases hunreadable

/-- A package that can be read ends the run, though it is not needed, if it defines a type twice. -/
theorem clashingPackage_interferes :
    let more := (parse mixedTree { available := [goodPackage, clashingPackage] }).filter {}
    let less := (parse mixedTree { available := [goodPackage] }).filter {}
    let generator : Generator Unit := fun document _ => pure ⟨document.package.rosName⟩
    ¬ ((parse mixedTree { available := [goodPackage, clashingPackage] }).reclassified {}).Needed
        clashingPackage.name ∧
      more.1 = .ok () ∧ less.1 = .ok () ∧
      (more.2.run ⟨⟨"out"⟩, "", false⟩ generator mixedTree ()).result =
        .error (.type (.duplicate "x/FooRequest")) ∧
      (less.2.run ⟨⟨"out"⟩, "", false⟩ generator mixedTree ()).result =
        .ok [⟨"a", "1.0.0", ⟨"a"⟩, 1⟩] := by
  intro more less generator
  have hneeded : ((parse mixedTree { available := [goodPackage, clashingPackage] }).reclassified
      {}).needed = .ok ["a"] := by decide +kernel
  have hunneeded := not_needed_of_not_mem (by decide) hneeded
    (show clashingPackage.name ∉ ["a"] by decide)
  have hmore : more.2.sortedEntries = more.2.contents :=
    List.mergeSort_of_pairwise (by decide +kernel)
  have hless : less.2.sortedEntries = less.2.contents :=
    List.mergeSort_of_pairwise (by decide +kernel)
  refine ⟨hunneeded, by decide +kernel, by decide +kernel, ?_, ?_⟩
  · rw [run_eq, catalog_eq_of_entries (by decide +kernel) hmore]
    decide +kernel
  · rw [run_eq, catalog_eq_of_entries (by decide +kernel) hless]
    decide +kernel

end Workspace

end RosInterface
