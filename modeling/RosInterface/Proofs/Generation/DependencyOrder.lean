import RosInterface.Proofs.Generation.Logged
import RosInterface.Proofs.Resolution.Below
import RosInterface.Proofs.Resolution.History
import RosInterface.Proofs.Workspace.Reachable
import RosInterface.Proofs.Workspace.Types

namespace RosInterface.Workspace

/-! # What generated packages refer to

The order of a run is found from the dependencies of packages, while flattened definitions come from
the dependencies of types. `run_depends_backwards` puts both together: whatever a generated package
refers to was generated before it.

A step from a type to the type of one of its fields stays in the package or goes to one that the
package depends on, which stands in front of it in the order. So no chain of such steps, however
often it changes packages, ends behind the package that it started in.
-/

variable {workspace : Workspace}

/-! ## Steps between types -/

/-- The names of a package and of those in front of it. -/
def UpTo (before : List SelectedPackage) (package : SelectedPackage) (name : String) : Prop :=
  name = package.name ∨ name ∈ before.map (·.name)

/-- What a package depends on is in front of every package that it is itself up to. -/
theorem InOrder.mem_before {packages before after : List SelectedPackage}
    {package user : SelectedPackage} (h : workspace.InOrder packages)
    (hsplit : packages = before ++ package :: after) (huser : user ∈ before ++ [package])
    {used : String} (hused : used ∈ user.contents.dependencies) (hother : used ≠ user.name)
    (havailable : workspace.isAvailable used = true) : used ∈ before.map (·.name) := by
  rcases List.mem_append.mp huser with hbefore | hlast
  · -- What is in front of a package in front is in front as well.
    rcases List.append_of_mem hbefore with ⟨front, back, hback⟩
    have hsplit' : packages = front ++ user :: (back ++ package :: after) := by
      rw [hsplit, hback, List.append_assoc, List.cons_append]
    have hfront := h.first front user _ hsplit' used hused hother havailable
    rw [hback, List.map_append, List.mem_append]
    exact Or.inl hfront
  · rw [List.mem_singleton] at hlast
    subst hlast
    exact h.first before user after hsplit used hused hother havailable

theorem exists_of_upTo {before : List SelectedPackage} {package : SelectedPackage} {name : String}
    (h : UpTo before package name) : ∃ user ∈ before ++ [package], user.name = name := by
  rcases h with rfl | hmem
  · exact ⟨package, by simp, rfl⟩
  · rcases List.mem_map.mp hmem with ⟨user, huser, rfl⟩
    exact ⟨user, List.mem_append_left _ huser, rfl⟩

variable {catalog : Catalog} {packages before after : List SelectedPackage}
  {package : SelectedPackage}

/-- The type of a field belongs to a package that is up to the same point as the package of the
field. -/
theorem Coherent.upTo_of_depends (h : workspace.Coherent) (hselection : workspace.Selection)
    (hcatalog : workspace.catalog = .ok catalog) (horder : workspace.InOrder packages)
    (hsplit : packages = before ++ package :: after) {user used : TypeIdentity} {owner : String}
    (howner : user.package = some owner) (hupTo : UpTo before package owner)
    (hdep : catalog.Depends user used) {entry : TypeReference × Descriptor}
    (hfind : catalog.find? used = some entry) :
    ∃ name, used.package = some name ∧ UpTo before package name := by
  rcases h.exists_of_find? hcatalog hfind with ⟨provider, hprovider, -, -, -, -, hname, -, -⟩
  rcases h.of_depends hcatalog hdep with ⟨other, contents, hother, -, hcontents, hdependency⟩
  rw [howner, Option.some.injEq] at hother
  subst hother
  refine ⟨provider.name, hname, ?_⟩
  by_cases hsame : provider.name = owner
  · exact hsame ▸ hupTo
  · -- The package of the field is selected, with the contents that its type was found in.
    rcases exists_of_upTo hupTo with ⟨member, hmember, rfl⟩
    have hselected : member ∈ workspace.selected := by
      rw [← horder.perm.mem_iff, hsplit]
      rcases List.mem_append.mp hmember with hbefore | hlast
      · exact List.mem_append_left _ hbefore
      · rw [List.mem_singleton] at hlast
        simp [hlast]
    have hstored := hselection.stored member hselected
    rw [hcontents, Option.some.injEq] at hstored
    exact Or.inr (horder.mem_before hsplit hmember
      (hstored ▸ hdependency provider.name hname hsame) hsame
      (isAvailable_iff.mpr ⟨provider, hprovider, rfl⟩))

/-- Nor does any chain of fields lead out of the packages up to that point. -/
theorem Coherent.upTo_of_transGen (h : workspace.Coherent) (hselection : workspace.Selection)
    (hcatalog : workspace.catalog = .ok catalog) (horder : workspace.InOrder packages)
    (hsplit : packages = before ++ package :: after) {user used : TypeIdentity} {owner : String}
    (howner : user.package = some owner) (hupTo : UpTo before package owner)
    (hreach : Relation.TransGen catalog.Depends user used) {entry : TypeReference × Descriptor}
    (hfind : catalog.find? used = some entry) :
    ∃ name, used.package = some name ∧ UpTo before package name := by
  induction hreach generalizing entry with
  | single hdep =>
    exact h.upTo_of_depends hselection hcatalog horder hsplit howner hupTo hdep hfind
  | tail _ hdep ih =>
    rcases id hdep with ⟨reference, descriptor, hmiddle, -⟩
    rcases ih hmiddle with ⟨name, hname, hmiddleUpTo⟩
    exact h.upTo_of_depends hselection hcatalog horder hsplit hname hmiddleUpTo hdep hfind

/-! ## Documents -/

theorem rosName_of_outcome {rootNamespace : String} {document : PackageDocument}
    (hmade : PackageDocument.outcome catalog rootNamespace package = .ok document) :
    document.package.rosName = package.name := by
  rcases PackageDocument.outcome_eq_ok hmade with ⟨hdata, -⟩
  rw [hdata]
  rfl

/-- The messages of a document are made from message types of the package. -/
theorem exists_message_of_outcome {rootNamespace : String} {document : PackageDocument}
    (hmade : PackageDocument.outcome catalog rootNamespace package = .ok document)
    {message : MessageData} (hmessage : message ∈ document.messages) :
    ∃ parsed ∈ package.contents.messages, ∃ signed,
      catalog.outcome parsed.identity = .ok signed ∧
        message = .ofMessage parsed signed.type signed.signature := by
  rcases PackageDocument.outcome_eq_ok hmade with ⟨-, -, ⟨-, hnone⟩ | ⟨-, hmessages⟩⟩
  · rw [hnone] at hmessage
    simp at hmessage
  · rcases exists_of_mem_of_mapM_eq_ok hmessages hmessage with ⟨parsed, hparsed, houtcome⟩
    rcases bind_eq_ok_iff.mp houtcome with ⟨signed, hsigned, hdata⟩
    cases hdata
    exact ⟨parsed, hparsed, signed, hsigned, rfl⟩

/-- The flattened definition of a message is that of the type which its name resolves to. -/
def Flattens (workspace : Workspace) (message : MessageData) (type : LinkedType) : Prop :=
  ∃ resolver signed, workspace.resolver = .ok resolver ∧
    (resolver.resolve ⟨some message.package, message.rosTypeName⟩).1 = .ok signed ∧
      signed.type = type ∧ message.definition = type.definition

/-- The published dependencies of a package are itself and dependencies of its contents. -/
theorem mem_dependencies_of_published (haccounts : package.contents.Accounts package.info)
    {name : String} (hname : name ∈ package.publishedDependencies) (hother : name ≠ package.name) :
    name ∈ package.contents.dependencies := by
  unfold SelectedPackage.publishedDependencies at hname
  split at hname
  · rename_i hmeta
    exact (haccounts.collects hmeta).2 name hname hother
  · exact hname

/-! ## Runs -/

/-- What a document in the middle of an order refers to. -/
theorem Coherent.document_upTo (h : workspace.Coherent) (hselection : workspace.Selection)
    (hcatalog : workspace.catalog = .ok catalog) (horder : workspace.InOrder packages)
    (hsplit : packages = before ++ package :: after) {rootNamespace : String}
    {document : PackageDocument}
    (hmade : PackageDocument.outcome catalog rootNamespace package = .ok document) :
    (∀ message ∈ document.messages, ∃ type, workspace.Flattens message type ∧
      ∀ block ∈ type.closure, ∃ name, block.identity.package = some name ∧
        UpTo before package name) ∧
    ∀ name ∈ document.dependencies, workspace.isAvailable name = true →
      UpTo before package name := by
  have hselected : package ∈ workspace.selected := by
    rw [← horder.perm.mem_iff, hsplit]
    simp
  have haccounts := hselection.accounts package hselected
  constructor
  · intro message hmessage
    rcases exists_message_of_outcome hmade hmessage with ⟨parsed, hparsed, signed, hsigned, rfl⟩
    have hown := haccounts.own parsed hparsed
    have howner : parsed.type.package = some package.name := congrArg TypeIdentity.package hown
    refine ⟨signed.type, ⟨{ catalog }, signed, ?_, ?_, rfl, rfl⟩, ?_⟩
    · rw [resolver, hcatalog]
      rfl
    · have hidentity : (⟨some (parsed.type.package.getD ""),
          Naming.rosTypeName parsed.fileName parsed.part⟩ : TypeIdentity) = parsed.identity := by
        rw [howner, hown]
        rfl
      rw [← hsigned, ← hidentity]
      exact (Catalog.resolve_computes catalog _ [] (Catalog.sound_nil catalog)).1
    · intro block hblock
      -- Every block is the definition of a type that the message leads to.
      have hresolves := Catalog.outcome_eq_ok_iff.mp hsigned
      rcases hresolves.of_mem_closure hblock with ⟨hreach, below, hbelow, -⟩
      rcases hbelow.exists_entry with ⟨entry, hfind⟩
      exact h.upTo_of_transGen hselection hcatalog horder hsplit howner (Or.inl rfl) hreach hfind
  · intro name hname havailable
    rw [(PackageDocument.outcome_eq_ok hmade).2.1] at hname
    by_cases hother : name = package.name
    · exact Or.inl hother
    · exact Or.inr (horder.first before package after hsplit name
        (mem_dependencies_of_published haccounts hname hother) hother havailable)

/-- Whatever a generated package refers to was generated before it, if not with it: the packages of
all types in the flattened definitions of its messages, and its published dependencies as far as
they are available. The documents are those that the generator was called for. -/
theorem run_depends_backwards (h : workspace.Reachable) {σ : Type} (options : RunOptions)
    (generator : Generator σ) (tree : FileTree) (record : σ) {report : List GeneratedPackage}
    (hrun : (workspace.run options generator tree record).result = .ok report) :
    let documents := (workspace.run options generator.logged tree (record, [])).record.2
    documents.map (·.package.rosName) = report.map (·.name) ∧
      ∀ before document after, documents = before ++ document :: after →
        (∀ message ∈ document.messages, ∃ type, workspace.Flattens message type ∧
          ∀ block ∈ type.closure, ∃ name, block.identity.package = some name ∧
            (name = document.package.rosName ∨ name ∈ before.map (·.package.rosName))) ∧
        ∀ name ∈ document.dependencies, workspace.isAvailable name = true →
          name = document.package.rosName ∨ name ∈ before.map (·.package.rosName) := by
  have hlogged := (workspace.run_logged options generator tree record []).1.trans hrun
  obtain ⟨catalog, packages, ordered, documents, hcatalog, hordered, hdocuments, hnames, hlog⟩ :=
    run_logs hlogged
  rw [List.nil_append] at hlog
  have hlabel : ∀ package document,
      PackageDocument.outcome catalog options.rootNamespace package = .ok document →
        document.package.rosName = package.name := fun _ _ => rosName_of_outcome
  rw [hlog]
  refine ⟨(map_eq_of_mapM_eq_ok hdocuments hlabel).trans hnames.symm, ?_⟩
  intro before document after hsplit
  -- The documents were made one by one, so a split of them is a split of the order.
  rw [hsplit] at hdocuments
  rcases exists_split_of_mapM_eq_ok hdocuments with ⟨front, package, back, hpackages, hfront, hmade⟩
  have hintact := h.intact
  have hselection := hintact.filtered (order_eq_ok hintact.coherent hordered).1
  have hupTo := hintact.coherent.document_upTo hselection hcatalog (hintact.inOrder hordered)
    hpackages hmade
  rw [rosName_of_outcome hmade, map_eq_of_mapM_eq_ok hfront hlabel]
  exact hupTo

/-- The definition files of two packages; the first one has a field of the second one's type. -/
def exampleTree : FileTree where
  root := .directory [("A.msg", .file "b/B x\n".toUTF8), ("B.msg", .file "int8 y\n".toUTF8)]

/-- The two packages, the second of which is optional. -/
def examplePackages : List PackageInfo :=
  [examplePackage "a" [⟨⟨"A.msg"⟩, .message⟩] false,
    examplePackage "b" [⟨⟨"B.msg"⟩, .message⟩] true]

/-- The first of the two packages is selected, which brings the second one along. -/
def exampleWorkspace : Workspace :=
  ((parse exampleTree { available := examplePackages }).filter {}).2

theorem exampleWorkspace_reachable : exampleWorkspace.Reachable := by
  have hpackages : ofPackages examplePackages = .ok { available := examplePackages } :=
    ofPackages_eq_ok_iff.mpr ⟨by decide, rfl⟩
  exact .filter (.parse (reachable_of_ofPackages hpackages) exampleTree) {}

/-- The types of the two packages are in the catalog in the order that they were read in. -/
theorem exampleWorkspace_catalog :
    exampleWorkspace.catalog =
      .ok ⟨(exampleWorkspace.contents.flatMap (·.2.messages)).map definitionOf⟩ := by
  have hsorted : exampleWorkspace.sortedEntries = exampleWorkspace.contents :=
    List.mergeSort_of_pairwise (by decide +kernel)
  have hdistinct : firstRepeated [] (typeNames exampleWorkspace.contents) = none := by
    decide +kernel
  rw [catalog_eq_of_entries (by decide +kernel) hsorted, hdistinct]

/-- The two packages are generated, the one that was brought along in front. -/
theorem exampleWorkspace_depends_backwards :
    let run {σ : Type} (generator : Generator σ) (record : σ) :=
      exampleWorkspace.run ⟨⟨"out"⟩, "", false⟩ generator exampleTree record
    let generator : Generator Unit := fun document _ => pure ⟨document.package.rosName⟩
    exampleWorkspace.Reachable ∧
      (run generator ()).result =
        .ok [⟨"b", "1.0.0", ⟨"b"⟩, 1⟩, ⟨"a", "1.0.0", ⟨"a"⟩, 1⟩] ∧
      (run generator.logged ((), [])).record.2.map (·.package.rosName) = ["b", "a"] := by
  intro run generator
  have hresult : (run generator ()).result =
      .ok [⟨"b", "1.0.0", ⟨"b"⟩, 1⟩, ⟨"a", "1.0.0", ⟨"a"⟩, 1⟩] := by
    dsimp only [run, generator]
    rw [run_eq, exampleWorkspace_catalog]
    decide +kernel
  have hnames := (run_depends_backwards exampleWorkspace_reachable _ generator exampleTree ()
    hresult).1
  exact ⟨exampleWorkspace_reachable, hresult, hnames⟩

end RosInterface.Workspace
