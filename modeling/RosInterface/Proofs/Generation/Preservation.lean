import RosInterface.Proofs.Generation.Staging

namespace RosInterface

/-! # Preserved definitions

When the hidden directory of a run is kept, it holds the flattened definitions of all message types
that were generated. `Workspace.run_preserves_definitions` says which file holds which definition: a
definition stays unless a package that is generated later has a type of the same name and is staged
in the same place. Places are the same for texts that come to the same, and the text of a package
does not tell where its name ends and its version starts.

* `Making.Attempt.exists_written` says what a package that was generated has left in the tree;
* `Making.Generates.grows` and `Making.Generates.file_kept` say what the packages behind it have
  left of that.
-/

/-! ## Types of a package -/

/-- The name of a message type in its package. -/
def ParsedMessage.rosTypeName (message : ParsedMessage) : String :=
  Naming.rosTypeName message.fileName message.part

/-- No two message types of a package have the same name if the workspace has a catalog. -/
theorem Workspace.Reachable.nodup_rosTypeNames {workspace : Workspace} (h : workspace.Reachable)
    {catalog : Catalog} (hcatalog : workspace.catalog = .ok catalog) {package : SelectedPackage}
    (hstored : workspace.contents? package.name = some package.contents)
    (haccounts : package.contents.Accounts package.info) :
    (package.contents.messages.map (·.rosTypeName)).Nodup := by
  rcases Workspace.catalog_eq_ok hcatalog with ⟨-, hnodup, hdefinitions⟩
  have hidentities : (workspace.allMessages.map (·.identity)).Nodup := by
    rwa [Catalog.names, hdefinitions, List.map_map] at hnodup
  rw [Workspace.allMessages, List.map_flatMap, List.nodup_flatMap] at hidentities
  have hmem := (Workspace.mem_sortedContents h.intact.coherent.storedOnce).mpr ⟨_, hstored⟩
  have hown := hidentities.1 package.contents hmem
  have hsame : package.contents.messages.map (·.identity) =
      (package.contents.messages.map (·.rosTypeName)).map
        (TypeIdentity.mk (some package.info.name)) := by
    rw [List.map_map]
    exact List.map_congr_left haccounts.own
  rw [hsame] at hown
  exact hown.of_map _

/-- The data of a message type has its name, and the definition of its linked form. -/
theorem MessageData.of_outcome {catalog : Catalog} {parsed : ParsedMessage} {message : MessageData}
    (hmessage : outcome catalog parsed = .ok message) :
    message.rosTypeName = parsed.rosTypeName ∧
      ∃ signed, catalog.outcome parsed.identity = .ok signed ∧
        message.definition = signed.type.definition := by
  rcases bind_eq_ok_iff.mp hmessage with ⟨signed, hsigned, hdata⟩
  cases hdata
  exact ⟨rfl, signed, hsigned, rfl⟩

/-- A document has the definitions of the package's message types, under their names. -/
theorem PackageDocument.messages_of_outcome {catalog : Catalog} {rootNamespace : String}
    {package : SelectedPackage} {document : PackageDocument}
    (haccounts : package.contents.Accounts package.info)
    (hmade : outcome catalog rootNamespace package = .ok document) :
    document.messages.map (·.rosTypeName) = package.contents.messages.map (·.rosTypeName) ∧
      ∀ parsed ∈ package.contents.messages, ∃ message ∈ document.messages,
        MessageData.outcome catalog parsed = .ok message := by
  rcases (outcome_eq_ok hmade).2.2 with ⟨hmeta, hnone⟩ | ⟨-, hmessages⟩
  · rw [hnone, (haccounts.collects hmeta).1]
    exact ⟨rfl, fun _ hparsed => absurd hparsed List.not_mem_nil⟩
  · refine ⟨map_eq_of_mapM_eq_ok hmessages fun parsed message hmessage => ?_, ?_⟩
    · exact (MessageData.of_outcome hmessage).1
    · exact fun parsed hparsed => exists_mem_of_mapM_eq_ok hmessages hparsed

/-! ## Generated packages -/

namespace Making

open DescriptorFile FileTree

variable {σ : Type} {document : SelectedPackage → Except TypeError PackageDocument}
  {layout : Json.Layout} {directories : RunDirectories}

/-- A package that was generated has its directory created and its files written. -/
theorem Attempt.exists_written {package : SelectedPackage} {before after : Products σ}
    {called : List PackageDocument} {generated : GeneratedPackage}
    (h : Attempt document (Run.descriptorGenerator layout) directories package before called
      (.ok generated) after) :
    ∃ made prepared, document package = .ok made ∧
      (directories.forPackage package.info).run before.tree =
        (.ok (directories.own package.info), prepared) ∧
      (write layout made (directories.own package.info)).run prepared =
        (.ok generated.artifact, after.tree) := by
  cases h with
  | @finished made own prepared artifact _ hdocument hdirectory hcall =>
    obtain rfl := RunDirectories.eq_own_of_forPackage hdirectory
    have hrun := (run_files (write layout made (directories.own package.info))
      { before with tree := prepared }).symm.trans hcall
    rcases Prod.mk.inj hrun with ⟨hok, hafter⟩
    exact ⟨made, prepared, hdocument, hdirectory,
      Prod.ext (mapError_eq_ok_iff.mp hok) (congrArg Products.tree hafter)⟩

/-- Generating a package changes what is listed for its document. -/
theorem Attempt.changes {package : SelectedPackage} {before after : Products σ}
    {called : List PackageDocument} {generated : GeneratedPackage}
    (h : Attempt document (Run.descriptorGenerator layout) directories package before called
      (.ok generated) after) {made : PackageDocument} (hmade : document package = .ok made) :
    Relation.ReflTransGen (Change (createdDirectories made (directories.own package.info))
      (writtenFiles made (directories.own package.info))) before.tree after.tree := by
  rcases h.exists_written with ⟨other, prepared, hother, hdirectory, hwrite⟩
  cases hmade.symm.trans hother
  have hdirectories : Confined (createdDirectories made (directories.own package.info))
      (writtenFiles made (directories.own package.info))
      (directories.forPackage package.info) :=
    RunDirectories.forPackage_confined List.mem_cons_self
  have hfirst := hdirectories before.tree
  have hsecond := write_confined layout made (directories.own package.info) prepared
  rw [hdirectory] at hfirst
  rw [hwrite] at hsecond
  exact hfirst.trans hsecond

theorem Attempt.grows {package : SelectedPackage} {before after : Products σ}
    {called : List PackageDocument} {generated : GeneratedPackage}
    (h : Attempt document (Run.descriptorGenerator layout) directories package before called
      (.ok generated) after) : Grows before.tree after.tree := by
  rcases h.exists_written with ⟨made, -, hmade, -, -⟩
  exact .of_changes (h.changes hmade)

variable {packages : List SelectedPackage} {before after : Products σ}
  {calls : List PackageDocument} {report : List GeneratedPackage}

/-- The tree only grows while packages are generated. -/
theorem Generates.grows (h : Generates document (Run.descriptorGenerator layout) directories packages
    before calls report after) : Grows before.tree after.tree := by
  induction h with
  | nil => exact .refl _
  | cons hfirst _ ih => exact hfirst.grows.trans ih

/-- Each package that was generated has its staging directory. -/
theorem Generates.isDirectory_own (h : Generates document (Run.descriptorGenerator layout)
    directories packages before calls report after) (hnamed : EndsWithName directories.staging)
    {package : SelectedPackage} (hpackage : package ∈ packages)
    (hstays : RunDirectories.StaysInside package.info) :
    ∃ place entries, after.tree.resolve (directories.own package.info).staging =
      .ok ⟨place, some (.directory entries)⟩ := by
  induction h with
  | nil => cases hpackage
  | cons hfirst hrest ih =>
    rcases List.mem_cons.mp hpackage with rfl | hpackage
    · rcases hfirst.exists_written with ⟨made, prepared, -, hdirectory, hwrite⟩
      rcases isDirectory_eq_true_iff.mp
        (RunDirectories.isDirectory_own hnamed hstays hdirectory) with ⟨place, entries, hresolve⟩
      have hwritten := write_confined layout made (directories.own package.info) prepared
      rw [hwrite] at hwritten
      have hgrows := (Grows.of_changes hwritten).trans hrest.grows
      exact ⟨place, hgrows.within.resolve_directory hresolve⟩
    · exact ih hpackage

/-- The report has the descriptors of all packages. -/
theorem Generates.exists_artifact (h : Generates document (Run.descriptorGenerator layout)
    directories packages before calls report after) {package : SelectedPackage}
    (hpackage : package ∈ packages) {made : PackageDocument} (hmade : document package = .ok made) :
    ∃ generated ∈ report, generated.artifact = target made (directories.own package.info) := by
  induction h with
  | nil => cases hpackage
  | cons hfirst hrest ih =>
    rcases List.mem_cons.mp hpackage with rfl | hpackage
    · rcases hfirst.exists_written with ⟨other, prepared, hother, -, hwrite⟩
      cases hmade.symm.trans hother
      exact ⟨_, List.mem_cons_self, artifact_of_write hwrite⟩
    · rcases ih hpackage with ⟨generated, hgenerated, hartifact⟩
      exact ⟨generated, List.mem_cons_of_mem _ hgenerated, hartifact⟩

/-- A file stays as it is if no package writes to where it is. -/
theorem Generates.file_kept (h : Generates document (Run.descriptorGenerator layout) directories
    packages before calls report after) {location : Location} {content : ByteArray}
    (hfile : before.tree.get? location = some (.file content))
    (hother : ∀ package ∈ packages, ∀ made, document package = .ok made →
      ∀ path ∈ writtenFiles made (directories.own package.info), ∀ place,
        after.tree.resolve path = .ok place → place.location ≠ location) :
    after.tree.get? location = some (.file content) := by
  induction h with
  | nil => exact hfile
  | cons hfirst hrest ih =>
    rw [List.forall_mem_cons] at hother
    rcases hfirst.exists_written with ⟨made, -, hmade, -, -⟩
    exact ih (file_kept_of_changes (hfirst.changes hmade) hrest.grows.within hfile
      (hother.1 made hmade)) hother.2

/-- A package in the middle is generated from what those before it left, and those behind it are
generated from what it leaves. -/
theorem Generates.exists_attempt {generator : Generator σ} {front back : List SelectedPackage}
    {package : SelectedPackage}
    (h : Generates document generator directories (front ++ package :: back) before calls report
      after) :
    ∃ start middle called generated behind others,
      Attempt document generator directories package start called (.ok generated) middle ∧
        Generates document generator directories back middle behind others after := by
  induction front generalizing before calls report with
  | nil =>
    cases h with
    | cons hfirst hrest => exact ⟨_, _, _, _, _, _, hfirst, hrest⟩
  | cons earlier front ih =>
    cases h with
    | cons _ hrest => exact ih hrest

/-- A run that succeeds with some packages has created its directories. -/
theorem exists_create_of_ok {generator : Generator σ} {options : RunOptions}
    (hsome : packages ≠ [])
    (hrun : (inDirectories document options generator packages).run before = (.ok report, after)) :
    ∃ directories created,
      (RunDirectories.create options.output).run before.tree = (.ok directories, created) := by
  unfold inDirectories at hrun
  rw [if_neg (by simpa using hsome)] at hrun
  rcases run_bind_eq_ok hrun with ⟨directories, between, hcreate, -⟩
  rw [run_files, Prod.mk.injEq] at hcreate
  exact ⟨directories, _, Prod.ext (mapError_eq_ok_iff.mp hcreate.1) rfl⟩

end Making

/-! ## Runs of a workspace -/

theorem FileTree.readText_of_resolve {tree : FileTree} {path : Path} {place : Location}
    {text : String} (hresolve : tree.resolve path = .ok ⟨place, some (.file text.toUTF8)⟩) :
    tree.readText path = .ok text := by
  have hdecoded : String.fromUTF8? text.toUTF8 = some text := dif_pos text.isValidUTF8
  unfold readText readBytes
  rw [hresolve]
  dsimp only [bind, Except.bind, pure, Except.pure]
  rw [hdecoded]

namespace SelectedPackage

/-- The name of a package has no slash, and its version does not lead out of the hidden directory;
its contents are those of the package, with names from definition files. -/
structure Stageable (package : SelectedPackage) : Prop where
  slashless : '/' ∉ package.name.toList
  staysInside : RunDirectories.StaysInside package.info
  accounts : package.contents.Accounts package.info
  types : ∀ message ∈ package.contents.messages, '/' ∉ message.rosTypeName.toList

/-- If it is generated later, the package writes to where the definition of a message type is: it is
staged in the same place and has a type of the same name. -/
def Overwrites (later package : SelectedPackage) (message : ParsedMessage) : Prop :=
  RunDirectories.placeOf later.info = RunDirectories.placeOf package.info ∧
    ∃ other ∈ later.contents.messages, other.rosTypeName = message.rosTypeName

/-- Without slashes, name and version come to the same text for a package that overwrites another's
definition. -/
theorem Overwrites.packageName_eq {later package : SelectedPackage} {message : ParsedMessage}
    (h : later.Overwrites package message)
    (hlater : '/' ∉ later.info.name.toList ∧ '/' ∉ later.info.version.toList)
    (hpackage : '/' ∉ package.info.name.toList ∧ '/' ∉ package.info.version.toList) :
    RunDirectories.packageName later.info = RunDirectories.packageName package.info := by
  have hplace := h.1
  rw [(RunDirectories.placeOf_of_slashless hlater.1 hlater.2).2,
    (RunDirectories.placeOf_of_slashless hpackage.1 hpackage.2).2] at hplace
  exact PathPart.name.inj (List.singleton_inj.mp hplace)

end SelectedPackage

namespace Making

open DescriptorFile FileTree

variable {σ : Type} {layout : Json.Layout} {directories : RunDirectories} {catalog : Catalog}
  {rootNamespace : String} {package : SelectedPackage} {hidden : Location} {names : List String}

/-- What is written for some messages of a package is not where the definition of a type is, unless
one of them has the name of that type in the same place. -/
theorem apart_of_outcome {last : FileTree} (hat : directories.IsAt last hidden)
    (hstageable : package.Stageable) {made : PackageDocument}
    (hmade : PackageDocument.outcome catalog rootNamespace package = .ok made)
    (hlinks : ¬ last.LinksInto (target made (directories.own package.info)) hidden)
    {messages : List MessageData} (hmessages : messages ⊆ made.messages) {type : String}
    (hother : RunDirectories.placeOf package.info = names.map .name →
      ∀ member ∈ messages, member.rosTypeName ≠ type) :
    ∀ path ∈ messages.map
        (fun member => (directories.own package.info).staging.join (definitionName member)) ++
      [(directories.own package.info).staging.join (fileName made),
        target made (directories.own package.info)],
    ∀ place, last.resolve path = .ok place →
      place.location ≠ hidden ++ (names ++ [type ++ ".msgdef"]) := by
  have hslashless : ∀ member ∈ messages, '/' ∉ member.rosTypeName.toList := by
    intro member hmember
    have hname : member.rosTypeName ∈ made.messages.map (·.rosTypeName) :=
      List.mem_map.mpr ⟨member, hmessages hmember, rfl⟩
    rw [(PackageDocument.messages_of_outcome hstageable.accounts hmade).1] at hname
    rcases List.mem_map.mp hname with ⟨parsed, hparsed, hsame⟩
    exact hsame ▸ hstageable.types parsed hparsed
  exact hat.apart (Workspace.rosName_of_outcome hmade) hstageable.slashless hstageable.staysInside
    hlinks hslashless hother

/-- A package that was generated has left the flattened definitions of its message types, each at
its place. -/
theorem Attempt.definition_written {before after : Products σ} {called : List PackageDocument}
    {generated : GeneratedPackage}
    (h : Attempt (PackageDocument.outcome catalog rootNamespace) (Run.descriptorGenerator layout)
      directories package before called (.ok generated) after)
    (hstageable : package.Stageable)
    (hdistinct : (package.contents.messages.map (·.rosTypeName)).Nodup)
    (hplace : RunDirectories.placeOf package.info = names.map .name) {last : FileTree}
    (hlast : Within after.tree last) (hat : directories.IsAt last hidden)
    (hlinks : ∀ made, PackageDocument.outcome catalog rootNamespace package = .ok made →
      ¬ last.LinksInto (target made (directories.own package.info)) hidden)
    {parsed : ParsedMessage} (hparsed : parsed ∈ package.contents.messages) :
    ∃ signed content, catalog.outcome parsed.identity = .ok signed ∧
      after.tree.get? (hidden ++ (names ++ [parsed.rosTypeName ++ ".msgdef"])) =
        some (.file signed.type.definition.toUTF8) ∧
      last.resolve ((directories.own package.info).staging.join (parsed.rosTypeName ++ ".msgdef")) =
        .ok ⟨hidden ++ (names ++ [parsed.rosTypeName ++ ".msgdef"]), some (.file content)⟩ := by
  rcases h.exists_written with ⟨made, prepared, hmade, -, hwrite⟩
  rcases PackageDocument.messages_of_outcome hstageable.accounts hmade with ⟨hnames, hall⟩
  rcases hall parsed hparsed with ⟨message, hmessage, hdata⟩
  obtain ⟨hname, signed, hsigned, hdefinition⟩ := MessageData.of_outcome hdata
  rcases List.append_of_mem hmessage with ⟨earlier, following, hsplit⟩
  rcases exists_writeDefinition_of_write hsplit hwrite with ⟨first, written, hwritten, hchanges⟩
  have hplain : Path.IsPlain (definitionName message) :=
    isPlain_definitionName_of_slashless (hname ▸ hstageable.types parsed hparsed)
  have hfile : definitionName message = parsed.rosTypeName ++ ".msgdef" :=
    congrArg (· ++ ".msgdef") hname
  -- What is written after it has other names.
  have hfollowing : ∀ member ∈ following, member.rosTypeName ≠ parsed.rosTypeName := by
    intro member hmember hsame
    rw [← hnames, hsplit, List.map_append, List.map_cons] at hdistinct
    have hrepeated := (List.nodup_cons.mp (List.nodup_append.mp hdistinct).2.1).1
    exact hrepeated (List.mem_map.mpr ⟨member, hmember, hsame.trans hname.symm⟩)
  have hsub : following ⊆ made.messages := by
    rw [hsplit]
    exact List.subset_append_of_subset_right _ (List.subset_cons_self _ _)
  rcases hat.resolve_written hstageable.staysInside hplace hplain hwritten
    ((Grows.of_changes hchanges).within.trans hlast) with ⟨hstored, content, hresolve⟩
  rw [hfile] at hstored hresolve
  rw [hdefinition] at hstored
  exact ⟨signed, content, hsigned, file_kept_of_changes hchanges hlast hstored
    (apart_of_outcome hat hstageable hmade (hlinks made hmade) hsub fun _ => hfollowing), hresolve⟩

/-- Packages that have no type of the name in the same place leave a definition as it is. -/
theorem Generates.definition_kept {packages : List SelectedPackage} {before after : Products σ}
    {calls : List PackageDocument} {report : List GeneratedPackage}
    (h : Generates (PackageDocument.outcome catalog rootNamespace) (Run.descriptorGenerator layout)
      directories packages before calls report after)
    (hat : directories.IsAt after.tree hidden)
    (hstageable : ∀ package ∈ packages, package.Stageable)
    (hlinks : ∀ package ∈ packages, ∀ made,
      PackageDocument.outcome catalog rootNamespace package = .ok made →
        ¬ after.tree.LinksInto (target made (directories.own package.info)) hidden)
    {type : String}
    (hother : ∀ package ∈ packages, RunDirectories.placeOf package.info = names.map .name →
      ∀ other ∈ package.contents.messages, other.rosTypeName ≠ type)
    {content : ByteArray}
    (hfile : before.tree.get? (hidden ++ (names ++ [type ++ ".msgdef"])) = some (.file content)) :
    after.tree.get? (hidden ++ (names ++ [type ++ ".msgdef"])) = some (.file content) := by
  refine h.file_kept hfile fun package hpackage made hmade => ?_
  have hpackages := hstageable package hpackage
  refine apart_of_outcome hat hpackages hmade (hlinks package hpackage made hmade)
    (List.Subset.refl _) fun hplace member hmember hsame => ?_
  have hname : member.rosTypeName ∈ made.messages.map (·.rosTypeName) :=
    List.mem_map.mpr ⟨member, hmember, rfl⟩
  rw [(PackageDocument.messages_of_outcome hpackages.accounts hmade).1] at hname
  rcases List.mem_map.mp hname with ⟨other, hin, hshared⟩
  exact hother package hpackage hplace other hin (hshared.trans hsame)

/-- The flattened definition of a message type is there at the end of a run, unless a package that is
generated later overwrites it. -/
theorem Generates.definition_preserved {front back : List SelectedPackage}
    {before after : Products σ} {calls : List PackageDocument} {report : List GeneratedPackage}
    (h : Generates (PackageDocument.outcome catalog rootNamespace)
      (Run.descriptorGenerator layout) directories (front ++ package :: back) before calls report
      after)
    (hat : directories.IsAt after.tree hidden)
    (hlinks : ∀ generated ∈ report, ¬ after.tree.LinksInto generated.artifact hidden)
    (hstageable : ∀ other ∈ package :: back, other.Stageable)
    (hdistinct : (package.contents.messages.map (·.rosTypeName)).Nodup) {parsed : ParsedMessage}
    (hparsed : parsed ∈ package.contents.messages)
    (hlater : ∀ later ∈ back, ¬ later.Overwrites package parsed) :
    ∃ signed, catalog.outcome parsed.identity = .ok signed ∧
      after.tree.readText
          ((directories.own package.info).staging.join (parsed.rosTypeName ++ ".msgdef")) =
        .ok signed.type.definition := by
  have hunlinked : ∀ other ∈ package :: back, ∀ made,
      PackageDocument.outcome catalog rootNamespace other = .ok made →
        ¬ after.tree.LinksInto (target made (directories.own other.info)) hidden := by
    intro other hother made hmade
    rcases h.exists_artifact (List.mem_append_right front hother) hmade with
      ⟨generated, hgenerated, hartifact⟩
    exact hartifact ▸ hlinks generated hgenerated
  rw [List.forall_mem_cons] at hstageable hunlinked
  obtain ⟨start, middle, called, generated, behind, others, hattempt, hrest⟩ := h.exists_attempt
  rcases hstageable.1.staysInside.exists_names with ⟨names, hplace⟩
  obtain ⟨signed, content, hsigned, hstored, hresolve⟩ := hattempt.definition_written hstageable.1
    hdistinct hplace hrest.grows.within hat hunlinked.1 hparsed
  have hkept := hrest.definition_kept hat hstageable.2 hunlinked.2
    (fun later hmember hsame other hin hshared =>
      hlater later hmember ⟨hsame.trans hplace.symm, other, hin, hshared⟩) hstored
  cases (get?_of_locate hresolve).symm.trans hkept
  exact ⟨signed, hsigned, readText_of_resolve hresolve⟩

end Making

namespace Workspace

variable {workspace : Workspace}

/-- The selected packages of a workspace can be staged unless their own texts are against it. -/
theorem Reachable.stageable (h : workspace.Reachable) (hselection : workspace.Selection)
    {package : SelectedPackage} (hpackage : package ∈ workspace.selected)
    (hname : '/' ∉ package.name.toList) (hstays : RunDirectories.StaysInside package.info) :
    package.Stageable := by
  refine ⟨hname, hstays, hselection.accounts package hpackage, fun message hmessage => ?_⟩
  rcases h.exists_read (hselection.stored package hpackage) with ⟨tree, info, hread⟩
  exact PackageContents.slash_not_mem_of_ofPackage hread hmessage

/-- A run that succeeds and keeps its hidden directory leaves a staging directory for each package, at
the place that its name and version come to, and the flattened definition of every message type in
the staging directory of its package, unless a package that is generated later overwrites it: one
that is staged in the same place and has a type of the same name. Versions are expected not to lead
out of the hidden directory, and no link in place of a descriptor to lead into it. -/
theorem run_preserves_definitions (h : workspace.Reachable) {options : RunOptions}
    (hpreserve : options.preserve = true)
    (hnames : ∀ package ∈ workspace.selected, '/' ∉ package.name.toList)
    (hstays : ∀ package ∈ workspace.selected, RunDirectories.StaysInside package.info)
    {σ : Type} (layout : Json.Layout) (tree : FileTree) (record : σ)
    {report : List GeneratedPackage}
    (hrun : (workspace.run options (Run.descriptorGenerator layout) tree record).result =
      .ok report) :
    let run := workspace.run options (Run.descriptorGenerator layout) tree record
    ∃ catalog packages, workspace.plan = .ok (catalog, packages) ∧
      packages.Perm workspace.selected ∧
      (packages ≠ [] → ∃ directories created hidden,
        (RunDirectories.create options.output).run tree = (.ok directories, created) ∧
        (∀ package ∈ packages, ∃ names entries,
          RunDirectories.placeOf package.info = names.map .name ∧
          run.tree.resolve (directories.own package.info).staging =
            .ok ⟨hidden ++ names, some (.directory entries)⟩) ∧
        ((∀ generated ∈ report, ¬ run.tree.LinksInto generated.artifact hidden) →
          ∀ front package back, packages = front ++ package :: back →
            ∀ message ∈ package.contents.messages,
              (∀ later ∈ back, ¬ later.Overwrites package message) →
                ∃ signed, catalog.outcome message.identity = .ok signed ∧
                  run.tree.readText ((directories.own package.info).staging.join
                      (message.rosTypeName ++ ".msgdef")) =
                    .ok signed.type.definition)) := by
  intro run
  obtain ⟨hresult, -, htree, -⟩ :=
    workspace.run_logged options (Run.descriptorGenerator layout) tree record []
  cases hplan : workspace.plan with
  | error error =>
    have hfails := (run_of_plan_error hplan options (Run.descriptorGenerator layout) tree record).1
    cases hrun.symm.trans hfails
  | ok plan =>
    rcases plan with ⟨catalog, packages⟩
    have hlogged :=
      run_of_plan hplan options (Run.descriptorGenerator layout).logged tree (record, [])
    rcases plan_eq_ok hplan with ⟨hcatalog, horder⟩
    have hperm := (h.intact.inOrder horder).perm
    have hselection := h.intact.filtered (order_eq_ok h.intact.coherent horder).1
    refine ⟨catalog, packages, rfl, hperm, fun hsome => ?_⟩
    have hstageable : ∀ package ∈ packages, package.Stageable := by
      intro package hpackage
      have hselected := hperm.mem_iff.mp hpackage
      exact h.stageable hselection hselected (hnames package hselected) (hstays package hselected)
    dsimp only at hlogged
    rw [hresult, hrun] at hlogged
    rcases Making.exists_create_of_ok hsome hlogged with ⟨directories, created, hcreate⟩
    obtain ⟨calls, last, -, hends, -, hleft⟩ := Making.inDirectories_ends hsome hcreate hlogged
    have hgenerates := hends.generates
    have hlast : run.tree = last.tree := by
      rw [← htree]
      refine hleft.trans ?_
      rw [hpreserve, if_pos rfl]
    rcases RunDirectories.exists_isAt_of_create hcreate with ⟨hidden, hcreated⟩
    have hat := hcreated.grows hgenerates.grows
    refine ⟨directories, created, hidden, hcreate, ?_, ?_⟩
    · intro package hpackage
      have hinside := (hstageable package hpackage).staysInside
      rcases hinside.exists_names with ⟨names, hplace⟩
      rcases hgenerates.isDirectory_own hat.named hpackage hinside with ⟨place, entries, hresolve⟩
      obtain rfl := hat.location_own hinside hplace hresolve
      exact ⟨names, entries, hplace, hlast ▸ hresolve⟩
    · rw [hlast]
      rintro hlinks front package back rfl message hmessage hlater
      have hpackage : package ∈ front ++ package :: back := by simp
      have hdistinct := h.nodup_rosTypeNames hcatalog
        (hselection.stored package (hperm.mem_iff.mp hpackage))
        (hstageable package hpackage).accounts
      exact hgenerates.definition_preserved hat hlinks
        (fun other hother => hstageable other (List.mem_append_right front hother)) hdistinct
        hmessage hlater

/-- The definitions of both packages are there when the hidden directory is kept. -/
theorem exampleDefinitions_preserved :
    let options : RunOptions := ⟨⟨"out"⟩, "", true⟩
    let run := exampleWorkspace.run options (Run.descriptorGenerator .compact) exampleTree ()
    exampleWorkspace.Reachable ∧
      run.result = .ok [⟨"b", "1.0.0", ⟨"out/B/b.json"⟩, 1⟩, ⟨"a", "1.0.0", ⟨"out/A/a.json"⟩, 1⟩] ∧
      ∃ catalog packages, exampleWorkspace.plan = .ok (catalog, packages) ∧
        packages.map (RunDirectories.packageName ·.info) = ["b-1.0.0", "a-1.0.0"] ∧
        ∃ directories created,
          (RunDirectories.create options.output).run exampleTree = (.ok directories, created) ∧
          ∀ package ∈ packages, ∀ message ∈ package.contents.messages,
            ∃ signed, catalog.outcome message.identity = .ok signed ∧
              run.tree.readText ((directories.own package.info).staging.join
                  (message.rosTypeName ++ ".msgdef")) =
                .ok signed.type.definition := by
  intro options run
  have hends :
      (run.result, run.tree.isLink ⟨"out/B/b.json"⟩, run.tree.isLink ⟨"out/A/a.json"⟩) =
        (.ok [⟨"b", "1.0.0", ⟨"out/B/b.json"⟩, 1⟩, ⟨"a", "1.0.0", ⟨"out/A/a.json"⟩, 1⟩],
          false, false) := by
    dsimp only [run, options]
    rw [run_eq, exampleWorkspace_catalog]
    decide +kernel
  rw [Prod.mk.injEq, Prod.mk.injEq] at hends
  obtain ⟨hresult, hfirst, hsecond⟩ := hends
  have hplanned : exampleWorkspace.plan.toOption.map
      (·.2.map (RunDirectories.packageName ·.info)) = some ["b-1.0.0", "a-1.0.0"] := by
    rw [plan, exampleWorkspace_catalog]
    decide +kernel
  have htexts : ∀ package ∈ exampleWorkspace.selected,
      '/' ∉ package.info.name.toList ∧ '/' ∉ package.info.version.toList := by
    decide +kernel
  have hstays : ∀ package ∈ exampleWorkspace.selected, RunDirectories.StaysInside package.info :=
    fun package hpackage =>
      have ⟨hname, hversion⟩ := htexts package hpackage
      (RunDirectories.placeOf_of_slashless hname hversion).1
  obtain ⟨catalog, packages, hplan, hperm, hstaged⟩ :=
    run_preserves_definitions exampleWorkspace_reachable rfl
      (fun package hpackage => (htexts package hpackage).1) hstays .compact exampleTree () hresult
  have hnames : packages.map (RunDirectories.packageName ·.info) = ["b-1.0.0", "a-1.0.0"] := by
    rw [hplan] at hplanned
    exact Option.some.inj hplanned
  have hsome : packages ≠ [] := by
    rintro rfl
    cases hnames
  rcases hstaged hsome with ⟨directories, created, _, hcreate, -, hdefinitions⟩
  refine ⟨exampleWorkspace_reachable, hresult, catalog, packages, hplan, hnames, directories, created,
    hcreate, fun package hpackage message hmessage => ?_⟩
  rcases List.append_of_mem hpackage with ⟨front, back, hsplit⟩
  refine hdefinitions ?_ front package back hsplit message hmessage ?_
  · intro generated hgenerated hlinks
    rcases List.mem_pair.mp hgenerated with rfl | rfl
    · exact Bool.false_ne_true (hfirst.symm.trans hlinks.1)
    · exact Bool.false_ne_true (hsecond.symm.trans hlinks.1)
  · -- The two staging directories have different names.
    intro later hlater hoverwrites
    have hbehind : later ∈ packages := by simp [hsplit, hlater]
    have hsame := hoverwrites.packageName_eq (htexts later (hperm.mem_iff.mp hbehind))
      (htexts package (hperm.mem_iff.mp hpackage))
    have hdistinct : (packages.map (RunDirectories.packageName ·.info)).Nodup := by
      rw [hnames]
      decide
    rw [hsplit, List.map_append, List.map_cons] at hdistinct
    have hnot := (List.nodup_cons.mp (List.nodup_append.mp hdistinct).2.1).1
    exact hnot (List.mem_map.mpr ⟨later, hlater, hsame⟩)

/-- Two packages with different names, for which name and version come to the same text. -/
def ambiguousPackages : List PackageInfo :=
  [{ examplePackage "a" [⟨⟨"x/T.msg"⟩, .message⟩] false with version := "b-1" },
    { examplePackage "a-b" [⟨⟨"y/T.msg"⟩, .message⟩] false with version := "1" }]

/-- The definition files of the two packages. -/
def ambiguousTree : FileTree where
  root := .directory [("x", .directory [("T.msg", .file "int8 first\n".toUTF8)]),
    ("y", .directory [("T.msg", .file "int16 second\n".toUTF8)])]

/-- Both packages are selected. -/
def ambiguousWorkspace : Workspace :=
  ((parse ambiguousTree { available := ambiguousPackages }).filter {}).2

/-- Both packages are staged in the same directory, where the definition of the one that is generated
later has overwritten that of the other one. -/
theorem ambiguousDefinitions_overwritten :
    let run := ambiguousWorkspace.run ⟨⟨"out"⟩, "", true⟩ (Run.descriptorGenerator .compact)
      ambiguousTree ()
    let directories : RunDirectories := ⟨⟨"out"⟩, ⟨"out/.rosmsg-000000"⟩⟩
    ambiguousWorkspace.Reachable ∧
      (ambiguousWorkspace.selected.map (·.name)).Nodup ∧
      (∀ package ∈ ambiguousWorkspace.selected, '/' ∉ package.name.toList) ∧
      run.result =
        .ok [⟨"a", "b-1", ⟨"out/A/a.json"⟩, 1⟩, ⟨"a-b", "1", ⟨"out/AB/a-b.json"⟩, 1⟩] ∧
      ((RunDirectories.create ⟨"out"⟩).run ambiguousTree).1 = .ok directories ∧
      (∀ package ∈ ambiguousWorkspace.selected,
        (directories.own package.info).staging = ⟨"out/.rosmsg-000000/a-b-1"⟩) ∧
      (ambiguousWorkspace.catalog >>= fun catalog =>
          (catalog.outcome ⟨some "a", "T"⟩).mapError .type).toOption.map (·.type.definition) =
        some "int8 first" ∧
      run.tree.readText ⟨"out/.rosmsg-000000/a-b-1/T.msgdef"⟩ = .ok "int16 second" := by
  intro run directories
  have hpackages : ofPackages ambiguousPackages = .ok { available := ambiguousPackages } :=
    ofPackages_eq_ok_iff.mpr ⟨by decide, rfl⟩
  have hreachable : ambiguousWorkspace.Reachable :=
    .filter (.parse (reachable_of_ofPackages hpackages) ambiguousTree) {}
  have hsorted : ambiguousWorkspace.sortedEntries = ambiguousWorkspace.contents :=
    List.mergeSort_of_pairwise (by decide +kernel)
  have hcatalog := catalog_eq_of_entries (by decide +kernel) hsorted
  have hends : (run.result, run.tree.readText ⟨"out/.rosmsg-000000/a-b-1/T.msgdef"⟩) =
      (.ok [⟨"a", "b-1", ⟨"out/A/a.json"⟩, 1⟩, ⟨"a-b", "1", ⟨"out/AB/a-b.json"⟩, 1⟩],
        .ok "int16 second") := by
    dsimp only [run]
    rw [run_eq, hcatalog]
    decide +kernel
  rw [Prod.mk.injEq] at hends
  obtain ⟨hresult, htext⟩ := hends
  refine ⟨hreachable, by decide +kernel, by decide +kernel, hresult, by decide +kernel,
    by decide +kernel, ?_, htext⟩
  rw [hcatalog]
  decide +kernel

end Workspace

end RosInterface
