import RosInterface.Proofs.FileTree.Confinement
import RosInterface.Proofs.Generation.Prefix
import RosInterface.Proofs.Naming

namespace RosInterface

/-! # Where generated files go

The paths of a package's files are made from its name, its version and the root namespace, and
nothing checks these texts. `Run.generates_below` says which of them keep the files below the output
directory:

* `Run.generate_changes` lists the directories that are created and the files that are written;
* `Contained` asks that each text leads below the output directory from where the one before it led.
  Then it does in every run (`Contained.staysBelow`), and nothing less will do
  (`StaysBelow.contained`);
* texts without slashes can do no harm but for a namespace that is empty or one of `.` and `..`
  (`contained_iff_of_slashless`). With a root namespace there are no such namespaces.
-/

/-! ## Paths of a package -/

namespace RunDirectories

/-- The directories that a package is generated in. -/
def own (directories : RunDirectories) (package : PackageInfo) : PackageDirectories :=
  ⟨directories.output, directories.staging.join (packageName package)⟩

theorem eq_own_of_forPackage {directories : RunDirectories} {package : PackageInfo}
    {tree after : FileTree} {made : PackageDirectories}
    (hmade : (directories.forPackage package).run tree = (.ok made, after)) :
    made = directories.own package := by
  rcases run_bind_eq_ok hmade with ⟨-, between, -, hlast⟩
  cases hlast
  rfl

theorem forPackage_confined {directories : RunDirectories} {package : PackageInfo}
    {created files : List Path} (hcreated : (directories.own package).staging ∈ created) :
    FileTree.Confined created files (directories.forPackage package) :=
  .bind (.makeDirectories hcreated) fun _ => .of_unchanged fun _ => rfl

/-- Without slashes, a package is generated in a directory of a plain name. -/
theorem isPlain_packageName {package : PackageInfo} (hname : '/' ∉ package.name.toList)
    (hversion : '/' ∉ package.version.toList) : Path.IsPlain (packageName package) := by
  have hslash : '/' ∉ (packageName package).toList := by
    simp only [packageName, String.toList_append, List.mem_append]
    rintro ((hmem | hmem) | hmem)
    · exact hname hmem
    · exact absurd hmem (by decide)
    · exact hversion hmem
  have hhyphen : '-' ∈ (packageName package).toList := by
    simp [packageName]
  exact Path.isPlain_of_mem hslash hhyphen (by decide)

end RunDirectories

namespace DescriptorFile

/-- The directories that are created for a package. -/
def createdDirectories (document : PackageDocument) (own : PackageDirectories) : List Path :=
  [own.staging, own.output.join document.package.codeNamespace]

/-- The files that are written for a package. -/
def writtenFiles (document : PackageDocument) (own : PackageDirectories) : List Path :=
  document.messages.map (fun message => own.staging.join (definitionName message)) ++
    [own.staging.join (fileName document), target document own]

/-- What is left to do once the flattened definitions are written. -/
def finish (layout : Json.Layout) (document : PackageDocument) (own : PackageDirectories) :
    FileTree.Action Path := do
  let staged := own.staging.join (fileName document)
  FileTree.writeText staged (document.toJson.print layout)
  FileTree.makeDirectories (own.output.join document.package.codeNamespace)
  let finished := target document own
  FileTree.copyFile staged finished
  pure finished

theorem write_eq (layout : Json.Layout) (document : PackageDocument) (own : PackageDirectories) :
    write layout document own =
      document.messages.forM (writeDefinition own) >>= fun _ => finish layout document own :=
  rfl

theorem finish_confined (layout : Json.Layout) (document : PackageDocument)
    (own : PackageDirectories) :
    FileTree.Confined (createdDirectories document own)
      [own.staging.join (fileName document), target document own] (finish layout document own) := by
  refine .bind (.writeText (by simp) _) fun _ => ?_
  refine .bind (.makeDirectories (by simp [createdDirectories])) fun _ => ?_
  refine .bind (.copyFile _ (by simp)) fun _ => ?_
  exact .of_unchanged fun _ => rfl

/-- Writing the files of some messages, and then finishing, touches nothing else. -/
theorem writeDefinitions_confined (layout : Json.Layout) (document : PackageDocument)
    (own : PackageDirectories) (messages : List MessageData) :
    FileTree.Confined (createdDirectories document own)
      (messages.map (fun message => own.staging.join (definitionName message)) ++
        [own.staging.join (fileName document), target document own])
      (messages.forM (writeDefinition own) >>= fun _ => finish layout document own) := by
  refine .bind (.forM fun message hmessage => ?_) fun _ => ?_
  · exact .writeText (List.mem_append_left _ (List.mem_map.mpr ⟨message, hmessage, rfl⟩)) _
  · exact (finish_confined layout document own).mono (List.Subset.refl _)
      (List.subset_append_right _ _)

/-- Writing the files of a package touches nothing else. -/
theorem write_confined (layout : Json.Layout) (document : PackageDocument)
    (own : PackageDirectories) :
    FileTree.Confined (createdDirectories document own) (writtenFiles document own)
      (write layout document own) :=
  writeDefinitions_confined layout document own document.messages

end DescriptorFile

namespace Run

variable {σ : Type}

open DescriptorFile

theorem run_types {α : Type} (resolution : Resolution α) (state : RunState σ) :
    (types resolution : Run σ α).run state = ((resolution.run state.resolved).1.mapError .type,
      { state with resolved := (resolution.run state.resolved).2 }) :=
  rfl

theorem run_files {α : Type} (action : FileTree.Action α) (state : RunState σ) :
    (files action : Run σ α).run state = ((action.run state.tree).1.mapError .file,
      { state with tree := (action.run state.tree).2 }) :=
  rfl

/-- Generating a package creates its directories and writes its files, and touches nothing else. -/
theorem generate_changes {catalog : Catalog} {options : RunOptions} {package : SelectedPackage}
    {document : PackageDocument} {state : RunState σ}
    (hdocument : ((PackageDocument.resolve catalog options.rootNamespace package).run
      state.resolved).1 = .ok document) (layout : Json.Layout) (directories : RunDirectories) :
    Relation.ReflTransGen
      (FileTree.Change (createdDirectories document (directories.own package.info))
        (writtenFiles document (directories.own package.info)))
      state.tree
      ((generate catalog options (descriptorGenerator layout) directories package).run
        state).2.tree := by
  let own := directories.own package.info
  have hdirectory : FileTree.Confined (createdDirectories document own) (writtenFiles document own)
      (directories.forPackage package.info) :=
    RunDirectories.forPackage_confined List.mem_cons_self
  have hfirst := hdirectory state.tree
  unfold generate
  rw [run_bind, run_types, hdocument]
  dsimp only [Except.mapError]
  rw [run_bind, run_files]
  rcases hmade : (directories.forPackage package.info).run state.tree with ⟨error | made, tree⟩
  · rw [hmade] at hfirst
    exact hfirst
  · rw [hmade] at hfirst
    have hsecond := write_confined layout document own tree
    obtain rfl : made = own := RunDirectories.eq_own_of_forPackage hmade
    change Relation.ReflTransGen _ _
      (ExceptT.run (files (write layout document own) >>= _) _).2.tree
    rw [run_bind, run_files]
    rcases hwritten : (write layout document own).run tree with ⟨error | artifact, last⟩
    · rw [hwritten] at hsecond
      exact hfirst.trans hsecond
    · rw [hwritten] at hsecond
      exact hfirst.trans hsecond

end Run

/-! ## Names in documents -/

/-- A document has the texts of its package, and its messages have the names of the package's
message types, whatever was resolved before. -/
theorem PackageDocument.of_resolve {catalog : Catalog} {rootNamespace : String}
    {package : SelectedPackage} {resolved : ResolvedTypes} {document : PackageDocument}
    (hdocument : ((resolve catalog rootNamespace package).run resolved).1 = .ok document) :
    document.package = .ofPackage rootNamespace package.info ∧
      ∀ message ∈ document.messages, ∃ parsed ∈ package.contents.messages,
        message.rosTypeName = Naming.rosTypeName parsed.fileName parsed.part := by
  have hrun : (resolve catalog rootNamespace package).run resolved =
      (.ok document, ((resolve catalog rootNamespace package).run resolved).2) :=
    Prod.ext hdocument rfl
  unfold resolve at hrun
  split at hrun
  · cases hrun
    exact ⟨rfl, nofun⟩
  · rcases run_bind_eq_ok hrun with ⟨messages, between, hmessages, hlast⟩
    cases hlast
    refine ⟨rfl, fun message hmessage => ?_⟩
    rcases exists_of_mapM_run_eq_ok hmessages hmessage with ⟨parsed, hparsed, before, after, hstep⟩
    rcases run_bind_eq_ok hstep with ⟨signed, middle, -, hmade⟩
    cases hmade
    exact ⟨parsed, hparsed, rfl⟩

/-- The file of a flattened definition has a plain name if the type's name has no slash. -/
theorem DescriptorFile.isPlain_definitionName_of_slashless {message : MessageData}
    (hslash : '/' ∉ message.rosTypeName.toList) : Path.IsPlain (definitionName message) := by
  have hletter : 'm' ∈ ".msgdef".toList := by decide
  exact Path.isPlain_append hslash (by decide) hletter (by decide)

/-- The files of flattened definitions have plain names, since definition files have. -/
theorem DescriptorFile.isPlain_definitionName {tree : FileTree} {catalog : Catalog}
    {rootNamespace : String} {package : SelectedPackage} {resolved : ResolvedTypes}
    {document : PackageDocument}
    (hcontents : PackageContents.ofPackage tree package.info = .ok package.contents)
    (hdocument : ((PackageDocument.resolve catalog rootNamespace package).run resolved).1 =
      .ok document) {message : MessageData} (hmessage : message ∈ document.messages) :
    Path.IsPlain (definitionName message) := by
  rcases (PackageDocument.of_resolve hdocument).2 message hmessage with ⟨parsed, hparsed, hname⟩
  refine isPlain_definitionName_of_slashless ?_
  rw [hname]
  exact PackageContents.slash_not_mem_of_ofPackage hcontents hparsed

/-! ## Containment -/

namespace DescriptorFile

/-- From a depth below the output directory, the first text leads to a directory below it, and the
second one from there to a file below it. -/
def LeadsBelow (depth : Nat) (directory file : String) : Prop :=
  ∃ reached, Path.depthFrom depth directory = some (reached + 1) ∧
    ∃ last, Path.depthFrom (reached + 1) file = some (last + 1)

/-- The texts of a package keep its files below the output directory, whose hidden directory is one
step down. -/
structure Contained (rootNamespace : String) (package : PackageInfo) : Prop where
  staged : LeadsBelow 1 (RunDirectories.packageName package) (package.name ++ ".json")
  finished : LeadsBelow 0 (Naming.namespaceOf rootNamespace package.name) (package.name ++ ".json")

/-- All that is created or written for a package is below the output directory, and once the way
there has passed by the directories that the run has made, it does not lead out of that directory
either. -/
structure Below (directories : RunDirectories) (package : PackageInfo)
    (document : PackageDocument) : Prop where
  strictly : ∀ path ∈ createdDirectories document (directories.own package) ++
    writtenFiles document (directories.own package), path.StrictlyBelow directories.output
  way : ∀ directory ∈ createdDirectories document (directories.own package),
    ∀ path : Path, path.IsFrontOf directory →
      path.IsFrontOf directories.staging ∨ ∃ depth, path.IsBelow directories.output depth

/-- In every run, the files of the package are below the output directory. -/
def StaysBelow (package : PackageInfo) (document : PackageDocument) : Prop :=
  ∀ output before directories after,
    (RunDirectories.create output).run before = (.ok directories, after) →
      Below directories package document

variable {rootNamespace : String} {package : PackageInfo} {document : PackageDocument}

/-- The paths of a package, each by the texts that it is joined from. -/
theorem mem_paths_iff (hdata : document.package = .ofPackage rootNamespace package)
    {own : PackageDirectories} {path : Path} :
    path ∈ createdDirectories document own ++ writtenFiles document own ↔
      path = own.staging ∨
      path = own.output.join (Naming.namespaceOf rootNamespace package.name) ∨
      (∃ message ∈ document.messages, own.staging.join (definitionName message) = path) ∨
      path = own.staging.join (package.name ++ ".json") ∨
      path = (own.output.join (Naming.namespaceOf rootNamespace package.name)).join
        (package.name ++ ".json") := by
  have hfile : fileName document = package.name ++ ".json" :=
    congrArg (PackageData.rosName · ++ ".json") hdata
  have hcode : document.package.codeNamespace = Naming.namespaceOf rootNamespace package.name :=
    congrArg PackageData.codeNamespace hdata
  simp only [createdDirectories, writtenFiles, target, hfile, hcode, List.mem_append, List.mem_cons,
    List.not_mem_nil, or_false, List.mem_map, or_assoc]

/-- Texts that stay below the output directory keep the paths there. -/
theorem Contained.staysBelow (h : Contained rootNamespace package)
    (hdata : document.package = .ofPackage rootNamespace package)
    (hmessages : ∀ message ∈ document.messages, Path.IsPlain (definitionName message)) :
    StaysBelow package document := by
  intro output before directories after hcreate
  rcases RunDirectories.exists_name_of_create hcreate with ⟨name, hname, rfl⟩
  rcases h.staged with ⟨reached, hstaging, last, hstaged⟩
  rcases h.finished with ⟨deep, hnamespace, final, hfinished⟩
  have hplain := hname.isPlain.depthFrom 0
  have houtput := Path.IsBelow.refl output
  have hhidden : (output.join name).IsBelow output 1 := houtput.join hplain
  have hown := hhidden.join hstaging
  have hdirectory := houtput.join hnamespace
  constructor
  · intro path hpath
    rcases (mem_paths_iff hdata).mp hpath with rfl | rfl | ⟨message, hmessage, rfl⟩ | rfl | rfl
    · exact ⟨reached, hown⟩
    · exact ⟨deep, hdirectory⟩
    · exact ⟨reached + 1, hown.join ((hmessages message hmessage).depthFrom (reached + 1))⟩
    · exact ⟨last, hown.join hstaged⟩
    · exact ⟨final, hdirectory.join hfinished⟩
  · intro directory hmem path hfront
    have hcode : document.package.codeNamespace =
        Naming.namespaceOf rootNamespace package.name := congrArg PackageData.codeNamespace hdata
    rw [createdDirectories, hcode, List.mem_pair] at hmem
    rcases hmem with rfl | rfl
    · exact hfront.of_join hhidden hstaging
    · -- What passes by the output directory passes by the hidden directory in it.
      rcases hfront.of_join houtput hnamespace with hfront | hbelow
      · exact Or.inl (hfront.trans (Path.isFrontOf_join hplain output))
      · exact Or.inr hbelow

/-- The directories of the first run in an empty working directory. -/
theorem exists_create_here : ∃ after, (RunDirectories.create ⟨""⟩).run {} =
    (.ok ⟨⟨""⟩, ⟨".rosmsg-000000"⟩⟩, after) := by
  have hcreated : ((RunDirectories.create ⟨""⟩).run {}).1.toOption =
      some ⟨⟨""⟩, ⟨".rosmsg-000000"⟩⟩ := by
    decide +kernel
  exact ⟨_, Prod.ext (eq_ok_of_toOption hcreated) rfl⟩

/-- Paths below the working directory are joined from texts that stay there. -/
theorem leadsBelow_of_strictlyBelow {base : Path} {depth : Nat} {directory file : String}
    (hbase : Path.descend 0 base.moves = some depth)
    (hdirectory : (base.join directory).StrictlyBelow ⟨""⟩)
    (hfile : ((base.join directory).join file).StrictlyBelow ⟨""⟩) :
    LeadsBelow depth directory file := by
  rcases Path.depthFrom_of_strictlyBelow hbase hdirectory with ⟨reached, hreached, hjoined⟩
  rcases Path.depthFrom_of_strictlyBelow hjoined hfile with ⟨last, hlast, -⟩
  exact ⟨reached, hreached, last, hlast⟩

/-- The condition is needed: in the working directory, nothing leads back from outside. -/
theorem StaysBelow.contained (h : StaysBelow package document)
    (hdata : document.package = .ofPackage rootNamespace package) :
    Contained rootNamespace package := by
  rcases exists_create_here with ⟨after, hcreate⟩
  have hbelow := (h ⟨""⟩ {} _ after hcreate).strictly
  simp only [mem_paths_iff hdata] at hbelow
  have hstaging := hbelow _ (.inl rfl)
  have hnamespace := hbelow _ (.inr (.inl rfl))
  have hstaged := hbelow _ (.inr (.inr (.inr (.inl rfl))))
  have hfinished := hbelow _ (.inr (.inr (.inr (.inr rfl))))
  have hhidden : Path.descend 0 (Path.mk ".rosmsg-000000").moves = some 1 := by decide
  have hhere : Path.descend 0 (Path.mk "").moves = some 0 := by decide
  exact ⟨leadsBelow_of_strictlyBelow hhidden hstaging hstaged,
    leadsBelow_of_strictlyBelow hhere hnamespace hfinished⟩

/-! ## Slashless texts -/

/-- Without slashes, it all depends on the namespace, and a root namespace makes sure of that. -/
theorem contained_iff_of_slashless
    (hroot : rootNamespace = "" ∨ Configuration.isNamespace rootNamespace = true)
    (hname : '/' ∉ package.name.toList) (hversion : '/' ∉ package.version.toList) :
    Contained rootNamespace package ↔
      (rootNamespace = "" → Naming.pascalCase package.name ∉ ["", ".", ".."]) := by
  have hletter : 'j' ∈ ".json".toList := by decide
  have hfile : Path.IsPlain (package.name ++ ".json") :=
    Path.isPlain_append hname (by decide) hletter (by decide)
  have hstaging := RunDirectories.isPlain_packageName hname hversion
  have hpascal := Naming.slash_not_mem_pascalCase hname
  constructor
  · rintro ⟨-, reached, hreached, -⟩ rfl
    rw [Naming.namespaceOf_empty] at hreached
    exact (Path.isPlain_of_depthFrom hpascal hreached).2
  · intro hother
    have hplain : Path.IsPlain (Naming.namespaceOf rootNamespace package.name) := by
      rcases hroot with rfl | hvalid
      · rw [Naming.namespaceOf_empty]
        exact ⟨hpascal, hother rfl⟩
      · exact Naming.isPlain_namespaceOf hvalid hname
    exact ⟨⟨1, hstaging.depthFrom 1, 2, hfile.depthFrom 2⟩,
      ⟨0, hplain.depthFrom 0, 1, hfile.depthFrom 1⟩⟩

end DescriptorFile

/-! ## Generated packages -/

open DescriptorFile

/-- Generating a package creates and writes nothing but the paths of the package. These are below
the output directory in every run exactly if the texts of the package lead there one by one. Where
neither the name nor the version has a slash, they do unless the name alone makes up the namespace
and comes to nothing, to `.` or to `..` in camel case. -/
theorem Run.generates_below {σ : Type} {tree : FileTree} {catalog : Catalog} {options : RunOptions}
    {package : SelectedPackage} {state : RunState σ} {document : PackageDocument}
    (hroot : options.rootNamespace = "" ∨
      Configuration.isNamespace options.rootNamespace = true)
    (hcontents : PackageContents.ofPackage tree package.info = .ok package.contents)
    (hdocument : ((PackageDocument.resolve catalog options.rootNamespace package).run
      state.resolved).1 = .ok document) :
    (∀ layout directories,
      Relation.ReflTransGen
        (FileTree.Change (createdDirectories document (directories.own package.info))
          (writtenFiles document (directories.own package.info)))
        state.tree
        ((generate catalog options (descriptorGenerator layout) directories package).run
          state).2.tree) ∧
      (StaysBelow package.info document ↔ Contained options.rootNamespace package.info) ∧
      ('/' ∉ package.name.toList → '/' ∉ package.version.toList →
        (StaysBelow package.info document ↔
          (options.rootNamespace = "" → Naming.pascalCase package.name ∉ ["", ".", ".."]))) := by
  have hdata := (PackageDocument.of_resolve hdocument).1
  have hstays : StaysBelow package.info document ↔
      Contained options.rootNamespace package.info := by
    constructor
    · exact fun h => h.contained hdata
    · exact fun h => h.staysBelow hdata fun message hmessage =>
        isPlain_definitionName hcontents hdocument hmessage
  refine ⟨fun layout directories => generate_changes hdocument layout directories, hstays, ?_⟩
  intro hname hversion
  exact hstays.trans (contained_iff_of_slashless hroot hname hversion)

/-- A package with one message type. -/
def singlePackage : SelectedPackage where
  info := Workspace.examplePackage "b" [⟨⟨"B.msg"⟩, .message⟩] false
  contents := PackageContents.addMessages { package := "b" } [
    ⟨.message "b" "B", .message, none, "B", ⟨[.field ⟨.builtIn "int8", "y"⟩], "int8 y"⟩⟩]

/-- The catalog of its message type. -/
def singleCatalog : Catalog where
  definitions := singlePackage.contents.messages.map fun message =>
    (message.type, message.descriptor)

/-- A package with an ordinary name stays below the output directory. -/
theorem singlePackage_below :
    PackageContents.ofPackage Workspace.exampleTree singlePackage.info =
        .ok singlePackage.contents ∧
      ∃ document, ((PackageDocument.resolve singleCatalog "" singlePackage).run []).1 =
          .ok document ∧
        document.messages.map (·.rosTypeName) = ["B"] ∧
        StaysBelow singlePackage.info document := by
  have hcontents : PackageContents.ofPackage Workspace.exampleTree singlePackage.info =
      .ok singlePackage.contents :=
    eq_ok_of_toOption (by decide +kernel)
  have hresolved : ((PackageDocument.resolve singleCatalog "" singlePackage).run []).1.toOption.map
      (fun document => document.messages.map (·.rosTypeName)) = some ["B"] := by
    decide +kernel
  rcases Option.map_eq_some_iff.mp hresolved with ⟨document, hfound, hnames⟩
  have hdocument := eq_ok_of_toOption hfound
  obtain ⟨-, -, hslashless⟩ := @Run.generates_below Unit Workspace.exampleTree singleCatalog
    ⟨⟨"out"⟩, "", false⟩ singlePackage ⟨⟨{}, ()⟩, []⟩ document (Or.inl rfl) hcontents hdocument
  have hcamel : Naming.pascalCase singlePackage.name ∉ ["", ".", ".."] := by decide +kernel
  exact ⟨hcontents, document, hdocument, hnames,
    (hslashless (by decide) (by decide)).mpr fun _ => hcamel⟩

/-- A manifest whose name is that of the directory above. -/
def dotsText : String :=
  "<package><name>..</name><version>1.0.0</version></package>"

/-- The package of a manifest, without definition files. -/
def manifestPackage (manifest : Manifest) : SelectedPackage where
  info := .ofManifest manifest ⟨⟨"package"⟩, .mandatory⟩ []
  contents := { package := manifest.name }

/-- The descriptor of that package is written beside the output directory, not below it. -/
theorem dotsText_escapes :
    ∃ manifest, Manifest.parse "package.xml" dotsText = .ok manifest ∧
      PackageContents.ofPackage {} (manifestPackage manifest).info =
        .ok (manifestPackage manifest).contents ∧
      ∃ document directories created,
        ((PackageDocument.resolve {} "" (manifestPackage manifest)).run []).1 = .ok document ∧
        (RunDirectories.create ⟨"out"⟩).run {} = (.ok directories, created) ∧
        ((Run.generate {} ⟨⟨"out"⟩, "", false⟩ (Run.descriptorGenerator .indented) directories
          (manifestPackage manifest)).run ⟨⟨created, ()⟩, []⟩).1 =
            .ok ⟨"..", "1.0.0", ⟨"out/../...json"⟩, 0⟩ ∧
        ⟨"out/../...json"⟩ ∈
          writtenFiles document (directories.own (manifestPackage manifest).info) ∧
        ¬ (Path.mk "out/../...json").StrictlyBelow ⟨"out"⟩ := by
  let manifest : Manifest := ⟨"..", "1.0.0", none, [], [], none, none, [], false⟩
  have hparse : Manifest.parse "package.xml" dotsText = .ok manifest :=
    eq_ok_of_toOption (by decide +kernel)
  have hcontents : PackageContents.ofPackage {} (manifestPackage manifest).info =
      .ok (manifestPackage manifest).contents :=
    eq_ok_of_toOption (by decide +kernel)
  let document : PackageDocument :=
    { package := .ofPackage "" (manifestPackage manifest).info, dependencies := [], messages := [] }
  have hdocument : ((PackageDocument.resolve {} "" (manifestPackage manifest)).run []).1 =
      .ok document :=
    eq_ok_of_toOption (by decide +kernel)
  have hcreated : ((RunDirectories.create ⟨"out"⟩).run {}).1.toOption =
      some ⟨⟨"out"⟩, ⟨"out/.rosmsg-000000"⟩⟩ := by
    decide +kernel
  have hcreate : (RunDirectories.create ⟨"out"⟩).run {} =
      (.ok ⟨⟨"out"⟩, ⟨"out/.rosmsg-000000"⟩⟩, ((RunDirectories.create ⟨"out"⟩).run {}).2) :=
    Prod.ext (eq_ok_of_toOption hcreated) rfl
  refine ⟨manifest, hparse, hcontents, document, _, _, hdocument, hcreate, ?_, ?_, ?_⟩
  · exact eq_ok_of_toOption (by decide +kernel)
  · decide +kernel
  · rintro ⟨depth, names, -, hresolved⟩
    have hpath : (Path.mk "out/../...json").resolved = [.name "...json"] := by decide +kernel
    have hout : (Path.mk "out").resolved = [.name "out"] := by decide +kernel
    rw [hpath, hout, List.singleton_append] at hresolved
    injection hresolved with hfirst
    exact absurd hfirst (by decide)

end RosInterface
