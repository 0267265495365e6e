import RosInterface.CommandLine.Commands
import RosInterface.Proofs.Computation
import RosInterface.Proofs.Naming

namespace RosInterface

/-! # Root namespaces of builds

The root namespace of a build comes from the configuration or from an option. Both are trimmed, but
only the configured one has to be valid:

* `IsRoot` says what a valid root namespace is, and `Writes` in which ways a text can write it;
* `isRoot_trimNamespace_iff` says of every text whether trimming it gives a valid one;
* `Naming.namespaceOf_of_isRoot` says that a valid one is not changed when it is trimmed again, so
  that namespaces start with it as it is;
* `Command.isRoot_of_build_iff` puts this together: nothing but the option can be at fault.
-/

open Text

/-- Names with dots between them, or no name at all. -/
def IsRoot (root : String) : Prop :=
  ∃ names : List (List Char), (∀ name ∈ names, isMemberName name = true) ∧
    root.toList = ['.'].intercalate names

/-- A text writes a root namespace with dots behind it and blanks around both. -/
def Writes (text root : String) : Prop :=
  ∃ lead dots trail, AllBlank lead ∧ (∀ c ∈ dots, (c == '.') = true) ∧ AllBlank trail ∧
    text.toList = lead ++ (root.toList ++ dots ++ trail)

theorem Writes.self (root : String) : Writes root root :=
  ⟨[], [], [], allBlank_nil, by simp, allBlank_nil, by simp⟩

theorem isRoot_empty : IsRoot "" :=
  ⟨[], by simp, rfl⟩

/-- What configurations are tested for. -/
theorem isRoot_iff {root : String} :
    IsRoot root ↔ root = "" ∨ Configuration.isNamespace root = true := by
  constructor
  · rintro ⟨names, hnames, hroot⟩
    cases names with
    | nil => exact .inl (String.toList_eq_nil_iff.mp hroot)
    | cons first others =>
      right
      have hdots : ∀ name ∈ first :: others, '.' ∉ name := fun name hname =>
        not_mem_of_isMemberName (hnames name hname) (by decide)
      rw [Configuration.isNamespace, pieces_eq_splitOnP, hroot, List.all_eq_true]
      change ∀ name ∈ (['.'].intercalate (first :: others)).splitOn '.', isMemberName name = true
      rw [List.splitOn_intercalate '.' hdots (List.cons_ne_nil first others)]
      exact hnames
  · rintro (rfl | hnamespace)
    · exact isRoot_empty
    · rw [Configuration.isNamespace, pieces_eq_splitOnP, List.all_eq_true] at hnamespace
      exact ⟨_, hnamespace, (List.intercalate_splitOn '.').symm⟩

/-! ## Trimming -/

/-- Between dots, there are the characters of names only. -/
theorem isNameChar_of_mem_intercalate {names : List (List Char)}
    (hnames : ∀ name ∈ names, isMemberName name = true) {c : Char}
    (hc : c ∈ ['.'].intercalate names) : c = '.' ∨ isNameChar c = true := by
  induction names with
  | nil => cases hc
  | cons first others ih =>
    rw [List.forall_mem_cons] at hnames
    cases others with
    | nil =>
      rw [List.intercalate_singleton] at hc
      exact .inr (isNameChar_of_isMemberName hnames.1 c hc)
    | cons second others =>
      rw [List.intercalate_cons_cons, List.mem_append, List.mem_append, List.mem_singleton] at hc
      rcases hc with (hfirst | hdot) | hothers
      · exact .inr (isNameChar_of_isMemberName hnames.1 c hfirst)
      · exact .inl hdot
      · exact ih hnames.2 hothers

/-- The last character belongs to a name. -/
theorem exists_concat_intercalate {first : List Char} {others : List (List Char)}
    (hnames : ∀ name ∈ first :: others, isMemberName name = true) :
    ∃ front last, ['.'].intercalate (first :: others) = front ++ [last] ∧
      isNameChar last = true := by
  -- The last name is that of the others as long as there are any.
  induction others generalizing first with
  | nil =>
    have hfirst := hnames first List.mem_cons_self
    have hnonempty : first ≠ [] := by
      rintro rfl
      cases hfirst
    refine ⟨first.dropLast, first.getLast hnonempty, ?_, ?_⟩
    · rw [List.intercalate_singleton, List.dropLast_append_getLast hnonempty]
    · exact isNameChar_of_isMemberName hfirst _ (List.getLast_mem hnonempty)
  | cons second others ih =>
    rcases ih fun name hname => hnames name (List.mem_cons_of_mem first hname) with
      ⟨front, last, hsplit, hlast⟩
    refine ⟨first ++ ['.'] ++ front, last, ?_, hlast⟩
    rw [List.intercalate_cons_cons, hsplit, List.append_assoc _ front]

namespace IsRoot

variable {root : String}

theorem isBlank_eq_false (h : IsRoot root) : ∀ c ∈ root.toList, isBlank c = false := by
  rcases h with ⟨names, hnames, hroot⟩
  intro c hc
  rw [hroot] at hc
  rcases isNameChar_of_mem_intercalate hnames hc with rfl | hchar
  · decide
  · exact isBlank_of_isNameChar hchar

/-- No dot is at the end of a root namespace. -/
theorem dropEnd_dots (h : IsRoot root) : dropEnd (· == '.') root.toList = root.toList := by
  rcases h with ⟨names, hnames, hroot⟩
  cases names with
  | nil =>
    rw [hroot]
    rfl
  | cons first others =>
    rcases exists_concat_intercalate hnames with ⟨front, last, hsplit, hlast⟩
    have hdot : (last == '.') = false := by
      rw [beq_eq_false_iff_ne]
      rintro rfl
      revert hlast
      decide
    rw [hroot, hsplit, dropEnd_concat, hdot, if_neg Bool.false_ne_true]

/-- However a root namespace is written, trimming leaves just that. -/
theorem trimNamespace_eq (h : IsRoot root) {text : String} (hwrites : Writes text root) :
    Naming.trimNamespace text = root := by
  rcases hwrites with ⟨lead, dots, trail, hlead, hdots, htrail, htext⟩
  -- Blanks are trimmed before dots, so those between the two must not be there.
  have hblanks : ∀ c ∈ root.toList ++ dots, isBlank c = false := by
    refine List.forall_mem_append.mpr ⟨h.isBlank_eq_false, fun c hc => ?_⟩
    rw [beq_iff_eq.mp (hdots c hc)]
    decide
  rw [Naming.trimNamespace, htext, trim_surround hlead htrail, trim_eq_self hblanks,
    dropEnd_append_of_forall _ hdots, h.dropEnd_dots, String.ofList_toList]

end IsRoot

/-- Trimming a text gives a root namespace exactly if the text writes one. -/
theorem isRoot_trimNamespace_iff {text : String} :
    IsRoot (Naming.trimNamespace text) ↔ ∃ written, IsRoot written ∧ Writes text written := by
  constructor
  · intro h
    rcases exists_margins text.toList with ⟨lead, trail, hlead, htrail, htext⟩
    rcases exists_dropEnd (· == '.') (trim text.toList) with ⟨dots, hdots, htrim⟩
    refine ⟨_, h, lead, dots, trail, hlead, hdots, htrail, ?_⟩
    rw [Naming.trimNamespace, String.toList_ofList, ← htrim]
    exact htext
  · rintro ⟨root, hroot, hwrites⟩
    rw [hroot.trimNamespace_eq hwrites]
    exact hroot

/-- A root namespace stands in front of the name of each package as it is. -/
theorem Naming.namespaceOf_of_isRoot {root : String} (h : IsRoot root) (package : String) :
    namespaceOf root package =
      if root = "" then pascalCase package else root ++ "." ++ pascalCase package := by
  unfold namespaceOf
  rw [h.trimNamespace_eq (.self root)]

/-! ## Configurations -/

namespace Configuration

theorem validate_eq_ok_iff {configuration : Configuration} :
    configuration.validate = .ok () ↔
      configuration.logging.level ∈ levels ∧ IsRoot configuration.rootNamespace := by
  rw [isRoot_iff, validate]
  split
  · rename_i hlevel
    rw [Bool.not_eq_true', List.contains_eq_mem, decide_eq_false_iff_not] at hlevel
    exact ⟨nofun, fun h => absurd h.1 hlevel⟩
  · rename_i hlevel
    rw [Bool.not_eq_true', List.contains_eq_mem, decide_eq_false_iff_not, not_not] at hlevel
    split
    · rename_i hinvalid
      rw [Bool.and_eq_true, bne_iff_ne, Bool.not_eq_true'] at hinvalid
      refine ⟨nofun, fun h => ?_⟩
      rcases h.2 with hempty | hnamespace
      · exact absurd hempty hinvalid.1
      · rw [hinvalid.2] at hnamespace
        cases hnamespace
    · rename_i hvalid
      refine ⟨fun _ => ⟨hlevel, ?_⟩, fun _ => rfl⟩
      by_cases hempty : configuration.rootNamespace = ""
      · exact .inl hempty
      · right
        by_contra hnamespace
        exact hvalid (by simp [hempty, hnamespace])

/-- Whatever is read is validated. -/
theorem exists_load_eq (tree : FileTree) (path : Option Path) :
    ∃ outcome, load tree path = outcome >>= fun found => found.validate >>= fun _ => pure found := by
  cases path with
  | some path => exact ⟨ofFile tree path, rfl⟩
  | none =>
    cases hdefault : tree.isFile defaultFile with
    | true => exact ⟨ofFile tree defaultFile, by unfold load; rw [hdefault]; rfl⟩
    | false => exact ⟨pure {}, by unfold load; rw [hdefault]; rfl⟩

theorem isRoot_of_load {tree : FileTree} {path : Option Path} {configuration : Configuration}
    (hload : load tree path = .ok configuration) : IsRoot configuration.rootNamespace := by
  rcases exists_load_eq tree path with ⟨outcome, houtcome⟩
  rw [houtcome] at hload
  rcases bind_eq_ok_iff.mp hload with ⟨found, -, hrest⟩
  rcases bind_eq_ok_iff.mp hrest with ⟨⟨⟩, hvalid, hfound⟩
  cases hfound
  exact (validate_eq_ok_iff.mp hvalid).2

end Configuration

/-! ## Builds -/

namespace Command

variable {tree : FileTree} {path : Option Path} {configuration : Configuration}

/-- Whatever text is given as an option, trimming it is all that is done to it. -/
theorem isRoot_namespaceIn_iff (hload : Configuration.load tree path = .ok configuration)
    (request : BuildRequest) :
    IsRoot (request.namespaceIn configuration) ↔
      ∀ text, request.rootNamespace = some text → ∃ written, IsRoot written ∧ Writes text written := by
  unfold BuildRequest.namespaceIn
  cases hoption : request.rootNamespace with
  | none => exact ⟨fun _ => nofun, fun _ => Configuration.isRoot_of_load hload⟩
  | some text =>
    dsimp only
    rw [isRoot_trimNamespace_iff]
    exact ⟨fun hwrites other hother => Option.some.inj hother ▸ hwrites, fun hall => hall text rfl⟩

/-- The run that a build starts. -/
def runOf (tree : FileTree) (configuration : Configuration) (request : BuildRequest)
    (workspace : Workspace) : RunOutcome Unit :=
  workspace.run (request.options configuration)
    (generatorFor configuration.build.outputFormat) tree ()

/-- A build of a selection that is not empty leaves what its run leaves. -/
theorem build_eq_run {request : BuildRequest} {workspace : Workspace}
    (hworkspace : loadWorkspace tree request.paths (.ofTexts request.filter) = .ok workspace)
    (hselected : workspace.selected ≠ []) :
    (build tree configuration request).tree = (runOf tree configuration request workspace).tree ∧
      ((build tree configuration request).result = .ok () ↔
        ∃ report, (runOf tree configuration request workspace).result = .ok report) := by
  have hsome : workspace.selected.isEmpty = false := by
    rwa [List.isEmpty_eq_false_iff]
  unfold build runOf
  rw [hworkspace]
  dsimp only
  rw [if_neg (by simp [hsome])]
  cases (workspace.run (request.options configuration)
    (generatorFor configuration.build.outputFormat : Generator Unit) tree ()).result with
  | error error => exact ⟨rfl, nofun, nofun⟩
  | ok report => exact ⟨rfl, fun _ => ⟨report, rfl⟩, fun _ => rfl⟩

/-- With any usable configuration, the root namespace of a build is valid unless an option is given
that writes no valid one: the option is not tested. A valid root namespace stands in front of the
names of the packages as it is. The run of a build has it from there. -/
theorem isRoot_of_build_iff (hload : Configuration.load tree path = .ok configuration)
    (request : BuildRequest) :
    let root := (request.options configuration).rootNamespace
    (IsRoot root ↔
      ∀ text, request.rootNamespace = some text → ∃ written, IsRoot written ∧ Writes text written) ∧
    (IsRoot root → ∀ package, Naming.namespaceOf root package =
      if root = "" then Naming.pascalCase package else root ++ "." ++ Naming.pascalCase package) ∧
    ∀ workspace, loadWorkspace tree request.paths (.ofTexts request.filter) = .ok workspace →
      workspace.selected ≠ [] →
      (build tree configuration request).tree = (runOf tree configuration request workspace).tree ∧
        ((build tree configuration request).result = .ok () ↔
          ∃ report, (runOf tree configuration request workspace).result = .ok report) :=
  ⟨isRoot_namespaceIn_iff hload request, Naming.namespaceOf_of_isRoot,
    fun _ => build_eq_run⟩

/-- A directory with one package. -/
def sourceEntry : String × Entry :=
  ("src", .directory [("p", .directory [("package.xml",
    .file "<package><name>p</name><version>1.0.0</version></package>".toUTF8)])])

/-- The package, and no configuration file. -/
def plainTree : FileTree where
  root := .directory [sourceEntry]

/-- The package, and a configuration that writes its root namespace with a dot and blanks. -/
def dottedTree : FileTree where
  root := .directory
    [("rosmsg.toml", .file "[build]\nroot_namespace=\" Ros. \"".toUTF8), sourceEntry]

/-- Builds the package, with a root namespace that is given or not. -/
def sourceRequest (rootNamespace : Option String) : BuildRequest where
  paths := ⟨⟨"src"⟩, [], [], true⟩
  output := ⟨"out"⟩
  rootNamespace

theorem dottedTree_isRoot :
    let configuration : Configuration := { build := { rootNamespace := " Ros. " } }
    let request := sourceRequest none
    let root := (request.options configuration).rootNamespace
    Configuration.load dottedTree none = .ok configuration ∧ root = "Ros" ∧ IsRoot root ∧
      Naming.namespaceOf root "p" = "Ros.P" ∧
      ∃ workspace, loadWorkspace dottedTree request.paths (.ofTexts request.filter) =
          .ok workspace ∧
        workspace.selected ≠ [] ∧
        (build dottedTree configuration request).tree =
          (runOf dottedTree configuration request workspace).tree := by
  intro configuration request root
  have hload : Configuration.load dottedTree none = .ok configuration := by
    decide +kernel
  have hroot : root = "Ros" := by
    decide
  have hselected : (loadWorkspace dottedTree request.paths
      (.ofTexts request.filter)).toOption.map (·.selected.isEmpty) = some false := by
    decide +kernel
  have hbuild := isRoot_of_build_iff hload request
  have hvalid : IsRoot root := hbuild.1.mpr nofun
  have hnamespace : Naming.namespaceOf root "p" = "Ros.P" := by
    refine (hbuild.2.1 hvalid "p").trans ?_
    show (if root = "" then _ else root ++ "." ++ _) = _
    rw [hroot]
    decide
  rcases Option.map_eq_some_iff.mp hselected with ⟨workspace, hworkspace, hsome⟩
  have hok := eq_ok_of_toOption hworkspace
  have hnonempty := List.isEmpty_eq_false_iff.mp hsome
  exact ⟨hload, hroot, hvalid, hnamespace, workspace, hok, hnonempty,
    (hbuild.2.2 workspace hok hnonempty).1⟩

/-- A text that is refused in a configuration is taken as an option, and a package is generated below
it. -/
theorem option_isNotRoot :
    let root := ((sourceRequest (some "9x")).options {}).rootNamespace
    Configuration.load plainTree none = .ok {} ∧ root = "9x" ∧ ¬ IsRoot root ∧
      (build plainTree {} (sourceRequest (some "9x"))).tree.isFile ⟨"out/9x.P/p.json"⟩ = true ∧
      Configuration.validate { build := { rootNamespace := "9x" } } =
        .error (.invalidNamespace "9x") := by
  intro root
  have hroot : root = "9x" := by
    decide
  have hinvalid : ¬ IsRoot root := by
    rw [hroot, isRoot_iff]
    decide
  exact ⟨by decide, hroot, hinvalid, by decide +kernel, by decide⟩

end Command

end RosInterface
