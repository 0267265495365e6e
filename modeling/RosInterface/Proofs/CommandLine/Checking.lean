import RosInterface.Proofs.CommandLine.Loading

namespace RosInterface

/-! # Checking and loading agree

`check` reads and parses the packages below a path one by one and counts the failures. Loading reads
all manifests first, holds failures back, and leaves it to a filter to meet them. Where no two
packages have the same name, both come to the same:

* `PackageInfo.ofFoldersAfter_of_namedApart` says that no folder is passed over when manifests are
  read;
* `Workspace.IsRead.complete` says that the empty filter selects every package once all of them could
  be read;
* `Command.check_eq_ok_iff` is the other side, and `Command.check_iff_loads` compares the two.
-/

/-- If both folders have a package, the packages have different names. -/
def PackageFolder.NamedApart (tree : FileTree) (a b : PackageFolder) : Prop :=
  ∀ package other, PackageInfo.ofFolder tree a = .ok package →
    PackageInfo.ofFolder tree b = .ok other → package.name ≠ other.name

open PackageFolder PackageInfo

variable {tree : FileTree} {folders : List PackageFolder} {packages : List PackageInfo}

/-- Where each name comes once, every mandatory folder is read. -/
theorem PackageInfo.ofFoldersAfter_of_namedApart {seen : List String}
    (hmandatory : ∀ folder ∈ folders, folder.strategy = .mandatory)
    (happart : folders.Pairwise (NamedApart tree))
    (hseen : ∀ folder ∈ folders, ∀ package, ofFolder tree folder = .ok package →
      package.name ∉ seen) :
    ofFoldersAfter tree seen folders = folders.mapM (ofFolder tree) := by
  -- The names that were seen grow, but never by one that a later folder still has.
  induction folders generalizing seen with
  | nil => rfl
  | cons folder others ih =>
    rw [List.forall_mem_cons] at hmandatory hseen
    rw [List.pairwise_cons] at happart
    rw [ofFoldersAfter_cons, List.mapM_cons]
    cases hread : ofFolder tree folder with
    | error error =>
      dsimp only
      rw [hmandatory.1, if_neg (by decide)]
      rfl
    | ok package =>
      have hnew : seen.contains package.name = false := by
        rw [List.contains_eq_mem, decide_eq_false_iff_not]
        exact hseen.1 package hread
      have hothers := @ih (package.name :: seen) hmandatory.2 happart.2 ?_
      · dsimp only
        rw [hnew, if_neg Bool.false_ne_true, hothers]
        cases others.mapM (ofFolder tree) with
        | error error => rfl
        | ok packages => rfl
      · intro other hother found hfound hmem
        rcases List.mem_cons.mp hmem with hname | hmem
        · exact happart.1 other hother package found hread hfound hname.symm
        · exact hseen.2 other hother found hfound hmem

namespace Workspace

variable {workspace : Workspace} {names : List String}

/-- All packages are selected with what was read from them, and nothing is held back. -/
structure Complete (tree : FileTree) (workspace : Workspace) : Prop where
  all : workspace.selected.map (·.info) = workspace.available
  read : ∀ package ∈ workspace.selected,
    PackageContents.ofPackage tree package.info = .ok package.contents ∧
      workspace.contents? package.name = some package.contents
  held : workspace.failures = []

/-- The empty filter names no package. -/
theorem exactNames_empty (workspace : Workspace) :
    ∀ name ∈ PackageFilter.exactNames {}, workspace.isAvailable name = true :=
  nofun

/-- The empty filter needs all packages if all of them are mandatory, and completes them. -/
theorem IsRead.complete (h : IsRead tree packages workspace)
    (hmandatory : ∀ package ∈ packages, package.isOptional = false)
    (hselecting : IsRead.Selecting tree packages workspace {} names) :
    (workspace.selecting names).Complete tree := by
  have hsame : workspace.reclassified {} = workspace := reclassified_empty workspace
  have hmembers := hselecting.members
  have hreadable := hselecting.readable
  rw [hsame] at hmembers hreadable
  have hneeded : ∀ package ∈ packages, workspace.Needed package.name := by
    intro package hpackage
    exact .mandatory (h.available.symm ▸ hpackage) (hmandatory package hpackage)
  have hall : (workspace.selecting names).selected.map (·.info) = workspace.available := by
    rw [map_info_selecting, h.available, List.filter_eq_self.mpr]
    · refine (List.map_congr_left fun package hpackage => ?_).trans (List.map_id packages)
      rw [chosen, ← hmandatory package hpackage]
      rfl
    · intro package hpackage
      rw [List.contains_iff_mem]
      exact (hmembers _).mpr (hneeded package hpackage)
  have hstored : ∀ package ∈ packages, ∃ contents,
      PackageContents.ofPackage tree package = .ok contents ∧
        workspace.contents? package.name = some contents ∧
        workspace.failures.lookup package.name = none := by
    intro package hpackage
    rcases hreadable package hpackage (hneeded package hpackage) with ⟨contents, hcontents⟩
    have hstored := h.readFrom.stored h.reachable.orderly h.parsed (h.available.symm ▸ hpackage)
    rw [hcontents] at hstored
    exact ⟨contents, hcontents, hstored⟩
  refine ⟨hall, ?_, ?_⟩
  · intro package hpackage
    have hinfo : package.info ∈ packages := by
      rw [← h.available, ← hall]
      exact List.mem_map_of_mem hpackage
    rcases hstored package.info hinfo with ⟨contents, hcontents, hfound, -⟩
    rcases List.mem_map.mp hpackage with ⟨original, horiginal, rfl⟩
    have hselected : (workspace.select original).contents = contents := by
      show (workspace.contents? original.name).getD _ = contents
      rw [show workspace.contents? original.name = some contents from hfound]
      rfl
    rw [hselected]
    exact ⟨hcontents, hfound⟩
  · refine List.eq_nil_iff_forall_not_mem.mpr fun ⟨name, error⟩ hmem => ?_
    -- Whatever were held back would belong to a package, and each of them was read.
    have hknown : workspace.isKnown name = true :=
      isKnown_iff.mpr (List.mem_append_right _ (List.mem_map_of_mem hmem))
    rcases isAvailable_iff.mp (h.reachable.orderly.available name hknown) with
      ⟨package, hpackage, rfl⟩
    rcases hstored package (h.available ▸ hpackage) with ⟨contents, -, -, hnone⟩
    have hfailed := List.lookup_eq_none_iff.mp hnone _ hmem
    simp at hfailed

end Workspace

namespace Command

/-! ## Checking -/

theorem checkFolder_eq_ok_iff {folder : PackageFolder} {package : PackageInfo} :
    checkFolder tree folder = .ok package ↔ ofFolder tree folder = .ok package ∧
      ∃ contents, PackageContents.ofPackage tree package = .ok contents := by
  unfold checkFolder
  rw [bind_eq_ok_iff]
  constructor
  · rintro ⟨found, hfound, hrest⟩
    rcases bind_eq_ok_iff.mp hrest with ⟨contents, hcontents, hpure⟩
    cases hpure
    exact ⟨mapError_eq_ok_iff.mp hfound, contents, mapError_eq_ok_iff.mp hcontents⟩
  · rintro ⟨hfound, contents, hcontents⟩
    refine ⟨package, mapError_eq_ok_iff.mpr hfound, ?_⟩
    exact bind_eq_ok_iff.mpr ⟨contents, mapError_eq_ok_iff.mpr hcontents, rfl⟩

/-- A check succeeds exactly if the path can be searched and each package can be read completely. -/
theorem check_eq_ok_iff {path : Path} :
    (check tree path).result = .ok () ↔ ∃ folders, find tree path .mandatory = .ok folders ∧
      ∀ folder ∈ folders, ∃ package, checkFolder tree folder = .ok package := by
  unfold check
  cases find tree path .mandatory with
  | error error => exact ⟨nofun, nofun⟩
  | ok folders =>
    have hcount : (folders.map fun folder => (folder, checkFolder tree folder)).countP
        (fun result => isFailure result.2) = 0 ↔
          ∀ folder ∈ folders, ∃ package, checkFolder tree folder = .ok package := by
      rw [List.countP_eq_zero, List.forall_mem_map]
      refine forall_congr' fun folder => imp_congr_right fun _ => ?_
      cases checkFolder tree folder with
      | error error => simp [isFailure]
      | ok package => simp [isFailure]
    dsimp only
    split
    · rename_i hnone
      exact ⟨fun _ => ⟨folders, rfl, hcount.mp hnone⟩, fun _ => rfl⟩
    · rename_i hsome
      refine ⟨nofun, ?_⟩
      rintro ⟨found, hfound, hall⟩
      cases hfound
      exact absurd (hcount.mpr hall) hsome

/-! ## Loading -/

variable {paths : SearchPaths} {workspace : Workspace}

/-- Without other roots, the manifests are read one by one. -/
theorem ofFolders_of_namedApart (halone : paths.optionalRoots = [])
    (hmain : find tree paths.packagePath .mandatory = .ok folders)
    (happart : folders.Pairwise (NamedApart tree)) :
    ofFolders tree (foldersBehind tree paths folders) = folders.mapM (ofFolder tree) := by
  rw [foldersBehind, halone, List.flatMap_nil, List.append_nil]
  apply ofFoldersAfter_of_namedApart _ happart
  · intro folder _ package _
    exact List.not_mem_nil
  · intro folder hfolder
    exact strategy_of_find hmain hfolder

theorem isOptional_eq_false_of_mapM (hmain : find tree paths.packagePath .mandatory = .ok folders)
    (hread : folders.mapM (ofFolder tree) = .ok packages) {package : PackageInfo}
    (hpackage : package ∈ packages) : package.isOptional = false := by
  rcases exists_of_mem_of_mapM_eq_ok hread hpackage with ⟨folder, hfolder, hfound⟩
  rw [isOptional_of_ofFolder hfound, strategy_of_find hmain hfolder]
  rfl

/-- Where every package can be read completely, loading succeeds. -/
theorem exists_load_of_checked (halone : paths.optionalRoots = [])
    (hmain : find tree paths.packagePath .mandatory = .ok folders)
    (happart : folders.Pairwise (NamedApart tree))
    (hchecked : ∀ folder ∈ folders, ∃ package, checkFolder tree folder = .ok package) :
    ∃ workspace, loadWorkspace tree paths {} = .ok workspace := by
  have hfolders := ofFolders_of_namedApart halone hmain happart
  cases hread : folders.mapM (ofFolder tree) with
  | error error =>
    rcases exists_of_mapM_eq_error hread with ⟨folder, hfolder, hfails⟩
    rcases hchecked folder hfolder with ⟨package, hpackage⟩
    have hok := (checkFolder_eq_ok_iff.mp hpackage).1
    rw [hfails] at hok
    cases hok
  | ok packages =>
    rw [hread] at hfolders
    rw [loadWorkspace_of_read hmain hfolders]
    rcases (isRead_parsed hmain hfolders).filter_cases (Workspace.exactNames_empty _) with
      ⟨names, hselecting⟩ | ⟨package, error, hfailing⟩
    · rw [hselecting.outcome]
      exact ⟨_, rfl⟩
    · rcases exists_of_mem_of_mapM_eq_ok hread hfailing.member with ⟨folder, hfolder, hfound⟩
      rcases hchecked folder hfolder with ⟨other, hother⟩
      rcases checkFolder_eq_ok_iff.mp hother with ⟨hsame, contents, hcontents⟩
      cases hfound.symm.trans hsame
      rw [hfailing.unreadable] at hcontents
      cases hcontents

/-- Where loading succeeds, it has checked every folder, and the workspace is complete. -/
theorem complete_of_load (halone : paths.optionalRoots = [])
    (hmain : find tree paths.packagePath .mandatory = .ok folders)
    (happart : folders.Pairwise (NamedApart tree))
    (hload : loadWorkspace tree paths {} = .ok workspace) :
    folders.map (checkFolder tree) = workspace.selected.map (fun package => .ok package.info) ∧
      workspace.Complete tree := by
  have hfolders := ofFolders_of_namedApart halone hmain happart
  cases hread : folders.mapM (ofFolder tree) with
  | error error =>
    rw [loadWorkspace_of_unreadable hmain (hfolders.trans hread)] at hload
    cases hload
  | ok packages =>
    rw [hread] at hfolders
    have hisRead := isRead_parsed hmain hfolders
    rw [loadWorkspace_of_read hmain hfolders] at hload
    rcases hisRead.filter_cases (Workspace.exactNames_empty _) with
      ⟨names, hselecting⟩ | ⟨package, error, hfailing⟩
    · rw [hselecting.outcome, Workspace.reclassified_empty] at hload
      cases hload
      have hcomplete := hisRead.complete (fun package => isOptional_eq_false_of_mapM hmain hread)
        hselecting
      refine ⟨?_, hcomplete⟩
      -- Folders, packages and selection are in the same order, so all three lists can be compared.
      have hinfos : ((parsed tree packages).selecting names).selected.map (·.info) = packages :=
        hcomplete.all.trans hisRead.available
      have hread' : ∀ folder ∈ folders,
          checkFolder tree folder = (ofFolder tree folder).mapError .package := by
        intro folder hfolder
        rcases exists_mem_of_mapM_eq_ok hread hfolder with ⟨package, hpackage, hfound⟩
        rw [← hinfos] at hpackage
        rcases List.mem_map.mp hpackage with ⟨selected, hselected, rfl⟩
        rw [hfound]
        exact checkFolder_eq_ok_iff.mpr ⟨hfound, _, (hcomplete.read selected hselected).1⟩
      have houtcomes : packages.map .ok =
          folders.map fun folder => (ofFolder tree folder).mapError CommandError.package := by
        apply map_eq_of_mapM_eq_ok hread
        intro folder package hfound
        rw [hfound]
        rfl
      rw [List.map_congr_left hread', ← houtcomes]
      conv => lhs; rw [← hinfos]
      rw [List.map_map]
      rfl
    · rw [hfailing.outcome] at hload
      cases hload

/-- Without other roots, and where no two packages that can be read have one name, a check succeeds
exactly if loading does with the empty filter. Loading then has checked every folder, and it selects
all packages with what was read from them and holds none back. -/
theorem check_iff_loads (halone : paths.optionalRoots = [])
    (happart : ∀ folders, find tree paths.packagePath .mandatory = .ok folders →
      folders.Pairwise (NamedApart tree)) :
    ((check tree paths.packagePath).result = .ok () ↔
      ∃ workspace, loadWorkspace tree paths {} = .ok workspace) ∧
    ∀ workspace, loadWorkspace tree paths {} = .ok workspace →
      ∃ folders, find tree paths.packagePath .mandatory = .ok folders ∧
        folders.map (checkFolder tree) =
          workspace.selected.map (fun package => .ok package.info) ∧
        workspace.Complete tree := by
  have hcomplete : ∀ workspace, loadWorkspace tree paths {} = .ok workspace →
      ∃ folders, find tree paths.packagePath .mandatory = .ok folders ∧
        folders.map (checkFolder tree) =
          workspace.selected.map (fun package => .ok package.info) ∧
        workspace.Complete tree := by
    intro workspace hload
    cases hmain : find tree paths.packagePath .mandatory with
    | error error =>
      rw [loadWorkspace_eq, assemble_of_unsearchable hmain] at hload
      cases hload
    | ok folders =>
      exact ⟨folders, rfl, complete_of_load halone hmain (happart folders hmain) hload⟩
  refine ⟨?_, hcomplete⟩
  rw [check_eq_ok_iff]
  constructor
  · rintro ⟨folders, hmain, hchecked⟩
    exact exists_load_of_checked halone hmain (happart folders hmain) hchecked
  · rintro ⟨workspace, hload⟩
    rcases hcomplete workspace hload with ⟨folders, hmain, hchecked, -⟩
    refine ⟨folders, hmain, fun folder hfolder => ?_⟩
    have hmem : checkFolder tree folder ∈ folders.map (checkFolder tree) :=
      List.mem_map_of_mem hfolder
    rw [hchecked] at hmem
    rcases List.mem_map.mp hmem with ⟨package, -, hpackage⟩
    exact ⟨package.info, hpackage.symm⟩

/-- A directory with a mere collection of packages and a package with a message. -/
def collectionEntries : List (String × Entry) :=
  [("all", .directory [("package.xml", .file
      "<package><name>all</name><version>1</version><export><metapackage/></export></package>".toUTF8)]),
    ("b", .directory
      [("package.xml", .file "<package><name>b</name><version>1</version></package>".toUTF8),
        ("msg", .directory [("B.msg", .file "int8 x\n".toUTF8)])])]

/-- The directory below the root. -/
def collectionTree : FileTree where
  root := .directory [("src", .directory collectionEntries)]

/-- The folders of the two packages. -/
def collectionFolders : List PackageFolder :=
  [⟨⟨"/src/all"⟩, .mandatory⟩, ⟨⟨"/src/b"⟩, .mandatory⟩]

theorem find_collectionTree :
    find collectionTree ⟨"src"⟩ .mandatory = .ok collectionFolders := by
  have hopen : isPackage collectionTree ⟨"/src"⟩ = false := by
    decide +kernel
  have hlist : ∃ listed, collectionTree.list ⟨"/src"⟩ = .ok listed := ⟨_, rfl⟩
  have hgroups : groupsIn collectionTree ⟨"/src"⟩ collectionEntries =
      .ok [(⟨"/src/all"⟩, [⟨"/src/all"⟩]), (⟨"/src/b"⟩, [⟨"/src/b"⟩])] := by
    decide +kernel
  have horder : inPathOrder [(⟨"/src/all"⟩, [⟨"/src/all"⟩]), (⟨"/src/b"⟩, [⟨"/src/b"⟩])] =
      [⟨"/src/all"⟩, ⟨"/src/b"⟩] := by
    rw [inPathOrder, List.mergeSort_of_pairwise (by decide +kernel)]
    rfl
  have hpaths : pathsAt collectionTree ⟨"/src"⟩ (.directory collectionEntries) =
      .ok [⟨"/src/all"⟩, ⟨"/src/b"⟩] := by
    rcases hlist with ⟨listed, hlist⟩
    rw [pathsAt_directory, hopen, hlist, hgroups, if_neg Bool.false_ne_true, ← horder]
    rfl
  have hroot : canonicalDirectory collectionTree ⟨"src"⟩ = .ok ⟨"/src"⟩ := by
    decide +kernel
  have hentry : FileTree.entry? collectionTree ⟨"/src"⟩ = some (.directory collectionEntries) := rfl
  refine bind_eq_ok_iff.mpr ⟨⟨"/src"⟩, hroot, ?_⟩
  rw [hentry]
  exact bind_eq_ok_iff.mpr ⟨_, mapError_eq_ok_iff.mpr hpaths, rfl⟩

theorem collectionTree_loads :
    let paths : SearchPaths := ⟨⟨"src"⟩, [], [⟨"/opt"⟩], true⟩
    paths.optionalRoots = [] ∧
      (∀ folders, find collectionTree paths.packagePath .mandatory = .ok folders →
        folders.Pairwise (NamedApart collectionTree)) ∧
      ∃ workspace, loadWorkspace collectionTree paths {} = .ok workspace ∧
        workspace.selected.length = 2 ∧ workspace.Complete collectionTree := by
  intro paths
  have hall : (ofFolder collectionTree ⟨⟨"/src/all"⟩, .mandatory⟩).toOption.map
      PackageInfo.name = some "all" := by
    decide +kernel
  have hb : (ofFolder collectionTree ⟨⟨"/src/b"⟩, .mandatory⟩).toOption.map
      PackageInfo.name = some "b" := by
    decide +kernel
  have happart : ∀ folders, find collectionTree paths.packagePath .mandatory = .ok folders →
      folders.Pairwise (NamedApart collectionTree) := by
    intro folders hfolders
    cases find_collectionTree.symm.trans hfolders
    rw [collectionFolders, List.pairwise_pair]
    intro package other hpackage hother
    rw [hpackage] at hall
    rw [hother] at hb
    have hname : package.name = "all" := Option.some.inj hall
    have hotherName : other.name = "b" := Option.some.inj hb
    rw [hname, hotherName]
    decide
  have hvalid : (check collectionTree paths.packagePath).result = .ok () := by
    unfold check
    rw [find_collectionTree]
    decide +kernel
  have hloads := check_iff_loads rfl happart
  rcases hloads.1.mp hvalid with ⟨workspace, hload⟩
  rcases hloads.2 workspace hload with ⟨folders, hfolders, hchecked, hcomplete⟩
  cases find_collectionTree.symm.trans hfolders
  have hlength := congrArg List.length hchecked
  rw [List.length_map, List.length_map] at hlength
  exact ⟨rfl, happart, workspace, hload, hlength.symm, hcomplete⟩

end Command

end RosInterface
