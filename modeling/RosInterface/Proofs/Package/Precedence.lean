import RosInterface.CommandLine.Commands
import RosInterface.Proofs.Package.Outermost
import RosInterface.Proofs.Workspace.Parsing

namespace RosInterface

/-! # Precedence among search paths

The packages of a workspace come from the folders below the main path, then from those below the
other roots in their order:

* `PackageFolder.Unsearchable` says why a search fails, and `PackageFolder.find_fails_iff` that there
  are no other reasons;
* `PackageInfo.IsFirst` says that a folder is the first one in a list that has a package of its name;
  `PackageInfo.exists_places` says that just such folders are read, in order;
* `Command.assemble_precedence` puts this together for the search paths of a command.
-/

namespace PackageFolder

variable {tree : FileTree} {root : Path} {strategy : BuildStrategy} {folders : List PackageFolder}

/-- Why a root cannot be searched. -/
inductive Unsearchable (tree : FileTree) (root : Path) : Prop
  | notDirectory (hdirectory : tree.isDirectory root = false)
  /-- The place of the root has no path that can be followed. -/
  | notFollowed {error : FileError} (hcanonical : tree.canonical root = .error error)
  /-- A directory on the way has no manifest, and its entries cannot be listed. -/
  | notListed {canonical found : Path} {entry : Entry} {error : FileError}
      (hcanonical : tree.canonical root = .ok canonical) (hentry : tree.entry? canonical = some entry)
      (hmeets : Meets tree canonical entry found) (hopen : isPackage tree found = false)
      (hlist : tree.list found = .error error)

/-- A search fails exactly if its root cannot be searched. -/
theorem find_fails_iff :
    (∃ error, find tree root strategy = .error error) ↔ Unsearchable tree root := by
  cases hdirectory : tree.isDirectory root with
  | false =>
    refine ⟨fun _ => .notDirectory hdirectory, fun _ => ⟨.directoryNotFound root.text, ?_⟩⟩
    rw [find, canonicalDirectory, hdirectory]
    rfl
  | true =>
    have hstart : canonicalDirectory tree root = (tree.canonical root).mapError .file := by
      rw [canonicalDirectory, if_pos hdirectory]
    constructor
    · rintro ⟨error, hfails⟩
      rcases bind_eq_error_iff.mp hfails with hroot | ⟨canonical, hroot, hsearch⟩
      · rw [hstart] at hroot
        rcases mapError_eq_error_iff.mp hroot with ⟨cause, hcanonical, -⟩
        exact .notFollowed hcanonical
      · rw [hstart, mapError_eq_ok_iff] at hroot
        cases hentry : tree.entry? canonical with
        | none =>
          rw [hentry] at hsearch
          cases hsearch
        | some entry =>
          rw [hentry] at hsearch
          rcases bind_eq_error_iff.mp hsearch with hpaths | ⟨paths, -, hpure⟩
          · rcases mapError_eq_error_iff.mp hpaths with ⟨cause, hpaths, -⟩
            rcases exists_meets_of_pathsAt_eq_error hpaths with ⟨found, hmeets, hopen, hlist⟩
            exact .notListed hroot hentry hmeets hopen hlist
          · cases hpure
    · rintro (hother | hcanonical | ⟨hcanonical, hentry, hmeets, hopen, hlist⟩)
      · rw [hdirectory] at hother
        cases hother
      · rw [find, hstart, hcanonical]
        exact ⟨_, rfl⟩
      · rcases pathsAt_fails_iff.mpr ⟨_, _, hmeets, hopen, hlist⟩ with ⟨error, hpaths⟩
        refine ⟨.file error, bind_eq_error_iff.mpr (.inr ⟨_, by rw [hstart, hcanonical]; rfl, ?_⟩)⟩
        rw [hentry]
        exact bind_eq_error_iff.mpr (.inl (mapError_eq_error_iff.mpr ⟨error, hpaths, rfl⟩))

/-- All folders of a search are marked alike. -/
theorem strategy_of_find (hfind : find tree root strategy = .ok folders) {folder : PackageFolder}
    (hfolder : folder ∈ folders) : folder.strategy = strategy := by
  rcases bind_eq_ok_iff.mp hfind with ⟨canonical, -, hsearch⟩
  cases hentry : tree.entry? canonical with
  | none =>
    rw [hentry] at hsearch
    cases hsearch
    cases hfolder
  | some entry =>
    rw [hentry] at hsearch
    rcases bind_eq_ok_iff.mp hsearch with ⟨paths, -, hfolders⟩
    cases hfolders
    rcases List.mem_map.mp hfolder with ⟨path, -, rfl⟩
    rfl

end PackageFolder

namespace PackageInfo

variable {tree : FileTree} {folders : List PackageFolder} {packages : List PackageInfo}
  {seen : List String}

/-- The folder at a place in a list has the package, and no folder before it has one of this name. -/
structure IsFirst (tree : FileTree) (folders : List PackageFolder) (place : Nat)
    (package : PackageInfo) : Prop where
  read : ∃ folder, folders[place]? = some folder ∧ ofFolder tree folder = .ok package
  first : ∀ earlier < place, ∀ folder other, folders[earlier]? = some folder →
    ofFolder tree folder = .ok other → other.name ≠ package.name

theorem isOptional_of_ofFolder {folder : PackageFolder} {package : PackageInfo}
    (hread : ofFolder tree folder = .ok package) :
    package.isOptional = (folder.strategy == .optional) := by
  rcases bind_eq_ok_iff.mp hread with ⟨manifest, -, hrest⟩
  rcases bind_eq_ok_iff.mp hrest with ⟨messages, -, hpackage⟩
  cases hpackage
  rfl

theorem ofFoldersAfter_cons (tree : FileTree) (seen : List String) (folder : PackageFolder)
    (others : List PackageFolder) :
    ofFoldersAfter tree seen (folder :: others) =
      match ofFolder tree folder with
      | .error error =>
        if folder.strategy = .optional then ofFoldersAfter tree seen others else .error error
      | .ok package =>
        if seen.contains package.name then ofFoldersAfter tree seen others
        else (ofFoldersAfter tree (package.name :: seen) others).map (package :: ·) := by
  rfl

/-- The error of reading many folders is that of a mandatory one. -/
theorem exists_of_ofFoldersAfter {error : PackageError}
    (hfails : ofFoldersAfter tree seen folders = .error error) :
    ∃ folder ∈ folders, folder.strategy = .mandatory ∧ ofFolder tree folder = .error error := by
  induction folders generalizing seen with
  | nil => cases hfails
  | cons first others ih =>
    have hothers : ∀ {seen}, ofFoldersAfter tree seen others = .error error →
        ∃ folder ∈ first :: others, folder.strategy = .mandatory ∧
          ofFolder tree folder = .error error := by
      intro seen hfails
      rcases ih hfails with ⟨folder, hfolder, hmandatory⟩
      exact ⟨folder, List.mem_cons_of_mem first hfolder, hmandatory⟩
    rw [ofFoldersAfter_cons] at hfails
    cases hread : ofFolder tree first with
    | error cause =>
      rw [hread] at hfails
      dsimp only at hfails
      split at hfails
      · exact hothers hfails
      · rename_i hmandatory
        cases hfails
        refine ⟨first, List.mem_cons_self, ?_, hread⟩
        cases hstrategy : first.strategy with
        | mandatory => rfl
        | optional => exact absurd hstrategy hmandatory
    | ok package =>
      rw [hread] at hfails
      dsimp only at hfails
      split at hfails
      · exact hothers hfails
      · cases hrest : ofFoldersAfter tree (package.name :: seen) others with
        | ok packages =>
          rw [hrest] at hfails
          cases hfails
        | error cause =>
          rw [hrest] at hfails
          cases hfails
          exact hothers hrest

/-- A mandatory folder that cannot be read is a failure, whatever stands before it. -/
theorem ofFoldersAfter_fails_of_mem {folder : PackageFolder} {error : PackageError}
    (hfolder : folder ∈ folders) (hmandatory : folder.strategy = .mandatory)
    (hread : ofFolder tree folder = .error error) :
    ∃ error, ofFoldersAfter tree seen folders = .error error := by
  -- Whatever stands before it is passed over, fails itself, or adds a name to those seen.
  induction folders generalizing seen with
  | nil => cases hfolder
  | cons first others ih =>
    rw [ofFoldersAfter_cons]
    rcases List.mem_cons.mp hfolder with rfl | hothers
    · rw [hread, hmandatory]
      exact ⟨error, rfl⟩
    · cases ofFolder tree first with
      | error cause =>
        dsimp only
        split
        · exact ih hothers
        · exact ⟨cause, rfl⟩
      | ok package =>
        dsimp only
        split
        · exact ih hothers
        · rcases @ih (package.name :: seen) hothers with ⟨cause, hfails⟩
          rw [hfails]
          exact ⟨cause, rfl⟩

/-- Only what cannot be read in a mandatory folder is a failure. -/
theorem ofFoldersAfter_fails_iff :
    (∃ error, ofFoldersAfter tree seen folders = .error error) ↔
      ∃ folder ∈ folders, folder.strategy = .mandatory ∧
        ∃ error, ofFolder tree folder = .error error := by
  constructor
  · rintro ⟨error, hfails⟩
    rcases exists_of_ofFoldersAfter hfails with ⟨folder, hfolder, hmandatory, hread⟩
    exact ⟨folder, hfolder, hmandatory, error, hread⟩
  · rintro ⟨folder, hfolder, hmandatory, error, hread⟩
    exact ofFoldersAfter_fails_of_mem hfolder hmandatory hread

/-- The first folder is passed over if it has no package with a new name, and read otherwise. -/
theorem cons_cases {folder : PackageFolder}
    (hok : ofFoldersAfter tree seen (folder :: folders) = .ok packages) :
    ((∀ package, ofFolder tree folder = .ok package → package.name ∈ seen) ∧
      ofFoldersAfter tree seen folders = .ok packages) ∨
    ∃ package others, ofFolder tree folder = .ok package ∧ package.name ∉ seen ∧
      ofFoldersAfter tree (package.name :: seen) folders = .ok others ∧
      packages = package :: others := by
  rw [ofFoldersAfter_cons] at hok
  cases hread : ofFolder tree folder with
  | error error =>
    rw [hread] at hok
    dsimp only at hok
    split at hok
    · exact .inl ⟨nofun, hok⟩
    · cases hok
  | ok package =>
    rw [hread] at hok
    dsimp only at hok
    split at hok
    · rename_i hseen
      refine .inl ⟨fun other hother => ?_, hok⟩
      cases hother
      simpa using hseen
    · rename_i hnew
      cases hrest : ofFoldersAfter tree (package.name :: seen) folders with
      | error error =>
        rw [hrest] at hok
        cases hok
      | ok others =>
        rw [hrest] at hok
        cases hok
        exact .inr ⟨package, others, rfl, by simpa using hnew, hrest, rfl⟩

/-- A folder in front that has no package, or one of another name, does not matter. -/
theorem IsFirst.cons {place : Nat} {package : PackageInfo} (h : IsFirst tree folders place package)
    {folder : PackageFolder}
    (hother : ∀ other, ofFolder tree folder = .ok other → other.name ≠ package.name) :
    IsFirst tree (folder :: folders) (place + 1) package := by
  refine ⟨h.read, fun earlier hearlier found other hfound hread => ?_⟩
  cases earlier with
  | zero =>
    cases hfound
    exact hother other hread
  | succ earlier => exact h.first earlier (Nat.lt_of_succ_lt_succ hearlier) found other hfound hread

/-- The packages are the first ones of their names at some places, in the order of the places. -/
def AreFirst (tree : FileTree) (folders : List PackageFolder) (seen : List String)
    (places : List Nat) (packages : List PackageInfo) : Prop :=
  places.Pairwise (· < ·) ∧ List.Forall₂ (fun place package =>
    IsFirst tree folders place package ∧ package.name ∉ seen) places packages

/-- Behind a folder whose package has a name that counts as seen, places move up by one. -/
theorem AreFirst.cons {places : List Nat} (h : AreFirst tree folders seen places packages)
    {folder : PackageFolder}
    (hname : ∀ package, ofFolder tree folder = .ok package → package.name ∈ seen) :
    AreFirst tree (folder :: folders) seen (places.map (· + 1)) packages := by
  refine ⟨h.1.map _ fun a b hlt => Nat.succ_lt_succ hlt, ?_⟩
  rw [List.forall₂_map_left_iff]
  refine h.2.imp fun place package ⟨hplace, hnew⟩ => ⟨hplace.cons fun other hread hsame => ?_, hnew⟩
  exact hnew (hsame ▸ hname other hread)

/-- Of two places, only one has the first package of a name. -/
theorem IsFirst.name_ne {place later : Nat} {package other : PackageInfo}
    (h : IsFirst tree folders place package) (hother : IsFirst tree folders later other)
    (hlt : place < later) : package.name ≠ other.name := by
  rcases h.read with ⟨folder, hfolder, hread⟩
  exact hother.first place hlt folder package hfolder hread

theorem AreFirst.exists_place {places : List Nat} (h : AreFirst tree folders seen places packages)
    {package : PackageInfo} (hpackage : package ∈ packages) :
    ∃ place ∈ places, IsFirst tree folders place package := by
  rcases h with ⟨-, hfirst⟩
  induction hfirst with
  | nil => cases hpackage
  | cons hplace _ ih =>
    rcases List.mem_cons.mp hpackage with rfl | hmem
    · exact ⟨_, List.mem_cons_self, hplace.1⟩
    · rcases ih hmem with ⟨place, hmember, hplace⟩
      exact ⟨place, List.mem_cons_of_mem _ hmember, hplace⟩

theorem AreFirst.distinct {places : List Nat} (h : AreFirst tree folders seen places packages) :
    (packages.map (·.name)).Nodup := by
  induction packages generalizing places with
  | nil => exact .nil
  | cons package others ih =>
    rcases h with ⟨hincreasing, hfirst⟩
    cases hfirst with
    | cons hplace hothers =>
      rw [List.pairwise_cons] at hincreasing
      have hrest : AreFirst tree folders seen _ others := ⟨hincreasing.2, hothers⟩
      rw [List.map_cons, List.nodup_cons]
      refine ⟨fun hmem => ?_, ih hrest⟩
      rcases List.mem_map.mp hmem with ⟨other, hother, hname⟩
      rcases hrest.exists_place hother with ⟨place, hmember, hfirst⟩
      exact hplace.1.name_ne hfirst (hincreasing.1 place hmember) hname.symm

/-- The packages that are read are the first ones of their names, in the order of their folders. -/
theorem exists_places (hok : ofFoldersAfter tree seen folders = .ok packages) :
    ∃ places, AreFirst tree folders seen places packages := by
  induction folders generalizing seen packages with
  | nil =>
    cases hok
    exact ⟨[], .nil, .nil⟩
  | cons folder others ih =>
    rcases cons_cases hok with ⟨hseen, hothers⟩ | ⟨package, rest, hread, hnew, hothers, rfl⟩
    · rcases ih hothers with ⟨places, hplaces⟩
      exact ⟨_, hplaces.cons hseen⟩
    · rcases ih hothers with ⟨places, hplaces⟩
      have hname : ∀ other, ofFolder tree folder = .ok other →
          other.name ∈ package.name :: seen := by
        intro other hother
        cases hread.symm.trans hother
        exact List.mem_cons_self
      rcases hplaces.cons hname with ⟨hincreasing, hfirst⟩
      refine ⟨0 :: places.map (· + 1), ?_, ?_⟩
      · refine List.pairwise_cons.mpr ⟨fun place hplace => ?_, hincreasing⟩
        rcases List.mem_map.mp hplace with ⟨earlier, -, rfl⟩
        exact Nat.succ_pos earlier
      · refine .cons ⟨⟨⟨folder, rfl, hread⟩, nofun⟩, hnew⟩ ?_
        refine hfirst.imp fun place other ⟨hplace, hother⟩ => ⟨hplace, fun hmem => ?_⟩
        exact hother (List.mem_cons_of_mem _ hmem)

/-- Every package that can be read is there, or another one of its name is. -/
theorem exists_of_readable (hok : ofFoldersAfter tree seen folders = .ok packages)
    {folder : PackageFolder} (hfolder : folder ∈ folders) {package : PackageInfo}
    (hread : ofFolder tree folder = .ok package) :
    package.name ∈ seen ∨ ∃ other ∈ packages, other.name = package.name := by
  induction folders generalizing seen packages with
  | nil => cases hfolder
  | cons first others ih =>
    rcases cons_cases hok with ⟨hseen, hothers⟩ | ⟨head, rest, hhead, hnew, hothers, rfl⟩
    · rcases List.mem_cons.mp hfolder with rfl | hmem
      · exact .inl (hseen package hread)
      · exact ih hothers hmem
    · rcases List.mem_cons.mp hfolder with rfl | hmem
      · cases hhead.symm.trans hread
        exact .inr ⟨_, List.mem_cons_self, rfl⟩
      · rcases ih hothers hmem with hname | ⟨other, hother, hname⟩
        · rcases List.mem_cons.mp hname with hname | hname
          · exact .inr ⟨head, List.mem_cons_self, hname.symm⟩
          · exact .inl hname
        · exact .inr ⟨other, List.mem_cons_of_mem _ hother, hname⟩

end PackageInfo

namespace Command

/-- A workspace of the packages at some search paths, before their definition files are read. -/
def assemble (tree : FileTree) (paths : SearchPaths) : Except CommandError Workspace := do
  let folders ← (paths.folders tree).mapError .package
  (Workspace.ofFolders tree folders).mapError .workspace

theorem loadWorkspace_eq (tree : FileTree) (paths : SearchPaths) (filter : PackageFilter) :
    loadWorkspace tree paths filter = assemble tree paths >>= fun workspace =>
      let (outcome, filtered) := (workspace.parse tree).filter filter
      outcome.mapError .workspace >>= fun _ => pure filtered := by
  rw [assemble, bind_assoc]
  rfl

open FileTree PackageFolder PackageInfo

variable {tree : FileTree} {paths : SearchPaths} {main : List PackageFolder}

/-- All folders in the order of precedence. -/
def foldersBehind (tree : FileTree) (paths : SearchPaths) (main : List PackageFolder) :
    List PackageFolder :=
  main ++ paths.optionalRoots.flatMap (SearchPaths.optionalFolders tree)

/-- The packages of a workspace are what takes precedence among the folders below the main path and
those below the other roots. -/
structure Precedence (tree : FileTree) (paths : SearchPaths) (main : List PackageFolder)
    (available : List PackageInfo) : Prop where
  distinct : (available.map (·.name)).Nodup
  /-- Each package is the first one of its name, and they are in the order of the folders; just those
  from below the main path are mandatory. -/
  first : ∃ places : List Nat, places.Pairwise (· < ·) ∧ List.Forall₂ (fun place package =>
    IsFirst tree (foldersBehind tree paths main) place package ∧
      (package.isOptional = false ↔ place < main.length)) places available
  /-- No name is left out. -/
  complete : ∀ folder ∈ foldersBehind tree paths main, ∀ package,
    ofFolder tree folder = .ok package → ∃ other ∈ available, other.name = package.name
  /-- The names of packages below the main path stand for such packages. -/
  main : ∀ folder ∈ main, ∀ package, ofFolder tree folder = .ok package →
    ∃ other ∈ available, other.name = package.name ∧ other.isOptional = false

theorem strategy_of_optionalFolders {root : Path} {folder : PackageFolder}
    (hfolder : folder ∈ SearchPaths.optionalFolders tree root) : folder.strategy = .optional := by
  unfold SearchPaths.optionalFolders at hfolder
  split at hfolder
  · rename_i hfind
    exact strategy_of_find hfind hfolder
  · cases hfolder

theorem mem_main_of_mandatory {folder : PackageFolder}
    (hfolder : folder ∈ foldersBehind tree paths main) (hmandatory : folder.strategy = .mandatory) :
    folder ∈ main := by
  rcases List.mem_append.mp hfolder with hfolder | hfolder
  · exact hfolder
  · rcases List.mem_flatMap.mp hfolder with ⟨root, -, hroot⟩
    rw [strategy_of_optionalFolders hroot] at hmandatory
    cases hmandatory

/-- Just the folders below the main path are mandatory. -/
theorem strategy_foldersBehind (hmain : find tree paths.packagePath .mandatory = .ok main)
    {place : Nat} {folder : PackageFolder}
    (hfolder : (foldersBehind tree paths main)[place]? = some folder) :
    folder.strategy = if place < main.length then .mandatory else .optional := by
  by_cases hplace : place < main.length
  · rw [foldersBehind, List.getElem?_append_left hplace] at hfolder
    rw [if_pos hplace]
    exact strategy_of_find hmain (List.mem_of_getElem? hfolder)
  · rw [foldersBehind, List.getElem?_append_right (Nat.not_lt.mp hplace)] at hfolder
    rw [if_neg hplace]
    rcases List.mem_flatMap.mp (List.mem_of_getElem? hfolder) with ⟨root, -, hroot⟩
    exact strategy_of_optionalFolders hroot

theorem isOptional_eq_false_iff (hmain : find tree paths.packagePath .mandatory = .ok main)
    {place : Nat} {package : PackageInfo}
    (hfirst : IsFirst tree (foldersBehind tree paths main) place package) :
    package.isOptional = false ↔ place < main.length := by
  rcases hfirst.read with ⟨folder, hfolder, hread⟩
  rw [isOptional_of_ofFolder hread, strategy_foldersBehind hmain hfolder]
  split
  · rename_i hplace
    exact ⟨fun _ => hplace, fun _ => rfl⟩
  · rename_i hplace
    exact ⟨nofun, fun hother => absurd hother hplace⟩

/-- What is read takes precedence. -/
theorem precedence_of_ofFolders (hmain : find tree paths.packagePath .mandatory = .ok main)
    {packages : List PackageInfo}
    (hok : ofFolders tree (foldersBehind tree paths main) = .ok packages) :
    Precedence tree paths main packages := by
  rcases exists_places hok with ⟨places, hplaces⟩
  have hcomplete : ∀ folder ∈ foldersBehind tree paths main, ∀ package,
      ofFolder tree folder = .ok package → ∃ other ∈ packages, other.name = package.name := by
    intro folder hfolder package hread
    exact (exists_of_readable hok hfolder hread).resolve_left List.not_mem_nil
  refine ⟨hplaces.distinct, ⟨places, hplaces.1, ?_⟩, hcomplete, ?_⟩
  · exact hplaces.2.imp fun place package h => ⟨h.1, isOptional_eq_false_iff hmain h.1⟩
  · intro folder hfolder package hread
    rcases hcomplete folder (List.mem_append_left _ hfolder) package hread with
      ⟨other, hother, hname⟩
    rcases hplaces.exists_place hother with ⟨place, -, hfirst⟩
    refine ⟨other, hother, hname, (isOptional_eq_false_iff hmain hfirst).mpr ?_⟩
    -- Otherwise the folder would come before the first one with a package of this name.
    by_contra hbehind
    rcases List.mem_iff_getElem.mp hfolder with ⟨earlier, hearlier, rfl⟩
    refine hfirst.first earlier (Nat.lt_of_lt_of_le hearlier (Nat.not_lt.mp hbehind)) _ package ?_
      hread hname.symm
    rw [foldersBehind, List.getElem?_append_left hearlier, List.getElem?_eq_getElem hearlier]

/-- Only folders below the main path have to be readable. -/
theorem ofFolders_fails_iff (hmain : find tree paths.packagePath .mandatory = .ok main) :
    (∃ error, ofFolders tree (foldersBehind tree paths main) = .error error) ↔
      ∃ folder ∈ main, ∃ error, ofFolder tree folder = .error error := by
  rw [ofFolders, ofFoldersAfter_fails_iff]
  constructor
  · rintro ⟨folder, hfolder, hmandatory, hfails⟩
    exact ⟨folder, mem_main_of_mandatory hfolder hmandatory, hfails⟩
  · rintro ⟨folder, hfolder, hfails⟩
    exact ⟨folder, List.mem_append_left _ hfolder, strategy_of_find hmain hfolder, hfails⟩

/-- Once the main path could be searched, only reading a folder can fail. -/
theorem assemble_of_find (hmain : find tree paths.packagePath .mandatory = .ok main) :
    assemble tree paths =
      match ofFolders tree (foldersBehind tree paths main) with
      | .ok packages => .ok { available := packages }
      | .error error => .error (.workspace (.package error)) := by
  have hfolders : paths.folders tree = .ok (foldersBehind tree paths main) := by
    rw [SearchPaths.folders, hmain]
    rfl
  rw [assemble, hfolders]
  change (Workspace.ofFolders _ _).mapError _ = _
  rw [Workspace.ofFolders]
  cases hread : ofFolders tree (foldersBehind tree paths main) with
  | error error => rfl
  | ok packages =>
    have hpackages : Workspace.ofPackages packages = .ok { available := packages } :=
      Workspace.ofPackages_eq_ok_iff.mpr ⟨(precedence_of_ofFolders hmain hread).distinct, rfl⟩
    change (Workspace.ofPackages packages).mapError _ = _
    rw [hpackages]
    rfl

/-- Where the main path cannot be searched, nothing is read. -/
theorem assemble_of_unsearchable {error : PackageError}
    (hmain : find tree paths.packagePath .mandatory = .error error) :
    assemble tree paths = .error (.package error) := by
  rw [assemble, SearchPaths.folders, hmain]
  rfl

/-- Assembling fails for just two reasons: the main path cannot be searched, or a package folder below
it cannot be read. A name that comes twice is none; the first folder with it takes precedence. -/
theorem assemble_precedence (tree : FileTree) (paths : SearchPaths) :
    ((∃ error, assemble tree paths = .error error) ↔
      Unsearchable tree paths.packagePath ∨
        ∃ main folder error, find tree paths.packagePath .mandatory = .ok main ∧ folder ∈ main ∧
          ofFolder tree folder = .error error) ∧
    (∀ name, assemble tree paths ≠ .error (.workspace (.duplicatePackage name))) ∧
    ∀ workspace, assemble tree paths = .ok workspace →
      ∃ main, find tree paths.packagePath .mandatory = .ok main ∧
        Precedence tree paths main workspace.available := by
  cases hmain : find tree paths.packagePath .mandatory with
  | error error =>
    have hunsearchable := find_fails_iff.mp ⟨error, hmain⟩
    rw [assemble_of_unsearchable hmain]
    exact ⟨⟨fun _ => .inl hunsearchable, fun _ => ⟨_, rfl⟩⟩, nofun, nofun⟩
  | ok main =>
    have hfails := ofFolders_fails_iff hmain
    rw [assemble_of_find hmain]
    cases hread : ofFolders tree (foldersBehind tree paths main) with
    | error error =>
      rcases hfails.mp ⟨error, hread⟩ with ⟨folder, hfolder, cause, hcause⟩
      refine ⟨⟨fun _ => .inr ⟨main, folder, cause, rfl, hfolder, hcause⟩, fun _ => ⟨_, rfl⟩⟩,
        nofun, nofun⟩
    | ok packages =>
      refine ⟨⟨nofun, fun hreasons => ?_⟩, nofun, fun workspace hworkspace => ?_⟩
      · rcases hreasons with hunsearchable | ⟨others, folder, cause, hothers, hfolder, hcause⟩
        · rcases find_fails_iff.mpr hunsearchable with ⟨error, hother⟩
          cases hmain.symm.trans hother
        · cases hothers
          rcases hfails.mpr ⟨folder, hfolder, cause, hcause⟩ with ⟨error, hother⟩
          cases hread.symm.trans hother
      · cases hworkspace
        exact ⟨main, rfl, precedence_of_ofFolders hmain hread⟩

/-! ## A search that goes too deep -/

/-- Directories without any file, one inside of the other. -/
def nested : Nat → Entry
  | 0 => .directory []
  | depth + 1 => .directory [("d", nested depth)]

/-- A tree with as many levels of directories below its root. -/
def tower (depth : Nat) : FileTree where
  root := nested depth

theorem isEntryName_d : IsEntryName "d" := by
  decide

theorem isProper_nested (depth : Nat) : (nested depth).isProper = true := by
  induction depth with
  | zero => rfl
  | succ depth ih =>
    rw [nested, Entry.isProper_directory]
    simp [isEntryName_d, ih]

theorem get?_nested (depth : Nat) :
    (nested depth).get? (List.replicate depth "d") = some (.directory []) := by
  induction depth with
  | zero => rfl
  | succ depth ih => exact ih

theorem lookup_of_get?_nested {depth : Nat} {location : Location}
    {entries : List (String × Entry)}
    (hdirectory : (nested depth).get? location = some (.directory entries)) :
    entries.lookup Manifest.fileName = none := by
  induction depth generalizing location with
  | zero =>
    cases location with
    | nil =>
      cases hdirectory
      rfl
    | cons name rest => cases hdirectory
  | succ depth ih =>
    cases location with
    | nil =>
      cases hdirectory
      rfl
    | cons name rest =>
      rcases Option.bind_eq_some_iff.mp hdirectory with ⟨child, hlookup, hbelow⟩
      change [("d", nested depth)].lookup name = _ at hlookup
      rw [lookup_cons_eq] at hlookup
      split at hlookup
      · cases hlookup
        exact ih hbelow
      · cases hlookup

theorem not_hasManifest_tower (depth : Nat) (location : Location) :
    ¬HasManifest (tower depth) location := by
  intro hmanifest
  rcases hmanifest.exists_directory with ⟨entries, hdirectory⟩
  rcases hmanifest with ⟨place, content, hwalks⟩
  have hshort : ¬nameLimit < Manifest.fileName.utf8ByteSize := by decide
  rw [walkLinks, walk, hdirectory] at hwalks
  dsimp only at hwalks
  rw [lookup_of_get?_nested hdirectory, if_neg hshort] at hwalks
  cases hwalks

theorem utf8ByteSize_replicate (depth : Nat) :
    (pathOf (List.replicate (depth + 1) "d")).text.utf8ByteSize = 2 * (depth + 1) := by
  induction depth with
  | zero => rfl
  | succ depth ih =>
    have hnames : ∀ name ∈ List.replicate (depth + 1) "d", IsEntryName name := by
      intro name hname
      rw [List.eq_of_mem_replicate hname]
      exact isEntryName_d
    rw [List.replicate_succ', utf8ByteSize_pathOf_concat isEntryName_d hnames, ih,
      if_neg (by simp)]
    change 2 * (depth + 1) + 1 + 1 = _
    omega

theorem isPackage_tower {depth : Nat} {location : Location} {entries : List (String × Entry)}
    (hdirectory : (tower depth).get? location = some (.directory entries)) :
    isPackage (tower depth) (pathOf location) = false := by
  rw [Bool.eq_false_iff]
  intro hpackage
  have hmanifest := ((isPackage_pathOf (isProper_nested depth) hdirectory).mp hpackage).2
  exact not_hasManifest_tower depth location hmanifest

/-- The search meets the innermost directory. -/
theorem meets_tower (depth : Nat) :
    Meets (tower (depth + 1)) (pathOf ["d"]) (nested depth)
      (pathOf (["d"] ++ List.replicate depth "d")) := by
  have hbottom : (tower (depth + 1)).get? (["d"] ++ List.replicate depth "d") =
      some (.directory []) := get?_nested (depth + 1)
  refine meets_of_get? (isProper_nested depth) (by simp [isEntryName_d]) (get?_nested depth) ?_
  rintro above ⟨behind, hsplit⟩ -
  rw [← hsplit, ← List.append_assoc] at hbottom
  rcases exists_directory_of_append hbottom with ⟨entries, hdirectory⟩
  exact isPackage_tower hdirectory

/-- A path that is too long keeps the innermost directory from being listed. -/
theorem unsearchable_tower {depth : Nat} (hdeep : pathLimit ≤ 2 * (depth + 1)) :
    Unsearchable (tower (depth + 1)) ⟨"/d"⟩ := by
  have hproper := isProper_nested (depth + 1)
  have hbottom : (tower (depth + 1)).get? (["d"] ++ List.replicate depth "d") =
      some (.directory []) := get?_nested (depth + 1)
  have hresolve : (tower (depth + 1)).resolve ⟨"/d"⟩ = .ok ⟨["d"], some (nested depth)⟩ := by
    cases depth with
    | zero => rfl
    | succ depth =>
      have hdirectory : (tower (depth + 2)).get? ["d"] =
          some (.directory [("d", nested depth)]) := rfl
      have hshort : IsShort ["d"] := by decide
      exact locate_pathOf hproper hdirectory hshort
  have hcanonical : (tower (depth + 1)).canonical ⟨"/d"⟩ = .ok (pathOf ["d"]) := by
    rw [canonical, hresolve]
    rfl
  have hentry : FileTree.entry? (tower (depth + 1)) (pathOf ["d"]) = some (nested depth) := by
    have hpath : pathOf ["d"] = ⟨"/d"⟩ := rfl
    unfold FileTree.entry?
    rw [hpath, hresolve]
  cases hlist : (tower (depth + 1)).list (pathOf (["d"] ++ List.replicate depth "d")) with
  | error error =>
    exact .notListed hcanonical hentry (meets_tower depth) (isPackage_tower hbottom) hlist
  | ok listed =>
    have hshort := isShort_of_list (Entry.isProper_of_get? hproper hbottom).2 hlist
    have hsize := utf8ByteSize_replicate depth
    rw [IsShort, List.singleton_append, ← List.replicate_succ, hsize] at hshort
    omega

/-- The main path is a directory and no package folder is found below it, and assembling fails. -/
theorem tower_fails :
    ¬((∃ error, assemble (tower 2048) ⟨⟨"/d"⟩, [], [], true⟩ = .error error) ↔
      (tower 2048).isDirectory ⟨"/d"⟩ = false ∨
        ∃ location error, Outermost (tower 2048) ["d"] location ∧
          ofFolder (tower 2048) ⟨pathOf location, .mandatory⟩ = .error error) := by
  intro h
  rcases find_fails_iff.mpr (@unsearchable_tower 2047 (by decide)) with ⟨error, hfind⟩
  rcases h.mp ⟨.package error, assemble_of_unsearchable hfind⟩ with
    hdirectory | ⟨location, error, houtermost, -⟩
  · cases hdirectory
  · exact not_hasManifest_tower 2048 location houtermost.hasManifest

end Command

end RosInterface
