import RosInterface.Proofs.Package.Search

namespace RosInterface.PackageFolder

open FileTree

/-! # The outermost package folders

A search finds the outermost package folders: the directories with a manifest below which none has
one on the way from the root of the search. The notions are about the tree itself:

* `HasManifest` follows the entry with the name of a manifest, over links if it is one;
* `Outermost` speaks of locations, to which no link leads, so that a directory is in the search only
  where it is;
* `Readable` asks that the paths of the directories on the way, and of their manifests, are not too
  long to be followed.

`find_outermost` puts together what a search meets, where that is, and in which order it comes. That
a tree is readable need not be checked directory by directory: `Readable.of_depth` says that it is if
it has few levels.
-/

/-- The directory at a location has a manifest: an entry of that name that is a file, or a link that
leads to one. -/
def HasManifest (tree : FileTree) (location : Location) : Prop :=
  ∃ place content, tree.walkLinks .target linkLimit location [.enter Manifest.fileName] =
    .ok ⟨place, some (.file content)⟩

/-- From the base down to the directory right above a location, none has a manifest. -/
def Uncovered (tree : FileTree) (base location : Location) : Prop :=
  ∀ above, base <+: above → above <+: location → above ≠ location → ¬HasManifest tree above

/-- A directory with a manifest at or below the base, and with none in between. -/
structure Outermost (tree : FileTree) (base location : Location) : Prop where
  below : base <+: location
  directory : ∃ entries, tree.get? location = some (.directory entries)
  hasManifest : HasManifest tree location
  uncovered : Uncovered tree base location

/-- The directories that a search from the base gets to, and their manifests, have paths that can be
followed. -/
structure Readable (tree : FileTree) (base : Location) : Prop where
  directory : ∀ location entries, base <+: location → Uncovered tree base location →
    tree.get? location = some (.directory entries) → IsShort location
  manifest : ∀ location, base <+: location → Uncovered tree base location →
    HasManifest tree location → IsShort (location ++ [Manifest.fileName])

theorem isEntryName_fileName : IsEntryName Manifest.fileName := by
  decide

variable {tree : FileTree} {base location : Location} {entries : List (String × Entry)}

/-- A directory with a manifest is found to be a package, unless the path of the manifest is too
long. -/
theorem isPackage_pathOf (hproper : tree.root.isProper = true)
    (hdirectory : tree.get? location = some (.directory entries)) :
    isPackage tree (pathOf location) = true ↔
      IsShort (location ++ [Manifest.fileName]) ∧ HasManifest tree location := by
  have hnames := (Entry.isProper_of_get? hproper hdirectory).2
  have hname := isEntryName_fileName
  rw [isPackage, join_pathOf hname hnames, isFile_eq_true_iff, resolve,
    locate_pathOf_concat hproper hdirectory hname]
  constructor
  · rintro ⟨place, content, hresolve⟩
    rcases bind_eq_ok_iff.mp hresolve with ⟨_, hshort, hwalks⟩
    exact ⟨(checkText_pathOf_eq_ok_iff (hname.concat hnames)).mp hshort, place, content, hwalks⟩
  · rintro ⟨hshort, place, content, hwalks⟩
    refine ⟨place, content, bind_eq_ok_iff.mpr ⟨(), ?_, hwalks⟩⟩
    exact (checkText_pathOf_eq_ok_iff (hname.concat hnames)).mpr hshort

/-- The way down to a directory is uncovered exactly if the search takes nothing on it for a
package. -/
theorem uncovered_iff (hproper : tree.root.isProper = true) (hreadable : Readable tree base)
    (hdirectory : tree.get? location = some (.directory entries)) :
    Uncovered tree base location ↔
      ∀ above, base <+: above → above <+: location → above ≠ location →
        isPackage tree (pathOf above) = false := by
  have habove : ∀ above, above <+: location →
      ∃ others, tree.get? above = some (.directory others) := by
    rintro above ⟨rest, rfl⟩
    exact exists_directory_of_append hdirectory
  constructor
  · intro huncovered above hbelow hfront hne
    rcases habove above hfront with ⟨others, hothers⟩
    rw [Bool.eq_false_iff]
    intro hpackage
    exact huncovered above hbelow hfront hne ((isPackage_pathOf hproper hothers).mp hpackage).2
  · -- From the base down: above a directory that is uncovered, the search can see a manifest.
    intro hopen above
    induction hlength : above.length using Nat.strongRecOn generalizing above with
    | ind length ih =>
      intro hbelow hfront hne hmanifest
      have huncovered : Uncovered tree base above := by
        intro higher hhigher hover hother
        have hless := Nat.lt_of_le_of_ne hover.length_le fun hsame =>
          hother (hover.eq_of_length hsame)
        refine ih _ (hlength ▸ hless) higher rfl hhigher (hover.trans hfront) ?_
        rintro rfl
        exact hother (hover.eq_of_length_le hfront.length_le)
      rcases habove above hfront with ⟨others, hothers⟩
      have hpackage := (isPackage_pathOf hproper hothers).mpr
        ⟨hreadable.manifest above hbelow huncovered hmanifest, hmanifest⟩
      rw [hopen above hbelow hfront hne] at hpackage
      cases hpackage

/-- A search meets the directories that no package covers. -/
theorem meets_iff {path : Path} (hproper : tree.root.isProper = true)
    (hreadable : Readable tree base) (hbase : tree.get? base = some (.directory entries)) :
    Meets tree (pathOf base) (.directory entries) path ↔
      ∃ location inside, path = pathOf location ∧ base <+: location ∧
        tree.get? location = some (.directory inside) ∧ Uncovered tree base location := by
  have hentry := Entry.isProper_of_get? hproper hbase
  have hget : ∀ names, tree.get? (base ++ names) = (Entry.directory entries).get? names := by
    intro names
    rw [get?, Entry.get?_append, ← get?, hbase]
    rfl
  constructor
  · intro hmeets
    rcases hmeets.exists_location hentry.1 hentry.2 with ⟨names, inside, rfl, hfound, hopen⟩
    have hinside := (hget names).trans hfound
    refine ⟨base ++ names, inside, rfl, List.prefix_append _ _, hinside, ?_⟩
    rw [uncovered_iff hproper hreadable hinside]
    rintro _ ⟨above, rfl⟩ hfront hne
    exact hopen above ((List.prefix_append_right_inj base).mp hfront) fun hsame => hne (hsame ▸ rfl)
  · rintro ⟨_, inside, rfl, ⟨names, rfl⟩, hinside, huncovered⟩
    rw [uncovered_iff hproper hreadable hinside] at huncovered
    refine meets_of_get? hentry.1 hentry.2 ((hget names).symm.trans hinside) ?_
    intro above hfront hne
    exact huncovered (base ++ above) (List.prefix_append _ _)
      ((List.prefix_append_right_inj base).mpr hfront) fun hsame => hne (List.append_cancel_left hsame)

/-- A search of a readable directory gives the paths of the outermost package folders. -/
theorem exists_paths (hproper : tree.root.isProper = true) (hreadable : Readable tree base)
    (hbase : tree.get? base = some (.directory entries)) :
    ∃ paths, pathsAt tree (pathOf base) (.directory entries) = .ok paths ∧
      ∀ path, path ∈ paths ↔ ∃ location, Outermost tree base location ∧ path = pathOf location := by
  cases hpaths : pathsAt tree (pathOf base) (.directory entries) with
  | error error =>
    -- What the search meets can be listed, since its path is short enough.
    rcases exists_meets_of_pathsAt_eq_error hpaths with ⟨path, hmeets, -, hlist⟩
    rcases (meets_iff hproper hreadable hbase).mp hmeets with
      ⟨location, inside, rfl, hbelow, hinside, huncovered⟩
    have hshort := hreadable.directory location inside hbelow huncovered hinside
    rw [list, resolve, locate_pathOf hproper hinside hshort] at hlist
    cases hlist
  | ok paths =>
    refine ⟨paths, rfl, fun path => ?_⟩
    rw [mem_pathsAt hpaths, meets_iff hproper hreadable hbase]
    constructor
    · rintro ⟨⟨location, inside, rfl, hbelow, hinside, huncovered⟩, hpackage⟩
      have hmanifest := ((isPackage_pathOf hproper hinside).mp hpackage).2
      exact ⟨location, ⟨hbelow, ⟨inside, hinside⟩, hmanifest, huncovered⟩, rfl⟩
    · rintro ⟨location, ⟨hbelow, ⟨inside, hinside⟩, hmanifest, huncovered⟩, rfl⟩
      refine ⟨⟨location, inside, rfl, hbelow, hinside, huncovered⟩, ?_⟩
      exact (isPackage_pathOf hproper hinside).mpr
        ⟨hreadable.manifest location hbelow huncovered hmanifest, hmanifest⟩

/-- No outermost package folder is inside another one. -/
theorem Outermost.eq_of_prefix {inner outer : Location} (hinner : Outermost tree base inner)
    (houter : Outermost tree base outer) (hfront : outer <+: inner) : outer = inner := by
  by_contra hne
  exact hinner.uncovered outer houter.below hfront hne houter.hasManifest

/-- A folder is inside another one if its path is. -/
theorem Outermost.prefix_of_parts {inner outer : Location} (houter : Outermost tree base outer)
    (hproper : tree.root.isProper = true) (hinner : Outermost tree base inner)
    (hparts : (pathOf outer).parts <+: (pathOf inner).parts) : outer <+: inner := by
  rcases houter.directory with ⟨_, houter⟩
  rcases hinner.directory with ⟨_, hinner⟩
  rw [parts_pathOf (Entry.isProper_of_get? hproper houter).2,
    parts_pathOf (Entry.isProper_of_get? hproper hinner).2, List.cons_prefix_cons] at hparts
  exact (List.prefix_map_iff_of_injective fun _ _ hname => PathPart.name.inj hname).mp hparts.2

/-- Nothing is above the base. -/
theorem uncovered_self (tree : FileTree) (base : Location) : Uncovered tree base base :=
  fun _ hbelow hfront hne => absurd (hfront.eq_of_length_le hbelow.length_le) hne

/-- A search starts from the location that its root leads to. -/
theorem find_eq (hproper : tree.root.isProper = true) {root : Path}
    (hroot : tree.resolve root = .ok ⟨base, some (.directory entries)⟩) (hshort : IsShort base)
    (strategy : BuildStrategy) :
    find tree root strategy =
      (pathsAt tree (pathOf base) (.directory entries)).mapError .file >>= fun paths =>
        pure (paths.map (⟨·, strategy⟩)) := by
  have hbase := get?_of_locate hroot
  have hresolve : tree.resolve (pathOf base) = .ok ⟨base, some (.directory entries)⟩ :=
    locate_pathOf hproper hbase hshort
  have hcanonical := canonicalDirectory_eq_ok_iff.mpr ⟨base, entries, hroot, hshort, rfl⟩
  have hentry : tree.entry? (pathOf base) = some (.directory entries) := by
    unfold entry?
    rw [hresolve]
  unfold find
  rw [hcanonical]
  dsimp only [bind, Except.bind]
  rw [hentry]

/-! ## Trees that are not deep -/

/-- Only a directory has a manifest. -/
theorem HasManifest.exists_directory (h : HasManifest tree location) :
    ∃ entries, tree.get? location = some (.directory entries) := by
  rcases h with ⟨place, content, hwalks⟩
  rw [walkLinks, walk] at hwalks
  rcases htree : tree.get? location with _ | _ | _ | ⟨entries⟩
  · rw [htree] at hwalks
    cases hwalks
  · rw [htree] at hwalks
    cases hwalks
  · rw [htree] at hwalks
    cases hwalks
  · exact ⟨entries, rfl⟩

/-- A tree with few levels of directories is readable from everywhere, however long its names are. -/
theorem Readable.of_depth (hproper : tree.root.isProper = true) (hdepth : tree.root.depth ≤ 15)
    (base : Location) : Readable tree base := by
  have hless : ∀ location entries, tree.get? location = some (.directory entries) →
      location.length < 15 ∧ ∀ name ∈ location, IsEntryName name := by
    intro location entries hdirectory
    exact ⟨Nat.lt_of_lt_of_le (Entry.length_lt_depth hdirectory) hdepth,
      (Entry.isProper_of_get? hproper hdirectory).2⟩
  constructor
  · intro location entries _ _ hdirectory
    rcases hless location entries hdirectory with ⟨hlength, hnames⟩
    exact isShort_of_length hnames (Nat.le_of_lt hlength)
  · intro location _ _ hmanifest
    rcases hmanifest.exists_directory with ⟨entries, hdirectory⟩
    rcases hless location entries hdirectory with ⟨hlength, hnames⟩
    refine isShort_of_length (isEntryName_fileName.concat hnames) ?_
    rw [List.length_append]
    exact hlength

/-! ## The result of a search -/

/-- A search finds the outermost package folders below its root, each once, in the order of their
paths, and none inside of another one. -/
theorem find_outermost (hproper : tree.root.isProper = true) {root : Path}
    (hroot : tree.resolve root = .ok ⟨base, some (.directory entries)⟩)
    (hreadable : Readable tree base) (strategy : BuildStrategy) :
    ∃ folders, find tree root strategy = .ok folders ∧
      (∀ folder, folder ∈ folders ↔
        ∃ location, Outermost tree base location ∧ folder = ⟨pathOf location, strategy⟩) ∧
      folders.Pairwise (fun a b => Path.compareParts a.path.parts b.path.parts = .lt) ∧
      folders.Nodup ∧
      (∀ outer ∈ folders, ∀ inner ∈ folders, outer.path.parts <+: inner.path.parts →
        outer = inner) := by
  have hbase := get?_of_locate hroot
  have hshort := hreadable.directory base entries List.prefix_rfl (uncovered_self tree base) hbase
  have hentry := Entry.isProper_of_get? hproper hbase
  rcases exists_paths hproper hreadable hbase with ⟨paths, hpaths, hmem⟩
  have hincreasing := increasing_pathsAt hentry.1 hentry.2 hpaths
  have hfolders : ∀ folder, folder ∈ paths.map (PackageFolder.mk · strategy) ↔
      ∃ location, Outermost tree base location ∧ folder = ⟨pathOf location, strategy⟩ := by
    intro folder
    rw [List.mem_map]
    constructor
    · rintro ⟨path, hpath, rfl⟩
      rcases (hmem path).mp hpath with ⟨location, houtermost, rfl⟩
      exact ⟨location, houtermost, rfl⟩
    · rintro ⟨location, houtermost, rfl⟩
      exact ⟨pathOf location, (hmem _).mpr ⟨location, houtermost, rfl⟩, rfl⟩
  refine ⟨paths.map (⟨·, strategy⟩), ?_, hfolders, ?_, ?_, ?_⟩
  · rw [find_eq hproper hroot hshort, hpaths]
    rfl
  · exact hincreasing.map _ fun a b hlt => hlt
  · refine hincreasing.map _ fun a b hlt hsame => ?_
    have hpath : a = b := congrArg PackageFolder.path hsame
    have hself : Path.compareParts b.parts b.parts = .eq := Std.ReflCmp.compare_self
    rw [hpath, hself] at hlt
    cases hlt
  · intro outer houter inner hinner hfront
    rcases (hfolders outer).mp houter with ⟨location, hlocation, rfl⟩
    rcases (hfolders inner).mp hinner with ⟨other, hother, rfl⟩
    rw [hother.eq_of_prefix hlocation (hlocation.prefix_of_parts hproper hother hfront)]

/-- A root that is reached over a link, with packages in directories whose order is not the one of
their texts, a manifest that is a link, a directory named like a manifest, and a package inside of
another one. -/
def twoPackages : FileTree where
  root := .directory
    [("work", .link "home/ws"),
      ("home", .directory [("ws", .directory
        [("b.d", .directory [("package.xml", .file .empty)]),
          ("b", .directory
            [("odd", .directory [("package.xml", .directory [])]),
              ("c", .directory
                [("package.xml", .link "../../manifest"),
                  ("inner", .directory [("package.xml", .file .empty)])])]),
          ("again", .link "b"),
          ("manifest", .file .empty)])])]

/-- The hypotheses hold there. -/
theorem twoPackages_outermost :
    ∃ entries, twoPackages.root.isProper = true ∧
      twoPackages.resolve ⟨"/work/."⟩ = .ok ⟨["home", "ws"], some (.directory entries)⟩ ∧
      Readable twoPackages ["home", "ws"] ∧
      ∃ folders, find twoPackages ⟨"/work/."⟩ .mandatory = .ok folders ∧
        (∀ folder, folder ∈ folders ↔ ∃ location, Outermost twoPackages ["home", "ws"] location ∧
          folder = ⟨pathOf location, .mandatory⟩) ∧
        folders.Pairwise (fun a b => Path.compareParts a.path.parts b.path.parts = .lt) ∧
        folders.Nodup ∧
        (∀ outer ∈ folders, ∀ inner ∈ folders, outer.path.parts <+: inner.path.parts →
          outer = inner) := by
  have hproper : twoPackages.root.isProper = true := by decide
  have hreadable := Readable.of_depth hproper (by decide) ["home", "ws"]
  exact ⟨_, hproper, rfl, hreadable, find_outermost hproper rfl hreadable .mandatory⟩

end RosInterface.PackageFolder
