import RosInterface.Package.Discovery
import RosInterface.Proofs.FileTree.Locations

namespace RosInterface.PackageFolder

/-! # Searches for packages

A search goes down from its root and stops at directories with a manifest. `Meets` says which
directories it gets to:

* `mem_pathsAt` says that its results are those of them with a manifest, and `pathsAt_fails_iff` that
  it fails where one without a manifest cannot be listed;
* `Meets.exists_location` and `meets_of_get?` say where they are in a proper tree, in which a search
  takes no way over links;
* `increasing_pathsAt` says that the results come in the order of their paths, although each
  directory only puts its own entries in order.
-/

open FileTree

/-! ## What a search meets -/

/-- The search at a path, with the entry there, gets to a directory. It goes on below directories
without a manifest. -/
inductive Meets (tree : FileTree) : Path → Entry → Path → Prop
  | here (path : Path) (entries : List (String × Entry)) :
      Meets tree path (.directory entries) path
  | inside {path found : Path} {entries : List (String × Entry)} {name : String} {entry : Entry}
      (hopen : isPackage tree path = false) (hmember : (name, entry) ∈ entries)
      (hmeets : Meets tree (path.join name) entry found) :
      Meets tree path (.directory entries) found

variable {tree : FileTree} {path found : Path} {entry : Entry} {paths : List Path}

theorem groupsIn_eq (tree : FileTree) (path : Path) (entries : List (String × Entry)) :
    groupsIn tree path entries = entries.mapM fun member =>
      (path.join member.1, ·) <$> pathsAt tree (path.join member.1) member.2 := by
  induction entries with
  | nil => rfl
  | cons first others ih =>
    rw [groupsIn, ih, List.mapM_cons, map_eq_pure_bind, bind_assoc]
    rfl

theorem pathsAt_directory (tree : FileTree) (path : Path) (entries : List (String × Entry)) :
    pathsAt tree path (.directory entries) =
      if isPackage tree path then .ok [path]
      else tree.list path >>= fun _ => inPathOrder <$> groupsIn tree path entries := by
  rw [pathsAt]

/-- Where a search goes on below a directory, it does so below each of its entries. -/
theorem exists_groups_of_pathsAt {entries : List (String × Entry)}
    (hopen : isPackage tree path = false)
    (hok : pathsAt tree path (.directory entries) = .ok paths) :
    ∃ below : String × Entry → List Path,
      (∀ member ∈ entries,
        pathsAt tree (path.join member.1) member.2 = .ok (below member)) ∧
      paths = inPathOrder (entries.map fun member => (path.join member.1, below member)) := by
  rw [pathsAt_directory, hopen, if_neg Bool.false_ne_true, map_eq_pure_bind] at hok
  rcases bind_eq_ok_iff.mp hok with ⟨-, -, hgroups⟩
  rcases bind_eq_ok_iff.mp hgroups with ⟨groups, hgroups, hpaths⟩
  rw [groupsIn_eq] at hgroups
  rcases exists_of_mapM_eq_ok hgroups with ⟨group, hmembers, rfl⟩
  have hgroup : ∀ member ∈ entries, pathsAt tree (path.join member.1) member.2 =
      .ok (group member).2 ∧ group member = (path.join member.1, (group member).2) := by
    intro member hmember
    have hmap := hmembers member hmember
    rw [map_eq_pure_bind] at hmap
    rcases bind_eq_ok_iff.mp hmap with ⟨below, hbelow, hpair⟩
    rw [← Except.ok.inj hpair]
    exact ⟨hbelow, rfl⟩
  refine ⟨fun member => (group member).2, fun member hmember => (hgroup member hmember).1, ?_⟩
  cases hpaths
  refine congrArg inPathOrder (List.map_congr_left fun member hmember => ?_)
  exact (hgroup member hmember).2

theorem mem_inPathOrder {groups : List (Path × List Path)} :
    found ∈ inPathOrder groups ↔ ∃ group ∈ groups, found ∈ group.2 := by
  rw [inPathOrder, List.mem_flatMap]
  exact exists_congr fun group => and_congr_left fun _ => List.mem_mergeSort

/-- The results of a search are the directories with a manifest that it meets. -/
theorem mem_pathsAt (hok : pathsAt tree path entry = .ok paths) :
    found ∈ paths ↔ Meets tree path entry found ∧ isPackage tree found = true := by
  induction entry generalizing path paths with
  | file | link =>
    cases hok
    exact ⟨nofun, fun ⟨hmeets, _⟩ => nomatch hmeets⟩
  | directory entries ih =>
    cases hpackage : isPackage tree path with
    | true =>
      rw [pathsAt_directory, hpackage, if_pos rfl] at hok
      cases hok
      rw [List.mem_singleton]
      constructor
      · rintro rfl
        exact ⟨.here found entries, hpackage⟩
      · rintro ⟨hmeets, -⟩
        cases hmeets with
        | here => rfl
        | inside hopen => rw [hopen] at hpackage; cases hpackage
    | false =>
      rcases exists_groups_of_pathsAt hpackage hok with ⟨below, hbelow, rfl⟩
      rw [mem_inPathOrder]
      constructor
      · rintro ⟨group, hgroup, hfound⟩
        rcases List.mem_map.mp hgroup with ⟨⟨name, child⟩, hmember, rfl⟩
        have hboth := (ih name child hmember (hbelow _ hmember)).mp hfound
        exact ⟨.inside hpackage hmember hboth.1, hboth.2⟩
      · rintro ⟨hmeets, hfound⟩
        cases hmeets with
        | here =>
          rw [hfound] at hpackage
          cases hpackage
        | @inside _ _ _ name child hopen hmember hmeets =>
          refine ⟨_, List.mem_map_of_mem hmember, ?_⟩
          exact (ih name child hmember (hbelow _ hmember)).mpr ⟨hmeets, hfound⟩

/-- A search fails where it meets a directory that has to be listed and cannot be. -/
theorem exists_meets_of_pathsAt_eq_error {error : FileError}
    (hfails : pathsAt tree path entry = .error error) :
    ∃ found, Meets tree path entry found ∧ isPackage tree found = false ∧
      tree.list found = .error error := by
  induction entry generalizing path with
  | file | link => cases hfails
  | directory entries ih =>
    rw [pathsAt_directory] at hfails
    cases hpackage : isPackage tree path with
    | true =>
      rw [hpackage, if_pos rfl] at hfails
      cases hfails
    | false =>
      rw [hpackage, if_neg Bool.false_ne_true, map_eq_pure_bind] at hfails
      rcases bind_eq_error_iff.mp hfails with hlist | ⟨-, -, hgroups⟩
      · exact ⟨path, .here path entries, hpackage, hlist⟩
      · rcases bind_eq_error_iff.mp hgroups with hgroups | ⟨groups, -, hpure⟩
        · rw [groupsIn_eq] at hgroups
          rcases exists_of_mapM_eq_error hgroups with ⟨⟨name, child⟩, hmember, hchild⟩
          rw [map_eq_pure_bind] at hchild
          rcases bind_eq_error_iff.mp hchild with hchild | ⟨found, -, hpure⟩
          · rcases ih name child hmember hchild with ⟨found, hmeets, hopen, hlist⟩
            exact ⟨found, .inside hpackage hmember hmeets, hopen, hlist⟩
          · cases hpure
        · cases hpure

/-- A search that succeeds could list all that it had to. -/
theorem Meets.list_of_pathsAt (hmeets : Meets tree path entry found)
    (hok : pathsAt tree path entry = .ok paths) (hopen : isPackage tree found = false) :
    ∃ listed, tree.list found = .ok listed := by
  induction hmeets generalizing paths with
  | here path entries =>
    rw [pathsAt_directory, hopen, if_neg Bool.false_ne_true] at hok
    rcases bind_eq_ok_iff.mp hok with ⟨listed, hlist, -⟩
    exact ⟨listed, hlist⟩
  | inside hpackage hmember _ ih =>
    rcases exists_groups_of_pathsAt hpackage hok with ⟨below, hbelow, -⟩
    have hinside := hbelow _ hmember
    exact ih hinside hopen

/-- A search fails exactly if it meets a directory that has to be listed and cannot be. -/
theorem pathsAt_fails_iff :
    (∃ error, pathsAt tree path entry = .error error) ↔
      ∃ found error, Meets tree path entry found ∧ isPackage tree found = false ∧
        tree.list found = .error error := by
  constructor
  · rintro ⟨error, hfails⟩
    rcases exists_meets_of_pathsAt_eq_error hfails with ⟨found, h⟩
    exact ⟨found, error, h⟩
  · rintro ⟨found, error, hmeets, hopen, hlist⟩
    cases hok : pathsAt tree path entry with
    | error first => exact ⟨first, rfl⟩
    | ok paths =>
      rcases hmeets.list_of_pathsAt hok hopen with ⟨listed, hlisted⟩
      rw [hlist] at hlisted
      cases hlisted

/-! ## Where a search starts -/

/-- A search starts from the location that its root leads to, if that is a directory with a path that
can be followed. -/
theorem canonicalDirectory_eq_ok_iff {root : Path} :
    canonicalDirectory tree root = .ok path ↔
      ∃ location entries, tree.resolve root = .ok ⟨location, some (.directory entries)⟩ ∧
        IsShort location ∧ path = pathOf location := by
  unfold canonicalDirectory
  cases hdirectory : tree.isDirectory root with
  | false =>
    rw [if_neg Bool.false_ne_true]
    refine ⟨nofun, fun ⟨location, entries, hroot, _⟩ => ?_⟩
    rw [isDirectory_eq_true_iff.mpr ⟨location, entries, hroot⟩] at hdirectory
    cases hdirectory
  | true =>
    rcases isDirectory_eq_true_iff.mp hdirectory with ⟨location, entries, hroot⟩
    rw [if_pos rfl, mapError_eq_ok_iff, canonical, hroot]
    change (if IsShort location then Except.ok (pathOf location) else .error FileError.nameTooLong) =
      _ ↔ _
    by_cases hshort : IsShort location
    · rw [if_pos hshort]
      constructor
      · intro h
        cases h
        exact ⟨location, entries, rfl, hshort, rfl⟩
      · rintro ⟨_, _, hsame, -, rfl⟩
        cases hsame
        rfl
    · rw [if_neg hshort]
      refine ⟨nofun, fun ⟨_, _, hsame, hother, _⟩ => ?_⟩
      cases hsame
      exact absurd hother hshort

/-! ## Where a search gets to -/

variable {base location : Location}

/-- In a proper tree, what a search meets is below the location that it starts from, and nothing on
the way there is a package. -/
theorem Meets.exists_location (hmeets : Meets tree (pathOf base) entry found)
    (hproper : entry.isProper = true) (hbase : ∀ name ∈ base, IsEntryName name) :
    ∃ names inside, found = pathOf (base ++ names) ∧ entry.get? names = some (.directory inside) ∧
      ∀ above, above <+: names → above ≠ names → isPackage tree (pathOf (base ++ above)) = false := by
  generalize hpath : pathOf base = path at hmeets
  induction hmeets generalizing base with
  | here path entries =>
    refine ⟨[], entries, by rw [List.append_nil, hpath], rfl, fun above habove hne => ?_⟩
    exact absurd (List.prefix_nil.mp habove) hne
  | @inside path found entries name child hopen hmember hmeets ih =>
    subst hpath
    rw [Entry.isProper_directory] at hproper
    rcases hproper.2 name child hmember with ⟨hname, hchild⟩
    rw [join_pathOf hname hbase] at hmeets ih
    rcases ih hchild (hname.concat hbase) rfl with ⟨names, inside, rfl, hfound, hopen'⟩
    refine ⟨name :: names, inside, by rw [← List.append_cons], ?_, ?_⟩
    · rw [Entry.get?, Entry.entries, (Entry.lookup_eq_some_iff hproper.1).mpr hmember]
      exact hfound
    · intro above habove hne
      cases above with
      | nil => rwa [List.append_nil]
      | cons first above =>
        rw [List.cons_prefix_cons] at habove
        rcases habove with ⟨rfl, habove⟩
        rw [List.append_cons]
        exact hopen' above habove fun hsame => hne (congrArg _ hsame)

/-- A directory below the location that a search starts from is met if nothing on the way there is a
package. -/
theorem meets_of_get? {names : Location} {inside : List (String × Entry)}
    (hproper : entry.isProper = true) (hbase : ∀ name ∈ base, IsEntryName name)
    (hfound : entry.get? names = some (.directory inside))
    (hopen : ∀ above, above <+: names → above ≠ names →
      isPackage tree (pathOf (base ++ above)) = false) :
    Meets tree (pathOf base) entry (pathOf (base ++ names)) := by
  induction names generalizing base entry with
  | nil =>
    cases hfound
    rw [List.append_nil]
    exact .here _ inside
  | cons name names ih =>
    rcases Option.bind_eq_some_iff.mp hfound with ⟨child, hlookup, hbelow⟩
    rw [Entry.eq_directory_of_lookup hlookup] at hproper ⊢
    rw [Entry.isProper_directory] at hproper
    have hmember := (Entry.lookup_eq_some_iff hproper.1).mp hlookup
    rcases hproper.2 name child hmember with ⟨hname, hchild⟩
    refine .inside ?_ hmember ?_
    · have hhere := hopen [] List.nil_prefix (List.cons_ne_nil _ _).symm
      rwa [List.append_nil] at hhere
    · rw [join_pathOf hname hbase, List.append_cons base name names]
      refine ih hchild (hname.concat hbase) hbelow fun above habove hne => ?_
      rw [← List.append_cons]
      refine hopen (name :: above) (List.cons_prefix_cons.mpr ⟨rfl, habove⟩) fun hsame => ?_
      exact hne (List.cons.inj hsame).2

/-- The results of a search have the parts of the path that it starts from in front. -/
theorem exists_parts_of_mem_pathsAt (hproper : entry.isProper = true)
    (hbase : ∀ name ∈ base, IsEntryName name) (hok : pathsAt tree (pathOf base) entry = .ok paths)
    (hfound : found ∈ paths) :
    ∃ names : Location, found.parts = (pathOf base).parts ++ names.map .name := by
  rcases ((mem_pathsAt hok).mp hfound).1.exists_location hproper hbase with
    ⟨names, inside, rfl, hget, -⟩
  have hnames := (Entry.isProper_of_get? hproper hget).2
  have hall : ∀ name ∈ base ++ names, IsEntryName name := fun name hname =>
    (List.mem_append.mp hname).elim (hbase name) (hnames name)
  refine ⟨names, ?_⟩
  rw [parts_pathOf hall, parts_pathOf hbase, List.map_append, List.cons_append]

/-- The entries of a directory come in the order of their names, each with what is below it. -/
theorem increasing_inPathOrder {front : List PathPart} {entries : List (String × Entry)}
    {key : String × Entry → Path} {below : String × Entry → List Path}
    (hnodup : (entries.map (·.1)).Nodup)
    (hkey : ∀ member ∈ entries, (key member).parts = front ++ [.name member.1])
    (hbelow : ∀ member ∈ entries, ∀ found ∈ below member, ∃ names : Location,
      found.parts = (key member).parts ++ names.map .name)
    (hincreasing : ∀ member ∈ entries,
      (below member).Pairwise fun a b => Path.compareParts a.parts b.parts = .lt) :
    (inPathOrder (entries.map fun member => (key member, below member))).Pairwise
      fun a b => Path.compareParts a.parts b.parts = .lt := by
  have hkeys : ((entries.map fun member => (key member, below member)).map
      fun group => group.1.parts).Nodup := by
    have hnames : ((entries.map (·.1)).map fun name => front ++ [.name name]).Nodup := by
      refine List.Pairwise.map _ (fun name other hne hsame => hne ?_) hnodup
      exact PathPart.name.inj (List.append_singleton_inj.mp hsame).2
    rw [List.map_map] at hnames ⊢
    rwa [List.map_congr_left (f := _ ∘ fun member => (key member, below member)) hkey]
  have hsorted : ((entries.map fun member => (key member, below member)).mergeSort groupLe).Pairwise
      fun a b => Path.compareParts a.1.parts b.1.parts = .lt :=
    increasing_mergeSort hkeys
  rw [inPathOrder, List.pairwise_flatMap]
  constructor
  · intro group hgroup
    rcases List.mem_map.mp (List.mem_mergeSort.mp hgroup) with ⟨member, hmember, rfl⟩
    exact hincreasing member hmember
  · refine hsorted.imp_of_mem fun {a b} ha hb hlt x hx y hy => ?_
    rcases List.mem_map.mp (List.mem_mergeSort.mp ha) with ⟨first, hfirst, rfl⟩
    rcases List.mem_map.mp (List.mem_mergeSort.mp hb) with ⟨second, hsecond, rfl⟩
    rcases hbelow first hfirst x hx with ⟨names, hx⟩
    rcases hbelow second hsecond y hy with ⟨others, hy⟩
    rw [hkey first hfirst, hkey second hsecond] at hlt
    rw [hx, hy, hkey first hfirst, hkey second hsecond, List.append_assoc, List.append_assoc]
    exact Path.compareParts_lt_of_concat hlt _ _

/-- The results of a search below a location go up strictly. -/
theorem increasing_pathsAt (hproper : entry.isProper = true)
    (hbase : ∀ name ∈ base, IsEntryName name) (hok : pathsAt tree (pathOf base) entry = .ok paths) :
    paths.Pairwise fun a b => Path.compareParts a.parts b.parts = .lt := by
  induction entry generalizing base paths with
  | file | link =>
    cases hok
    exact .nil
  | directory entries ih =>
    cases hpackage : isPackage tree (pathOf base) with
    | true =>
      rw [pathsAt_directory, hpackage, if_pos rfl] at hok
      cases hok
      exact List.pairwise_singleton _ _
    | false =>
      rcases exists_groups_of_pathsAt hpackage hok with ⟨below, hbelow, rfl⟩
      rw [Entry.isProper_directory] at hproper
      have hjoin : ∀ member ∈ entries,
          (pathOf base).join member.1 = pathOf (base ++ [member.1]) := fun member hmember =>
        join_pathOf (hproper.2 member.1 member.2 hmember).1 hbase
      refine @increasing_inPathOrder (pathOf base).parts _ _ _ hproper.1 ?_ ?_ ?_
      · intro member hmember
        have hname := (hproper.2 member.1 member.2 hmember).1
        rw [hjoin member hmember, parts_pathOf hbase, parts_pathOf (hname.concat hbase),
          List.map_append]
        rfl
      · intro member hmember found hfound
        rcases hproper.2 member.1 member.2 hmember with ⟨hname, hchild⟩
        have hok := hbelow member hmember
        rw [hjoin member hmember] at hok ⊢
        exact exists_parts_of_mem_pathsAt hchild (hname.concat hbase) hok hfound
      · intro member hmember
        rcases hproper.2 member.1 member.2 hmember with ⟨hname, hchild⟩
        have hok := hbelow member hmember
        rw [hjoin member hmember] at hok
        exact ih member.1 member.2 hmember hchild (hname.concat hbase) hok

end RosInterface.PackageFolder
