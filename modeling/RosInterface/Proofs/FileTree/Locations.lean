import RosInterface.Proofs.FileTree.Walks

namespace RosInterface

/-! # Paths of locations

A tree is proper if its names can be names: they hold no slash, are no dots, are short enough, and no
directory has one of them twice. In such a tree the path of a location leads to this location, over
no link: `FileTree.walk_pathOf` says so for whatever follows behind it.
-/

/-! ## Entries -/

/-- An induction over what is below an entry. -/
@[induction_eliminator]
theorem Entry.induction {motive : Entry → Prop} (file : ∀ content, motive (.file content))
    (link : ∀ target, motive (.link target))
    (directory : ∀ entries, (∀ name entry, (name, entry) ∈ entries → motive entry) →
      motive (.directory entries)) (entry : Entry) : motive entry :=
  Entry.rec (motive_1 := motive) (motive_2 := fun entries => ∀ member ∈ entries, motive member.2)
    (motive_3 := fun member => motive member.2) file link
    (fun entries hentries => directory entries fun _ _ hmember => hentries _ hmember)
    (fun _ hmember => nomatch hmember)
    (fun _ _ hfirst hothers => List.forall_mem_cons.mpr ⟨hfirst, hothers⟩)
    (fun _ _ hentry => hentry) entry

/-- An entry may have the name. -/
structure IsEntryName (name : String) : Prop where
  isPlain : Path.IsPlain name
  nul : '\x00' ∉ name.toList
  short : name.utf8ByteSize ≤ FileTree.nameLimit

instance (name : String) : Decidable (IsEntryName name) :=
  decidable_of_iff
    (('/' ∉ name.toList ∧ name ∉ ["", ".", ".."]) ∧ '\x00' ∉ name.toList ∧
      name.utf8ByteSize ≤ FileTree.nameLimit)
    ⟨fun ⟨hplain, hnul, hshort⟩ => ⟨hplain, hnul, hshort⟩,
      fun ⟨hplain, hnul, hshort⟩ => ⟨hplain, hnul, hshort⟩⟩

namespace Entry

mutual

/-- Whether the names of all directories below an entry are entry names, and distinct. -/
def isProper : Entry → Bool
  | directory entries => decide (entries.map (·.1)).Nodup && areProper entries
  | _ => true

/-- Whether some named entries are proper. -/
def areProper : List (String × Entry) → Bool
  | [] => true
  | (name, entry) :: others => decide (IsEntryName name) && isProper entry && areProper others

end

theorem areProper_iff {entries : List (String × Entry)} :
    areProper entries = true ↔
      ∀ name entry, (name, entry) ∈ entries → IsEntryName name ∧ entry.isProper = true := by
  induction entries with
  | nil => simp [areProper]
  | cons first others ih =>
    rcases first with ⟨name, entry⟩
    simp only [areProper, Bool.and_eq_true, decide_eq_true_eq, ih, List.mem_cons, Prod.mk.injEq]
    constructor
    · rintro ⟨hfirst, hothers⟩ other child (⟨rfl, rfl⟩ | hmember)
      · exact hfirst
      · exact hothers other child hmember
    · intro h
      exact ⟨h name entry (.inl ⟨rfl, rfl⟩), fun other child hmember => h other child (.inr hmember)⟩

theorem isProper_directory {entries : List (String × Entry)} :
    (directory entries).isProper = true ↔ (entries.map (·.1)).Nodup ∧
      ∀ name entry, (name, entry) ∈ entries → IsEntryName name ∧ entry.isProper = true := by
  rw [isProper, Bool.and_eq_true, decide_eq_true_eq, areProper_iff]

/-- The entries of a directory with distinct names are found by their names. -/
theorem lookup_eq_some_iff {entries : List (String × Entry)} (hnodup : (entries.map (·.1)).Nodup)
    {name : String} {entry : Entry} :
    entries.lookup name = some entry ↔ (name, entry) ∈ entries := by
  induction entries with
  | nil => simp
  | cons first others ih =>
    rcases first with ⟨other, child⟩
    rw [List.map_cons, List.nodup_cons] at hnodup
    rw [lookup_cons_eq, List.mem_cons, Prod.mk.injEq]
    by_cases hname : name = other
    · subst hname
      have hnone : (name, entry) ∉ others := fun hmember =>
        hnodup.1 (List.mem_map.mpr ⟨_, hmember, rfl⟩)
      simp [hnone, eq_comm]
    · simp [hname, ih hnodup.2]

/-- What is below a proper entry is proper, and has a name of an entry at each step. -/
theorem isProper_of_get? {entry found : Entry} {location : Location}
    (hproper : entry.isProper = true) (hfound : entry.get? location = some found) :
    found.isProper = true ∧ ∀ name ∈ location, IsEntryName name := by
  induction location generalizing entry with
  | nil =>
    cases hfound
    exact ⟨hproper, nofun⟩
  | cons name rest ih =>
    rcases Option.bind_eq_some_iff.mp hfound with ⟨child, hlookup, hbelow⟩
    rw [eq_directory_of_lookup hlookup, isProper_directory] at hproper
    have hchild := hproper.2 name child ((lookup_eq_some_iff hproper.1).mp hlookup)
    rcases ih hchild.2 hbelow with ⟨hfound, hrest⟩
    exact ⟨hfound, List.forall_mem_cons.mpr ⟨hchild.1, hrest⟩⟩

mutual

/-- The number of levels of directories. -/
def depth : Entry → Nat
  | directory entries => depthOfAll entries + 1
  | _ => 0

/-- The largest number of levels below some named entries. -/
def depthOfAll : List (String × Entry) → Nat
  | [] => 0
  | (_, entry) :: others => max entry.depth (depthOfAll others)

end

theorem depth_le_depthOfAll {entries : List (String × Entry)} {name : String} {entry : Entry}
    (hlookup : entries.lookup name = some entry) : entry.depth ≤ depthOfAll entries := by
  induction entries with
  | nil => cases hlookup
  | cons first others ih =>
    rcases first with ⟨other, child⟩
    rw [lookup_cons_eq] at hlookup
    rw [depthOfAll]
    split at hlookup
    · cases hlookup
      exact Nat.le_max_left _ _
    · exact Nat.le_trans (ih hlookup) (Nat.le_max_right _ _)

theorem length_lt_depth {entry : Entry} {location : Location} {entries : List (String × Entry)}
    (hfound : entry.get? location = some (directory entries)) : location.length < entry.depth := by
  induction location generalizing entry with
  | nil =>
    cases hfound
    rw [depth]
    exact Nat.succ_pos _
  | cons name rest ih =>
    rcases Option.bind_eq_some_iff.mp hfound with ⟨child, hlookup, hbelow⟩
    rw [eq_directory_of_lookup hlookup, depth, List.length_cons]
    exact Nat.succ_lt_succ (Nat.lt_of_lt_of_le (ih hbelow) (depth_le_depthOfAll hlookup))

end Entry

namespace IsEntryName

theorem isName {name : String} (h : IsEntryName name) : FileTree.IsName name :=
  FileTree.isName_of_isPlain h.isPlain

theorem toList_ne_nil {name : String} (h : IsEntryName name) : name.toList ≠ [] :=
  h.isPlain.toList_ne (by decide)

theorem concat {name : String} (h : IsEntryName name) {location : Location}
    (hnames : ∀ other ∈ location, IsEntryName other) :
    ∀ other ∈ location ++ [name], IsEntryName other := by
  intro other hother
  rcases List.mem_append.mp hother with hother | hother
  · exact hnames other hother
  · exact List.mem_singleton.mp hother ▸ h

end IsEntryName

namespace FileTree

/-! ## The text of a location -/

variable {location : Location}

theorem pieces_pathOf (hnames : ∀ name ∈ location, IsEntryName name) (hsome : location ≠ []) :
    Text.pieces (· == '/') (pathOf location).text.toList = [] :: location.map String.toList := by
  have htext : (pathOf location).text.toList =
      '/' :: ['/'].intercalate (location.map String.toList) := by
    rw [pathOf, String.toList_append, String.toList_intercalate]
    rfl
  rw [htext, Text.pieces, if_pos (by rfl), Text.pieces_eq_splitOnP]
  refine congrArg ([] :: ·) (List.splitOn_intercalate '/' (fun piece hpiece => ?_) ?_)
  · rcases List.mem_map.mp hpiece with ⟨name, hname, rfl⟩
    exact (hnames name hname).isPlain.1
  · exact fun hnil => hsome (List.map_eq_nil_iff.mp hnil)

theorem isAbsolute_pathOf (location : Location) : (pathOf location).isAbsolute = true := by
  rw [Path.isAbsolute, pathOf, String.toList_append]
  rfl

/-- The parts of a path of a location are its names. -/
theorem parts_pathOf (hnames : ∀ name ∈ location, IsEntryName name) :
    (pathOf location).parts = .root :: location.map .name := by
  rw [Path.parts, if_pos (isAbsolute_pathOf location)]
  refine congrArg (PathPart.root :: ·) ?_
  by_cases hsome : location = []
  · subst hsome
    rfl
  · rw [pieces_pathOf hnames hsome, List.filterMap_cons_none (by rfl), List.filterMap_map]
    rw [← List.filterMap_eq_map]
    refine List.filterMap_congr fun name hname => ?_
    exact (hnames name hname).isPlain.ofPiece_eq

theorem segments_pathOf (hnames : ∀ name ∈ location, IsEntryName name) (hsome : location ≠ []) :
    segments (pathOf location).text = .slash :: location.map .enter := by
  rw [segments, pieces_pathOf hnames hsome, List.map_cons, List.map_map]
  refine congrArg₂ List.cons rfl (List.map_congr_left fun name hname => ?_)
  exact (hnames name hname).isName.entered

theorem text_pathOf_ne (location : Location) : (pathOf location).text ≠ "" := by
  intro hnone
  have habsolute := isAbsolute_pathOf location
  rw [Path.isAbsolute, hnone] at habsolute
  cases habsolute

theorem text_eq_of_pieces {a b : String}
    (hpieces : Text.pieces (· == '/') a.toList = Text.pieces (· == '/') b.toList) : a = b := by
  rw [Text.pieces_eq_splitOnP, Text.pieces_eq_splitOnP] at hpieces
  have hjoined := congrArg (List.intercalate ['/']) hpieces
  rw [← String.toList_inj]
  exact (List.intercalate_splitOn '/').symm.trans (hjoined.trans (List.intercalate_splitOn '/'))

theorem text_pathOf_concat {name : String} (hname : IsEntryName name)
    (hnames : ∀ other ∈ location, IsEntryName other) (hsome : location ≠ []) :
    (pathOf (location ++ [name])).text = (pathOf location).text ++ "/" ++ name := by
  have htext : ((pathOf location).text ++ "/" ++ name).toList =
      (pathOf location).text.toList ++ '/' :: name.toList := by
    simp
  refine text_eq_of_pieces ?_
  rw [htext, Text.pieces_append_cons _ _ (by rfl), pieces_pathOf hnames hsome,
    Text.pieces_eq_singleton hname.isPlain.1,
    pieces_pathOf (hname.concat hnames) (List.concat_ne_nil _ _), List.map_append]
  rfl

/-- A name is joined to the path of a location. -/
theorem join_pathOf {name : String} (hname : IsEntryName name)
    (hnames : ∀ other ∈ location, IsEntryName other) :
    (pathOf location).join name = pathOf (location ++ [name]) := by
  have hrelative := Path.isAbsolute_of_slashless hname.isPlain.1
  rcases List.eq_nil_or_concat location with rfl | ⟨front, last, rfl⟩
  · rw [Path.join, hrelative, if_neg Bool.false_ne_true, if_pos (by rfl)]
    simp [pathOf]
  · -- The path of a location ends with a name, so it is not closed by a slash.
    rw [List.concat_eq_append] at hnames ⊢
    have hlast : (pathOf (front ++ [last])).text.toList.getLast? ≠ some '/' := by
      have hpieces := pieces_pathOf hnames (List.concat_ne_nil _ _)
      intro hslash
      have hclosed := (List.dropLast_append_getLast? _ hslash).symm
      rw [hclosed, Text.pieces_append_cons _ _ (by rfl), List.map_append, ← List.cons_append]
        at hpieces
      have hnil : [] = last.toList := (List.append_singleton_inj.mp hpieces).2
      exact (hnames last (by simp)).toList_ne_nil hnil.symm
    have hopen : (decide ((pathOf (front ++ [last])).text = "") ||
        decide ((pathOf (front ++ [last])).text.toList.getLast? = some '/')) = false := by
      rw [decide_eq_false (text_pathOf_ne _), decide_eq_false hlast]
      rfl
    rw [Path.join, hrelative, if_neg Bool.false_ne_true, hopen, if_neg Bool.false_ne_true,
      ← text_pathOf_concat hname hnames (List.concat_ne_nil _ _)]

theorem utf8ByteSize_pathOf_concat {name : String} (hname : IsEntryName name)
    (hnames : ∀ other ∈ location, IsEntryName other) :
    (pathOf (location ++ [name])).text.utf8ByteSize =
      (pathOf location).text.utf8ByteSize + (if location = [] then 0 else 1) +
        name.utf8ByteSize := by
  by_cases hsome : location = []
  · subst hsome
    rw [if_pos rfl, List.nil_append, pathOf, pathOf, String.intercalate_singleton,
      String.intercalate_nil, String.utf8ByteSize_append]
    rfl
  · rw [if_neg hsome, text_pathOf_concat hname hnames hsome, String.utf8ByteSize_append,
      String.utf8ByteSize_append]
    rfl

/-- Each name takes as many bytes as a name may have, at most, and a slash. -/
theorem utf8ByteSize_pathOf_le (hnames : ∀ name ∈ location, IsEntryName name) :
    (pathOf location).text.utf8ByteSize ≤ 1 + (nameLimit + 1) * location.length := by
  induction location using List.reverseRecOn with
  | nil => decide
  | append_singleton front last ih =>
    have hfront : ∀ name ∈ front, IsEntryName name := fun name hname =>
      hnames name (List.mem_append_left _ hname)
    have hlast := hnames last (by simp)
    have hsize := utf8ByteSize_pathOf_concat hlast hfront
    have hshort := hlast.short
    have hih := ih hfront
    rw [List.length_append, List.length_singleton, Nat.mul_add, Nat.mul_one]
    split at hsize
    · omega
    · omega

/-! ## Kinds of entries -/

theorem isFile_eq_true_iff {tree : FileTree} {path : Path} :
    tree.isFile path = true ↔
      ∃ place content, tree.resolve path = .ok ⟨place, some (.file content)⟩ := by
  unfold isFile entry?
  rcases tree.resolve path with error | ⟨place, found⟩
  · exact ⟨nofun, nofun⟩
  · rcases found with - | ⟨content⟩ | - | -
    · exact ⟨nofun, nofun⟩
    · exact ⟨fun _ => ⟨place, content, rfl⟩, fun _ => rfl⟩
    · exact ⟨nofun, nofun⟩
    · exact ⟨nofun, nofun⟩

theorem isDirectory_eq_true_iff {tree : FileTree} {path : Path} :
    tree.isDirectory path = true ↔
      ∃ place entries, tree.resolve path = .ok ⟨place, some (.directory entries)⟩ := by
  unfold isDirectory entry?
  rcases tree.resolve path with error | ⟨place, found⟩
  · exact ⟨nofun, nofun⟩
  · rcases found with - | - | - | ⟨entries⟩
    · exact ⟨nofun, nofun⟩
    · exact ⟨nofun, nofun⟩
    · exact ⟨nofun, nofun⟩
    · exact ⟨fun _ => ⟨place, entries, rfl⟩, fun _ => rfl⟩

/-! ## Following the path of a location -/

/-- The path of the location is no longer than a path may be. -/
def IsShort (location : Location) : Prop :=
  (pathOf location).text.utf8ByteSize < pathLimit

instance (location : Location) : Decidable (IsShort location) :=
  inferInstanceAs (Decidable (_ < _))

/-- A path of few names is short, however long its names are. -/
theorem isShort_of_length (hnames : ∀ name ∈ location, IsEntryName name)
    (hlength : location.length ≤ 15) : IsShort location := by
  have hsize := utf8ByteSize_pathOf_le hnames
  have hall : (nameLimit + 1) * location.length ≤ (nameLimit + 1) * 15 :=
    Nat.mul_le_mul_left _ hlength
  unfold IsShort
  simp only [nameLimit, pathLimit] at *
  omega

theorem nul_not_mem_pathOf (hnames : ∀ name ∈ location, IsEntryName name) :
    '\x00' ∉ (pathOf location).text.toList := by
  intro hmem
  by_cases hsome : location = []
  · subst hsome
    revert hmem
    decide
  · have hflat := Text.flatten_pieces (· == '/') (pathOf location).text.toList
    rw [pieces_pathOf hnames hsome, List.flatten_cons, List.nil_append] at hflat
    have hpiece : '\x00' ∈ (location.map String.toList).flatten := by
      rw [hflat]
      exact List.mem_filter.mpr ⟨hmem, by decide⟩
    rcases List.mem_flatten.mp hpiece with ⟨piece, hpiece, hmem⟩
    rcases List.mem_map.mp hpiece with ⟨name, hname, rfl⟩
    exact (hnames name hname).nul hmem

theorem checkText_pathOf_eq_ok_iff (hnames : ∀ name ∈ location, IsEntryName name) :
    checkText (pathOf location).text = .ok () ↔ IsShort location := by
  have hnul : (pathOf location).text.toList.contains '\x00' = false := by
    simpa using nul_not_mem_pathOf hnames
  unfold checkText IsShort
  rw [hnul, if_neg Bool.false_ne_true, if_neg (text_pathOf_ne location)]
  by_cases hlong : pathLimit ≤ (pathOf location).text.utf8ByteSize
  · rw [if_pos hlong]
    exact ⟨nofun, fun hshort => absurd hlong (Nat.not_le.mpr hshort)⟩
  · rw [if_neg hlong]
    exact ⟨fun _ => Nat.not_le.mp hlong, fun _ => rfl⟩

/-- Links are followed from where the walk gets to. -/
theorem walkLinks_congr {tree : FileTree} {aim : Aim} {start other : Location}
    {steps others : List Segment} (hwalk : walk tree aim start steps = walk tree aim other others)
    (limit : Nat) :
    walkLinks tree aim limit start steps = walkLinks tree aim limit other others := by
  unfold walkLinks
  rw [hwalk]

variable {tree : FileTree} {entries : List (String × Entry)} {aim : Aim}

/-- Only short paths can be listed. -/
theorem isShort_of_list (hnames : ∀ name ∈ location, IsEntryName name)
    (hlist : tree.list (pathOf location) = .ok entries) : IsShort location := by
  rcases bind_eq_ok_iff.mp hlist with ⟨place, hplace, -⟩
  rcases bind_eq_ok_iff.mp hplace with ⟨_, hcheck, -⟩
  exact (checkText_pathOf_eq_ok_iff hnames).mp hcheck

/-- The path of a directory leads to it, with whatever follows. -/
theorem walk_pathOf (hproper : tree.root.isProper = true)
    (hdirectory : tree.get? location = some (.directory entries)) {rest : List Segment}
    (hrest : isSlashed rest = false) :
    walk tree aim [] (.slash :: location.map .enter ++ rest) = walk tree aim location rest := by
  rcases @exists_directory_of_append _ [] _ _ hdirectory with ⟨others, hroot⟩
  rw [List.cons_append, walk, hroot]
  exact walk_names hdirectory
    (fun name hname => ((Entry.isProper_of_get? hproper hdirectory).2 name hname).short) hrest

/-- What the path of a location is followed for is its name, from the directory that it is in. -/
theorem locate_pathOf_concat (hproper : tree.root.isProper = true)
    (hdirectory : tree.get? location = some (.directory entries)) {name : String}
    (hname : IsEntryName name) :
    tree.locate aim (pathOf (location ++ [name])).text =
      (checkText (pathOf (location ++ [name])).text >>= fun _ =>
        walkLinks tree aim linkLimit location [.enter name]) := by
  have hnames := hname.concat (Entry.isProper_of_get? hproper hdirectory).2
  rw [locate, origin, if_pos (isAbsolute_pathOf _),
    segments_pathOf hnames (List.concat_ne_nil _ _), List.map_append, ← List.cons_append]
  refine bind_congr fun _ => ?_
  exact walkLinks_congr (walk_pathOf hproper hdirectory rfl) _

/-- The path of a directory leads to it. -/
theorem locate_pathOf (hproper : tree.root.isProper = true)
    (hdirectory : tree.get? location = some (.directory entries)) (hshort : IsShort location) :
    tree.locate aim (pathOf location).text = .ok ⟨location, some (.directory entries)⟩ := by
  have hnames := (Entry.isProper_of_get? hproper hdirectory).2
  rw [locate, (checkText_pathOf_eq_ok_iff hnames).mpr hshort, origin, if_pos (isAbsolute_pathOf _)]
  by_cases hsome : location = []
  · subst hsome
    have hwalk : walk tree aim [] [.slash, .slash] = .arrived [] := by
      rw [walk, hdirectory, walk, hdirectory, walk]
    change walkLinks tree aim linkLimit [] [.slash, .slash] = _
    rw [walkLinks, hwalk]
    dsimp only
    rw [hdirectory]
  · rw [segments_pathOf hnames hsome]
    have hwalk : walk tree aim [] (.slash :: location.map .enter) = walk tree aim location [] := by
      have hrest := @walk_pathOf _ _ _ aim hproper hdirectory [] rfl
      rwa [List.append_nil] at hrest
    change walkLinks _ _ _ _ _ = _
    rw [walkLinks_congr hwalk, walkLinks, walk]
    dsimp only
    rw [hdirectory]

end FileTree

end RosInterface
