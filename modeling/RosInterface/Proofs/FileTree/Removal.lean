import RosInterface.FileTree.Actions
import RosInterface.Proofs.Computation
import RosInterface.Proofs.Order
import RosInterface.Proofs.Path

namespace RosInterface

/-! # What a removal leaves

`FileTree.remove_lacks` says that a path whose last part is a name leads to nothing once it was
removed. It does not ask whether the removal succeeded: there may have been nothing to remove, and a
directory may have to be left empty if the path to it went through what it held.

* `FileTree.Within` relates a tree to one that may have more entries, but no entries of another kind;
* `Within.locate` says that where a path leads in the former, it leads in the latter. So nothing
  turns up behind a path when entries are taken away, and what the path did lead to is gone.
-/

namespace Entry

/-! ## Entries of entries -/

/-- The entries are files, links to the same target, or directories. -/
inductive SameKind : Entry → Entry → Prop
  | files (content other : ByteArray) : SameKind (file content) (file other)
  | links (target : String) : SameKind (link target) (link target)
  | directories (entries others : List (String × Entry)) :
      SameKind (directory entries) (directory others)

theorem SameKind.refl (entry : Entry) : entry.SameKind entry := by
  cases entry with
  | file content => exact .files content content
  | link target => exact .links target
  | directory entries => exact .directories entries entries

theorem SameKind.trans {entry other last : Entry} (h : entry.SameKind other)
    (hlast : other.SameKind last) : entry.SameKind last := by
  cases h with
  | files content _ =>
    cases hlast with
    | files _ final => exact .files content final
  | links => exact hlast
  | directories entries _ =>
    cases hlast with
    | directories _ final => exact .directories entries final

/-- What there is at a location below the first entry, there is below the second one as well, though
its directories may have more, and its files other contents. -/
def Within (fewer full : Entry) : Prop :=
  ∀ location entry, fewer.get? location = some entry →
    ∃ original, full.get? location = some original ∧ entry.SameKind original

theorem Within.refl (entry : Entry) : entry.Within entry :=
  fun _ found hfound => ⟨found, hfound, .refl found⟩

theorem Within.trans {entry other last : Entry} (h : entry.Within other)
    (hlast : other.Within last) : entry.Within last := by
  intro location found hfound
  rcases h location found hfound with ⟨between, hbetween, hkind⟩
  rcases hlast location between hbetween with ⟨final, hfinal, hkind'⟩
  exact ⟨final, hfinal, hkind.trans hkind'⟩

/-- Directories are compared name by name. -/
theorem within_directory {fewer full : List (String × Entry)}
    (hchild : ∀ name child, fewer.lookup name = some child →
      ∃ original, full.lookup name = some original ∧ child.Within original) :
    (directory fewer).Within (directory full) := by
  intro location entry hfound
  cases location with
  | nil =>
    cases hfound
    exact ⟨directory full, rfl, .directories fewer full⟩
  | cons name rest =>
    rcases Option.bind_eq_some_iff.mp hfound with ⟨child, hlookup, hbelow⟩
    rcases hchild name child hlookup with ⟨original, horiginal, hwithin⟩
    rcases hwithin rest entry hbelow with ⟨other, hother, hkind⟩
    exact ⟨other, Option.bind_eq_some_iff.mpr ⟨original, horiginal, hother⟩, hkind⟩

/-- Whatever has an entry is a directory. -/
theorem eq_directory_of_lookup {entry child : Entry} {name : String}
    (hlookup : entry.entries.lookup name = some child) : entry = directory entry.entries := by
  cases entry with
  | directory entries => rfl
  | file | link => cases hlookup

theorem get?_append (entry : Entry) (front back : Location) :
    entry.get? (front ++ back) = (entry.get? front).bind (·.get? back) := by
  induction front generalizing entry with
  | nil => rfl
  | cons name rest ih =>
    rw [List.cons_append, get?, get?, Option.bind_assoc]
    exact Option.bind_congr fun child _ => ih child

/-! ## Entries that are replaced or removed -/

theorem lookup_putName (name other : String) (entry : Entry) (entries : List (String × Entry)) :
    (putName name entry entries).lookup other =
      if other = name then some entry else entries.lookup other := by
  induction entries with
  | nil => exact lookup_cons_eq name other entry []
  | cons first rest ih =>
    rcases first with ⟨key, old⟩
    rw [putName]
    by_cases hkey : key = name
    · rw [if_pos hkey, lookup_cons_eq, lookup_cons_eq, hkey]
      by_cases hother : other = name
      · rw [if_pos hother, if_pos hother]
      · rw [if_neg hother, if_neg hother, if_neg hother]
    · rw [if_neg hkey, lookup_cons_eq, lookup_cons_eq, ih]
      by_cases hother : other = key
      · rw [if_pos hother, if_pos hother, hother, if_neg hkey]
      · rw [if_neg hother, if_neg hother]

theorem get?_put (new entry : Entry) (location : Location) :
    (put new entry location).get? location = some new := by
  induction location generalizing entry with
  | nil => rfl
  | cons name rest ih =>
    rw [put, get?, entries, lookup_putName, if_pos rfl]
    exact ih _

/-- Putting less where something is makes the whole less. -/
theorem within_put {new entry old : Entry} {location : Location}
    (hold : entry.get? location = some old) (hless : new.Within old) :
    (put new entry location).Within entry := by
  induction location generalizing entry with
  | nil =>
    cases hold
    exact hless
  | cons name rest ih =>
    rcases Option.bind_eq_some_iff.mp hold with ⟨child, hlookup, hbelow⟩
    rw [put, hlookup, eq_directory_of_lookup hlookup]
    refine within_directory fun other found hfound => ?_
    rw [entries, lookup_putName] at hfound
    by_cases hother : other = name
    · rw [if_pos hother] at hfound
      cases hfound
      exact ⟨child, hother ▸ hlookup, ih hbelow⟩
    · rw [if_neg hother] at hfound
      exact ⟨found, hfound, .refl found⟩

theorem get?_erase (entry : Entry) {location : Location} (hbelow : location ≠ []) :
    (entry.erase location).get? location = none := by
  fun_induction erase entry location with
  | case1 => exact absurd rfl hbelow
  | case2 entry name =>
    rw [get?, entries, lookup_filter_ne, if_pos rfl]
    rfl
  | case3 entry name rest hrest old hlookup ih =>
    rw [get?, entries, lookup_putName, if_pos rfl]
    exact ih fun hnil => hrest hnil
  | case4 entry name rest hrest hlookup =>
    rw [get?, hlookup]
    rfl

/-- Removing an entry makes the whole less. -/
theorem within_erase {entry old : Entry} {location : Location}
    (hold : entry.get? location = some old) : (entry.erase location).Within entry := by
  fun_induction erase entry location with
  | case1 => exact .refl _
  | case2 entry name =>
    rcases Option.bind_eq_some_iff.mp hold with ⟨child, hlookup, -⟩
    rw [eq_directory_of_lookup hlookup]
    refine within_directory fun other found hfound => ?_
    rw [entries, lookup_filter_ne] at hfound
    by_cases hother : other = name
    · rw [if_pos hother] at hfound
      cases hfound
    · rw [if_neg hother] at hfound
      exact ⟨found, hfound, .refl found⟩
  | case3 entry name rest hrest child hlookup ih =>
    -- Only the entry on the way changes, and it becomes less.
    rw [get?, hlookup] at hold
    rw [eq_directory_of_lookup hlookup]
    refine within_directory fun other found hfound => ?_
    rw [entries, lookup_putName] at hfound
    by_cases hother : other = name
    · rw [if_pos hother] at hfound
      cases hfound
      exact ⟨child, hother ▸ hlookup, ih hold⟩
    · rw [if_neg hother] at hfound
      exact ⟨found, hfound, .refl found⟩
  | case4 => exact .refl _

end Entry

namespace FileTree

/-! ## Walks in a smaller tree -/

/-- The first tree has nothing that the second one does not have. -/
structure Within (fewer full : FileTree) : Prop where
  root : fewer.root.Within full.root
  workingDirectory : fewer.workingDirectory = full.workingDirectory

/-- The walk does not get to an entry. -/
def Walk.isStuck : Walk → Bool
  | missing _ | failed _ => true
  | arrived _ | linked .. => false

theorem get?_concat {tree : FileTree} {location : Location} {entries : List (String × Entry)}
    (hdirectory : tree.get? location = some (.directory entries)) (name : String) :
    tree.get? (location ++ [name]) = entries.lookup name := by
  rw [get?, Entry.get?_append, ← get?, hdirectory]
  exact Option.bind_fun_some _

variable {fewer full : FileTree}

/-- Directories of the smaller tree are directories of the other one. -/
theorem Within.directory (h : Within fewer full) {location : Location}
    {entries : List (String × Entry)}
    (hentries : fewer.get? location = some (.directory entries)) :
    ∃ others, full.get? location = some (.directory others) := by
  rcases h.root location _ hentries with ⟨original, horiginal, hkind⟩
  cases hkind with
  | directories _ others => exact ⟨others, horiginal⟩

/-- What has a name in the former has it in the latter. -/
theorem Within.lookup (h : Within fewer full) {location : Location}
    {entries others : List (String × Entry)}
    (hentries : fewer.get? location = some (.directory entries))
    (hothers : full.get? location = some (.directory others)) {name : String} {found : Entry}
    (hlookup : entries.lookup name = some found) :
    ∃ other, others.lookup name = some other ∧ found.SameKind other := by
  have hfound : fewer.get? (location ++ [name]) = some found :=
    (get?_concat hentries name).trans hlookup
  rcases h.root _ _ hfound with ⟨other, hother, hkind⟩
  exact ⟨other, (get?_concat hothers name).symm.trans hother, hkind⟩

/-- A walk takes the same steps in both trees, unless it gets stuck where something is gone. -/
theorem Within.walk (h : Within fewer full) (aim : Aim) (location : Location)
    (steps : List Segment) :
    (walk fewer aim location steps).isStuck = true ∨
      FileTree.walk fewer aim location steps = FileTree.walk full aim location steps := by
  induction steps generalizing location with
  | nil => exact Or.inr rfl
  | cons step rest ih =>
    unfold FileTree.walk
    split
    · rename_i entries hentries
      rcases h.directory hentries with ⟨others, hothers⟩
      rw [hothers]
      cases step with
      | stay | slash => exact ih location
      | up => exact ih location.dropLast
      | enter name =>
        -- Whether the name is acceptable does not depend on the tree.
        dsimp only
        split
        · exact Or.inr rfl
        · split
          · exact Or.inr rfl
          · cases hlookup : entries.lookup name with
            | none =>
              dsimp only
              split
              · exact Or.inl rfl
              · exact Or.inl rfl
            | some found =>
              rcases h.lookup hentries hothers hlookup with ⟨other, hother, hkind⟩
              rw [hother]
              cases hkind with
              | links => exact Or.inr rfl
              | files | directories => exact ih _
    · exact Or.inl rfl

theorem Within.walk_eq (h : Within fewer full) {aim : Aim} {location : Location}
    {steps : List Segment} {ending : Walk} (hwalk : FileTree.walk fewer aim location steps = ending)
    (hfree : ending.isStuck = false) : FileTree.walk full aim location steps = ending := by
  rcases h.walk aim location steps with hstuck | hsame
  · rw [hwalk, hfree] at hstuck
    cases hstuck
  · rw [← hsame, hwalk]

/-- What a walk over links ends at in the smaller tree, it ends at in the other one. -/
theorem Within.walkLinks (h : Within fewer full) {aim : Aim} {limit : Nat} {location : Location}
    {steps : List Segment} {place : Location} {entry : Entry}
    (hends : walkLinks fewer aim limit location steps = .ok ⟨place, some entry⟩) :
    fewer.get? place = some entry ∧ ∃ original, full.get? place = some original ∧
      FileTree.walkLinks full aim limit location steps = .ok ⟨place, some original⟩ := by
  fun_induction FileTree.walkLinks fewer aim limit location steps with
  | case1 limit location steps other hwalk =>
    injection hends with hplace
    injection hplace with hlocation hentry
    subst hlocation
    rcases h.root _ _ hentry with ⟨original, horiginal, -⟩
    have hsame := h.walk_eq hwalk rfl
    refine ⟨hentry, original, horiginal, ?_⟩
    unfold FileTree.walkLinks
    rw [hsame]
    exact congrArg (fun entry => Except.ok (Place.mk _ entry)) horiginal
  | case2 => cases hends
  | case3 => cases hends
  | case4 => cases hends
  | case5 location steps directory target rest hwalk limit ih =>
    -- Both trees have the same link there, and go on behind it.
    have hsame := h.walk_eq hwalk rfl
    rcases ih hends with ⟨hfound, original, horiginal, hwalks⟩
    refine ⟨hfound, original, horiginal, ?_⟩
    unfold FileTree.walkLinks
    rw [hsame]
    exact hwalks

/-- What a path leads to in the smaller tree, it leads to in the other one. -/
theorem Within.locate (h : Within fewer full) {aim : Aim} {text : String} {place : Location}
    {entry : Entry} (hends : fewer.locate aim text = .ok ⟨place, some entry⟩) :
    fewer.get? place = some entry ∧ ∃ original, full.get? place = some original ∧
      full.locate aim text = .ok ⟨place, some original⟩ := by
  rcases bind_eq_ok_iff.mp hends with ⟨checked, hchecked, hwalks⟩
  rw [h.workingDirectory] at hwalks
  rcases h.walkLinks hwalks with ⟨hfound, original, horiginal, hwalks⟩
  exact ⟨hfound, original, horiginal, bind_eq_ok_iff.mpr ⟨checked, hchecked, hwalks⟩⟩

theorem Within.refl (tree : FileTree) : Within tree tree :=
  ⟨.refl tree.root, rfl⟩

theorem Within.trans {tree between after : FileTree} (h : Within tree between)
    (hafter : Within between after) : Within tree after :=
  ⟨h.root.trans hafter.root, h.workingDirectory.trans hafter.workingDirectory⟩

/-- The entry that a path leads to is the one at its place. -/
theorem get?_of_locate {tree : FileTree} {aim : Aim} {text : String} {place : Location}
    {entry : Entry} (hends : tree.locate aim text = .ok ⟨place, some entry⟩) :
    tree.get? place = some entry :=
  ((Within.refl tree).locate hends).1

/-! ## Paths that end with a name -/

/-- The walk ends at an entry of the name, if it ends, and what is left to do behind a link still ends
with the name. -/
def Walk.EndsWith (name : String) : Walk → Prop
  | arrived location | missing location => location.getLast? = some name
  | linked _ _ rest => rest.getLast? = some (.enter name)
  | failed _ => True

theorem getLast?_tail {step last : Segment} {rest : List Segment}
    (hlast : (step :: rest).getLast? = some last) :
    (rest = [] ∧ step = last) ∨ rest.getLast? = some last := by
  cases rest with
  | nil => exact Or.inl ⟨rfl, Option.some.inj hlast⟩
  | cons next others => exact Or.inr hlast

theorem walk_endsWith {tree : FileTree} {location : Location} {steps : List Segment} {name : String}
    (hlast : steps.getLast? = some (.enter name)) :
    (walk tree .itself location steps).EndsWith name := by
  fun_induction walk tree .itself location steps with
  | case1 => cases hlast
  | case2 location rest _ _ ih | case3 location rest _ _ ih | case4 location rest _ _ ih =>
    rcases getLast?_tail hlast with ⟨-, hstep⟩ | hrest
    · cases hstep
    · exact ih hrest
  | case5 | case6 | case8 | case12 => exact trivial
  | case7 location rest _ _ entered _ _ _ hend =>
    rcases getLast?_tail hlast with ⟨-, hstep⟩ | hrest
    · cases hstep
      exact List.getLast?_concat
    · rw [List.isEmpty_iff] at hend
      rw [hend] at hrest
      cases hrest
  | case9 location rest _ _ entered _ _ _ _ hend =>
    rcases getLast?_tail hlast with ⟨-, hstep⟩ | hrest
    · cases hstep
      exact List.getLast?_concat
    · rw [Bool.and_eq_true, List.isEmpty_iff] at hend
      rw [hend.1] at hrest
      cases hrest
  | case10 location rest _ _ entered _ _ _ _ hbehind =>
    -- A link at the end of the path would have been its target.
    rcases getLast?_tail hlast with ⟨hnil, -⟩ | hrest
    · rw [hnil] at hbehind
      exact absurd rfl hbehind
    · exact hrest
  | case11 location rest _ _ entered _ _ _ _ _ ih =>
    rcases getLast?_tail hlast with ⟨hnil, hstep⟩ | hrest
    · cases hstep
      rw [hnil]
      exact List.getLast?_concat
    · exact ih hrest

/-- What such a path leads to is below some directory. -/
theorem walkLinks_below {tree : FileTree} {limit : Nat} {location : Location} {steps : List Segment}
    {name : String} (hlast : steps.getLast? = some (.enter name)) {place : Location} {entry : Entry}
    (hends : walkLinks tree .itself limit location steps = .ok ⟨place, some entry⟩) :
    place ≠ [] := by
  have hwalk := @walk_endsWith tree location steps name hlast
  fun_induction walkLinks tree .itself limit location steps with
  | case1 limit location steps other harrived =>
    rw [harrived] at hwalk
    injection hends with hplace
    injection hplace with hlocation
    subst hlocation
    exact List.ne_nil_of_mem (List.mem_of_getLast? hwalk)
  | case2 | case3 | case4 => cases hends
  | case5 location steps directory target rest hlinked limit ih =>
    rw [hlinked] at hwalk
    have hrest : (segments target ++ rest).getLast? = some (.enter name) := by
      rw [List.getLast?_append, hwalk]
      rfl
    exact ih hrest hends (walk_endsWith hrest)

/-! ## Removal -/

/-- The path leads to nothing. -/
def Lacks (tree : FileTree) (path : Path) : Prop :=
  ∀ place, tree.locate .itself path.text = .ok place → place.entry = none

/-- The path ends with a name, and not with a slash. -/
structure EndsWithName (path : Path) : Prop where
  slashes : dropSlashes path.text = path.text
  last : ∃ name, (segments path.text).getLast? = some (.enter name)

variable {path : Path}

theorem EndsWithName.below (h : EndsWithName path) {tree : FileTree} {place : Location}
    {entry : Entry} (hends : tree.locate .itself path.text = .ok ⟨place, some entry⟩) :
    place ≠ [] := by
  rcases h.last with ⟨name, hlast⟩
  rcases bind_eq_ok_iff.mp hends with ⟨-, -, hwalks⟩
  exact walkLinks_below hlast hwalks

/-- A path leads to nothing once the entry at its place is erased. -/
theorem EndsWithName.lacks_erase (h : EndsWithName path) {tree : FileTree} {location : Location}
    {entry : Entry} (hends : tree.locate .itself path.text = .ok ⟨location, some entry⟩) :
    (tree.erase location).Lacks path := by
  rintro ⟨place, found⟩ hplace
  cases found with
  | none => rfl
  | some found =>
    -- What it leads to now would be at the same place, where there is nothing any more.
    have hwithin : Within (tree.erase location) tree :=
      ⟨Entry.within_erase (get?_of_locate hends), rfl⟩
    rcases hwithin.locate hplace with ⟨hfound, original, -, hsame⟩
    rw [hends] at hsame
    injection hsame with hsame
    injection hsame with hlocation
    subst hlocation
    have hgone : (tree.erase location).get? location = none := Entry.get?_erase _ (h.below hends)
    rw [hgone] at hfound
    cases hfound

theorem run_reading {α : Type} (read : FileTree → Except FileError α) (tree : FileTree) :
    (reading read).run tree = (read tree, tree) :=
  rfl

theorem run_modify (change : FileTree → FileTree) (tree : FileTree) :
    (modify change : Action Unit).run tree = (.ok (), change tree) :=
  rfl

/-- A directory is removed if it is empty, and nothing happens otherwise. -/
theorem EndsWithName.removeDirectory (h : EndsWithName path) (tree : FileTree) :
    (∃ location, tree.locate .itself path.text = .ok ⟨location, some (.directory [])⟩ ∧
      ((removeDirectory path).run tree).2 = tree.erase location) ∨
    ((∀ location, tree.locate .itself path.text ≠ .ok ⟨location, some (.directory [])⟩) ∧
      ((removeDirectory path).run tree).2 = tree) := by
  rcases h.last with ⟨name, hlast⟩
  unfold FileTree.removeDirectory
  rw [h.slashes, run_bind, run_reading]
  rcases tree.locate .itself path.text with error | ⟨location, found⟩
  · exact Or.inr ⟨nofun, rfl⟩
  · dsimp only
    rw [hlast]
    rcases found with - | - | - | ⟨- | ⟨first, rest⟩⟩
    · exact Or.inr ⟨nofun, rfl⟩
    · exact Or.inr ⟨nofun, rfl⟩
    · exact Or.inr ⟨nofun, rfl⟩
    · exact Or.inl ⟨location, rfl, rfl⟩
    · exact Or.inr ⟨nofun, rfl⟩

/-- Forgiving a failure does not change the tree. -/
theorem tree_of_forgiving (part : Action Unit) (tree : FileTree) :
    ((tryCatch part fun error =>
      if error = .notFound then pure () else throw error : Action Unit).run tree).2 =
        (part.run tree).2 := by
  rw [run_tryCatch]
  rcases part.run tree with ⟨error | value, after⟩
  · dsimp only
    split
    · rfl
    · rfl
  · rfl

/-- Once a directory is emptied, removing it leaves nothing that the path leads to. -/
theorem EndsWithName.lacks_removeDirectory (h : EndsWithName path) {tree : FileTree}
    {location : Location} {entries : List (String × Entry)}
    (hlocate : tree.locate .itself path.text = .ok ⟨location, some (.directory entries)⟩) :
    ((FileTree.removeDirectory path).run (tree.put location (.directory []))).2.Lacks path := by
  have hwithin : Within (tree.put location (.directory [])) tree :=
    ⟨Entry.within_put (get?_of_locate hlocate) (Entry.within_directory nofun), rfl⟩
  rcases h.removeDirectory (tree.put location (.directory [])) with
    ⟨place, hplace, hrun⟩ | ⟨hother, hrun⟩
  · rw [hrun]
    exact h.lacks_erase hplace
  · rw [hrun]
    rintro ⟨place, found⟩ hplace
    cases found with
    | none => rfl
    | some found =>
      -- All that the path can lead to is the directory, and that is empty.
      rcases hwithin.locate hplace with ⟨hfound, original, -, hsame⟩
      cases hlocate.symm.trans hsame
      have hempty : (tree.put location (.directory [])).get? location = some (.directory []) :=
        Entry.get?_put _ _ _
      cases hempty.symm.trans hfound
      exact absurd hplace (hother location)

/-- Whatever becomes of a removal, the path leads to nothing at the end of it. -/
theorem EndsWithName.lacks_remove (h : EndsWithName path) (tree : FileTree) :
    ((remove path).run tree).2.Lacks path := by
  unfold remove
  rw [run_bind, run_reading]
  rcases hlocate : tree.locate .itself path.text with error | ⟨location, found⟩
  · intro place hplace
    cases hlocate.symm.trans hplace
  · cases found with
    | none =>
      intro place hplace
      cases hlocate.symm.trans hplace
      rfl
    | some found =>
      cases found with
      | file | link => exact h.lacks_erase hlocate
      | directory entries =>
        -- The directory is emptied first, and then removed by its path.
        dsimp only
        rw [run_bind, run_modify]
        dsimp only
        rw [tree_of_forgiving]
        exact h.lacks_removeDirectory hlocate

/-! ## Names in a directory -/

/-- The text is the name of an entry: it is entered by a single step. -/
structure IsName (name : String) : Prop where
  slashes : '/' ∉ name.toList
  entered : Segment.ofPiece name.toList = .enter name

theorem IsName.isPlain {name : String} (h : IsName name) : Path.IsPlain name := by
  refine ⟨h.slashes, ?_⟩
  intro hspecial
  have hentered := h.entered
  simp only [List.mem_cons, List.not_mem_nil, or_false] at hspecial
  rcases hspecial with rfl | rfl | rfl
  · cases hentered
  · cases hentered
  · cases hentered

/-- A plain name is the name of an entry. -/
theorem isName_of_isPlain {name : String} (h : Path.IsPlain name) : IsName name := by
  refine ⟨h.1, ?_⟩
  unfold Segment.ofPiece
  split
  · rename_i hnil
    exact absurd hnil (h.toList_ne (by decide))
  · rename_i hdot
    exact absurd hdot (h.toList_ne (by decide))
  · rename_i hdots
    exact absurd hdots (h.toList_ne (by decide))
  · rw [String.ofList_toList]

/-- In front of the name of an entry there may be nothing, or a path that a slash closes. -/
theorem exists_front_of_join {name : String} (hname : '/' ∉ name.toList) (base : Path) :
    ∃ front : List Char, (base.join name).text.toList = front ++ name.toList ∧
      (front = [] ∨ ∃ closed, front = closed ++ ['/']) := by
  have hrelative := Path.isAbsolute_of_slashless hname
  by_cases hbase : base.text = ""
  · exact ⟨[], by simp [Path.join, hrelative, hbase], Or.inl rfl⟩
  · rcases Path.exists_front_of_join_relative hrelative hbase with ⟨closed, htext, -⟩
    exact ⟨closed ++ ['/'], by simp [htext], Or.inr ⟨closed, rfl⟩⟩

/-- The last piece between slashes is the name. -/
theorem getLast?_pieces {front name : List Char} (hname : '/' ∉ name)
    (hfront : front = [] ∨ ∃ closed, front = closed ++ ['/']) :
    (Text.pieces (· == '/') (front ++ name)).getLast? = some name := by
  rcases hfront with rfl | ⟨closed, rfl⟩
  · rw [List.nil_append, Text.pieces_eq_singleton hname]
    rfl
  · rw [List.append_assoc, List.singleton_append, Text.pieces_append_cons _ _ (by rfl),
      Text.pieces_eq_singleton hname, List.getLast?_concat]

/-- Nothing is dropped from a text that ends with a name. -/
theorem dropEnd_append {front name : List Char} (hname : '/' ∉ name) (hsome : name ≠ []) :
    Text.dropEnd (· == '/') (front ++ name) = front ++ name := by
  rcases List.eq_nil_or_concat name with hnil | ⟨start, last, hlast⟩
  · exact absurd hnil hsome
  · rw [List.concat_eq_append] at hlast
    have hother : (last == '/') = false := by
      rw [beq_eq_false_iff_ne]
      rintro rfl
      exact hname (by rw [hlast]; simp)
    rw [hlast, ← List.append_assoc, Text.dropEnd_concat, hother, if_neg Bool.false_ne_true]

/-- What is looked for at the end of a joined path has the name. -/
theorem IsName.getLast?_segments {name : String} (h : IsName name) (base : Path) :
    (segments (base.join name).text).getLast? = some (.enter name) := by
  rcases exists_front_of_join h.slashes base with ⟨front, htext, hfront⟩
  rw [segments, List.getLast?_map, htext, getLast?_pieces h.slashes hfront, Option.map_some,
    h.entered]

theorem IsName.endsWithName {name : String} (h : IsName name) (base : Path) :
    EndsWithName (base.join name) := by
  rcases exists_front_of_join h.slashes base with ⟨front, htext, -⟩
  have hsome : name.toList ≠ [] := by
    intro hnil
    have hnone : name = "" := String.toList_eq_nil_iff.mp hnil
    exact h.isPlain.2 (hnone ▸ List.mem_cons_self)
  refine ⟨?_, name, h.getLast?_segments base⟩
  unfold dropSlashes
  rw [htext, dropEnd_append h.slashes hsome, ← htext]
  split
  · rfl
  · exact String.ofList_toList

end FileTree

end RosInterface
