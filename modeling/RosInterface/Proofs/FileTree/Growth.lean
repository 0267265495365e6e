import RosInterface.Proofs.FileTree.Confinement
import RosInterface.Proofs.FileTree.Walks

namespace RosInterface

/-! # Trees that grow

Actions that create directories and write files take nothing away. `Grows` says what is left of a
tree when they are done: everything is still there, files perhaps with other contents, and there are
no links but the old ones.

* `Grows.of_changes` says that a tree grows by changes, as many as there are;
* `Within.resolve_written` says that a path that was written to still leads to the file that was
  written, however the tree grew in the meantime;
* `file_kept_of_changes` says that a file keeps its content if none of the written paths leads to it
  in the end. It is enough to look at the last tree, since every path leads there to where it was
  written.
-/

namespace Entry

/-! ## Putting entries -/

/-- Entries that lie elsewhere stay as they are. -/
theorem get?_put_of_apart {new entry : Entry} {location other : Location}
    (hbelow : ¬ location <+: other) (habove : ¬ other <+: location) :
    (put new entry location).get? other = entry.get? other := by
  induction location generalizing entry other with
  | nil => exact absurd List.nil_prefix hbelow
  | cons name rest ih =>
    cases other with
    | nil => exact absurd List.nil_prefix habove
    | cons first back =>
      rw [put, get?, get?, entries, lookup_putName]
      by_cases hfirst : first = name
      · subst hfirst
        rw [List.cons_prefix_cons] at hbelow habove
        have hback := @ih ((entry.entries.lookup first).getD (directory [])) back
          (fun h => hbelow ⟨rfl, h⟩) (fun h => habove ⟨rfl, h⟩)
        rw [if_pos rfl, Option.bind_some, hback]
        cases entry.entries.lookup first with
        | some child => rfl
        | none =>
          -- There was nothing of this name, so there is nothing but what is put.
          cases back with
          | nil => exact absurd ⟨rfl, List.nil_prefix⟩ habove
          | cons => rfl
      · rw [if_neg hfirst]

/-- No link appears unless one is put. -/
theorem get?_eq_link_of_put {new entry : Entry} {location other : Location} {target : String}
    (hnew : ∀ back, new.get? back ≠ some (link target))
    (hlink : (put new entry location).get? other = some (link target)) :
    entry.get? other = some (link target) := by
  induction location generalizing entry other with
  | nil => exact absurd hlink (hnew other)
  | cons name rest ih =>
    cases other with
    | nil => cases hlink
    | cons first back =>
      rw [put, get?, entries, lookup_putName] at hlink
      rw [get?]
      by_cases hfirst : first = name
      · subst hfirst
        rw [if_pos rfl, Option.bind_some] at hlink
        have hold := ih hlink
        cases hlookup : entry.entries.lookup first with
        | some child =>
          rw [hlookup] at hold
          exact hold
        | none =>
          rw [hlookup] at hold
          cases back with
          | nil => cases hold
          | cons => cases hold
      · rwa [if_neg hfirst] at hlink

end Entry

namespace FileTree

variable {tree after : FileTree} {aim : Aim}

/-- Nothing stands in the way of an entry: it is a file in place of another one, or a file or an
empty directory where a directory has nothing yet. -/
inductive Accepts (tree : FileTree) : Location → Entry → Prop
  | replaced {location : Location} {old : ByteArray} (content : ByteArray)
      (hold : tree.get? location = some (.file old)) : Accepts tree location (.file content)
  | file {parent : Location} {name : String} {entries : List (String × Entry)} (content : ByteArray)
      (hparent : tree.get? parent = some (.directory entries))
      (hnew : entries.lookup name = none) : Accepts tree (parent ++ [name]) (.file content)
  | directory {parent : Location} {name : String} {entries : List (String × Entry)}
      (hparent : tree.get? parent = some (.directory entries))
      (hnew : entries.lookup name = none) : Accepts tree (parent ++ [name]) (.directory [])

namespace Accepts

variable {location : Location} {new : Entry}

/-- What lies above the location is a directory. -/
theorem exists_directory (h : tree.Accepts location new) {front back : Location}
    (hsplit : location = front ++ back) (hbelow : back ≠ []) :
    ∃ entries, tree.get? front = some (.directory entries) := by
  have hfresh : ∀ {parent : Location} {name : String} {entries : List (String × Entry)},
      tree.get? parent = some (.directory entries) → parent ++ [name] = front ++ back →
        ∃ entries, tree.get? front = some (.directory entries) := by
    intro parent name entries hparent hsame
    rcases List.eq_nil_or_concat back with rfl | ⟨start, last, rfl⟩
    · exact absurd rfl hbelow
    · rw [List.concat_eq_append, ← List.append_assoc] at hsame
      rw [(List.append_singleton_inj.mp hsame).1] at hparent
      exact exists_directory_of_append hparent
  cases h with
  | replaced content hold =>
    cases back with
    | nil => exact absurd rfl hbelow
    | cons name rest =>
      rw [hsplit] at hold
      rcases exists_directory_of_get?_cons hold with ⟨entries, -, hfront, -⟩
      exact ⟨entries, hfront⟩
  | file content hparent => exact hfresh hparent hsplit
  | directory hparent => exact hfresh hparent hsplit

/-- All that may be there already is a file, which gives way to a file. -/
theorem exists_file (h : tree.Accepts location new) {old : Entry}
    (hold : tree.get? location = some old) :
    ∃ before content, old = .file before ∧ new = .file content := by
  cases h with
  | replaced content hfile => exact ⟨_, content, Option.some.inj (hold.symm.trans hfile), rfl⟩
  | file content hparent hnew | directory hparent hnew =>
    rw [get?_concat hparent, hnew] at hold
    cases hold

theorem get?_ne_link (h : tree.Accepts location new) (back : Location) (target : String) :
    new.get? back ≠ some (.link target) := by
  intro hlink
  cases h with
  | replaced | file | directory =>
    cases back with
    | nil => cases hlink
    | cons => cases hlink

/-- A file elsewhere stays as it is. -/
theorem get?_put_file (h : tree.Accepts location new) {other : Location} {content : ByteArray}
    (hfile : tree.get? other = some (.file content)) (hother : other ≠ location) :
    (tree.put location new).get? other = some (.file content) := by
  rw [← hfile]
  refine Entry.get?_put_of_apart ?_ ?_
  · rintro ⟨back, rfl⟩
    cases back with
    | nil => exact hother (List.append_nil _)
    | cons name rest =>
      -- Nothing is below the location, since there is no directory.
      rcases exists_directory_of_get?_cons hfile with ⟨entries, -, hdirectory, -⟩
      rcases h.exists_file hdirectory with ⟨before, after, hsame, -⟩
      cases hsame
  · rintro ⟨back, hsplit⟩
    cases back with
    | nil => exact hother ((List.append_nil _).symm.trans hsplit)
    | cons name rest =>
      rcases h.exists_directory hsplit.symm (List.cons_ne_nil _ _) with ⟨entries, hdirectory⟩
      cases hfile.symm.trans hdirectory

theorem within_put (h : tree.Accepts location new) : Within tree (tree.put location new) := by
  refine ⟨fun other found hfound => ?_, rfl⟩
  have hput : (tree.put location new).get? location = some new := Entry.get?_put _ _ _
  by_cases hbelow : location <+: other
  · rcases hbelow with ⟨back, rfl⟩
    rw [Entry.get?_append] at hfound
    rcases Option.bind_eq_some_iff.mp hfound with ⟨old, hold, hback⟩
    rcases h.exists_file hold with ⟨before, content, rfl, rfl⟩
    cases back with
    | nil =>
      cases hback
      rw [List.append_nil]
      exact ⟨.file content, hput, .files before content⟩
    | cons => cases hback
  · by_cases habove : other <+: location
    · rcases habove with ⟨back, rfl⟩
      have hsome : back ≠ [] := by
        rintro rfl
        rw [List.append_nil] at hbelow
        exact hbelow List.prefix_rfl
      rcases h.exists_directory rfl hsome with ⟨entries, hdirectory⟩
      cases hfound.symm.trans hdirectory
      -- There is something further down afterwards, so it still is a directory.
      rcases List.exists_cons_of_ne_nil hsome with ⟨name, rest, rfl⟩
      rcases exists_directory_of_get?_cons hput with ⟨others, -, hothers, -⟩
      exact ⟨.directory others, hothers, .directories entries others⟩
    · exact ⟨found, (Entry.get?_put_of_apart hbelow habove).trans hfound, .refl found⟩

end Accepts

/-! ## Growth -/

/-- Everything is still there, and no link is new. -/
structure Grows (tree after : FileTree) : Prop where
  within : Within tree after
  links : ∀ location target, after.get? location = some (.link target) →
    tree.get? location = some (.link target)

theorem Grows.refl (tree : FileTree) : Grows tree tree :=
  ⟨.refl tree, fun _ _ hlink => hlink⟩

theorem Grows.trans {between : FileTree} (h : Grows tree between) (hafter : Grows between after) :
    Grows tree after :=
  ⟨h.within.trans hafter.within, fun location target hlink =>
    h.links location target (hafter.links location target hlink)⟩

theorem Accepts.grows {location : Location} {new : Entry} (h : tree.Accepts location new) :
    Grows tree (tree.put location new) :=
  ⟨h.within_put, fun _ target hlink =>
    Entry.get?_eq_link_of_put (fun back => h.get?_ne_link back target) hlink⟩

/-! ## Where paths end -/

/-- A walk that lacks a name is in a directory that has no such name. -/
theorem walk_missing {location place : Location} {steps : List Segment}
    (hwalk : walk tree aim location steps = .missing place) :
    ∃ parent name entries, place = parent ++ [name] ∧
      tree.get? parent = some (.directory entries) ∧ entries.lookup name = none := by
  fun_induction walk tree aim location steps with
  | case1 => cases hwalk
  | case2 _ _ _ _ ih | case3 _ _ _ _ ih | case4 _ _ _ _ ih | case11 _ _ _ _ _ _ _ _ _ _ ih =>
    exact ih hwalk
  | case5 | case6 | case8 | case9 | case10 | case12 => cases hwalk
  | case7 location rest entries hdirectory name _ _ hnone hlast =>
    cases hwalk
    exact ⟨location, name, entries, rfl, hdirectory, hnone⟩

/-- There is something, which is a link only if it was looked for under its own name. -/
def Reaches (tree : FileTree) (aim : Aim) (place : Location) : Prop :=
  ∃ found, tree.get? place = some found ∧ (aim ≠ .itself → ∀ target, found ≠ .link target)

theorem reaches_directory {location : Location} {entries : List (String × Entry)}
    (hdirectory : tree.get? location = some (.directory entries)) : tree.Reaches aim location :=
  ⟨.directory entries, hdirectory, fun _ _ hlink => nomatch hlink⟩

theorem walk_arrived {location place : Location} {steps : List Segment}
    (hstart : steps = [] → tree.Reaches aim location)
    (hwalk : walk tree aim location steps = .arrived place) : tree.Reaches aim place := by
  fun_induction walk tree aim location steps with
  | case1 =>
    cases hwalk
    exact hstart rfl
  | case2 location rest _ hdirectory ih | case3 location rest _ hdirectory ih =>
    exact ih (fun _ => reaches_directory hdirectory) hwalk
  | case4 location rest _ hdirectory ih =>
    refine ih (fun _ => ?_) hwalk
    rcases List.eq_nil_or_concat location with rfl | ⟨front, last, rfl⟩
    · exact reaches_directory hdirectory
    · rw [List.concat_eq_append] at hdirectory ⊢
      rw [List.dropLast_concat]
      rcases exists_directory_of_append hdirectory with ⟨others, hothers⟩
      exact reaches_directory hothers
  | case5 | case6 | case7 | case8 | case10 | case12 => cases hwalk
  | case9 location rest entries hdirectory name _ _ target hlookup hlast =>
    cases hwalk
    rw [Bool.and_eq_true, decide_eq_true_eq] at hlast
    exact ⟨.link target, (get?_concat hdirectory name).trans hlookup,
      fun haim => absurd hlast.2 haim⟩
  | case11 location rest entries hdirectory name _ _ found hlink hlookup ih =>
    refine ih (fun _ => ?_) hwalk
    exact ⟨found, (get?_concat hdirectory name).trans hlookup, fun _ => hlink⟩

theorem segments_ne_nil (text : String) : segments text ≠ [] := by
  rw [segments, Text.pieces_eq_splitOnP]
  simp

/-- The last walk of a path, behind all links, takes some steps and ends where the path ends. -/
theorem exists_walk_of_walkLinks {limit : Nat} {location : Location} {steps : List Segment}
    {place : Place} (hsome : steps ≠ [])
    (hends : walkLinks tree aim limit location steps = .ok place) :
    ∃ start last, last ≠ [] ∧
      ((walk tree aim start last = .arrived place.location ∧
          place.entry = tree.get? place.location) ∨
        (walk tree aim start last = .missing place.location ∧ place.entry = none)) := by
  fun_induction walkLinks tree aim limit location steps with
  | case1 limit location steps arrived hwalk =>
    cases hends
    exact ⟨location, steps, hsome, Or.inl ⟨hwalk, rfl⟩⟩
  | case2 limit location steps missing hwalk =>
    cases hends
    exact ⟨location, steps, hsome, Or.inr ⟨hwalk, rfl⟩⟩
  | case3 | case4 => cases hends
  | case5 location steps directory target rest hwalk limit ih =>
    exact ih (fun hnil => segments_ne_nil target (List.append_eq_nil_iff.mp hnil).1) hends

/-- Nothing is at the end of a path if the last directory lacks the name. -/
theorem locate_none {text : String} {place : Location}
    (hends : tree.locate aim text = .ok ⟨place, none⟩) :
    ∃ parent name entries, place = parent ++ [name] ∧
      tree.get? parent = some (.directory entries) ∧ entries.lookup name = none := by
  rcases bind_eq_ok_iff.mp hends with ⟨-, -, hwalks⟩
  rcases exists_walk_of_walkLinks (segments_ne_nil text) hwalks with
    ⟨start, last, hlast, ⟨hwalk, hnone⟩ | ⟨hwalk, -⟩⟩
  · rcases walk_arrived (fun hnil => absurd hnil hlast) hwalk with ⟨found, hfound, -⟩
    cases hnone.trans hfound
  · exact walk_missing hwalk

/-- Links at the end of a path are followed unless it leads to what has its name. -/
theorem locate_some (haim : aim ≠ .itself) {text : String} {place : Location} {entry : Entry}
    (hends : tree.locate aim text = .ok ⟨place, some entry⟩) (target : String) :
    entry ≠ .link target := by
  rcases bind_eq_ok_iff.mp hends with ⟨-, -, hwalks⟩
  rcases exists_walk_of_walkLinks (segments_ne_nil text) hwalks with
    ⟨start, last, hlast, ⟨hwalk, hsome⟩ | ⟨-, hnone⟩⟩
  · rcases walk_arrived (fun hnil => absurd hnil hlast) hwalk with ⟨found, hfound, hlink⟩
    cases hsome.trans hfound
    exact hlink haim target
  · cases hnone

/-! ## Paths in a tree that grew -/

/-- What a walk comes to, compared with the same walk over all links in a tree that grew. -/
def Walk.IsFollowed (after : FileTree) (aim : Aim) : Walk → Walk → Prop
  | arrived place, there => aim ≠ .itself → there = .arrived place
  | missing place, there => after.Reaches .target place → there = .arrived place
  | linked directory target rest, there => there = .linked directory target rest
  | failed _, _ => True

theorem Within.walk_isFollowed (h : Within tree after) (aim : Aim) (location : Location)
    (steps : List Segment) :
    (FileTree.walk tree aim location steps).IsFollowed after aim
      (FileTree.walk after .target location steps) := by
  fun_induction FileTree.walk tree aim location steps with
  | case1 => exact fun _ => rfl
  | case2 location rest _ hdirectory ih | case3 location rest _ hdirectory ih
  | case4 location rest _ hdirectory ih =>
    rcases h.directory hdirectory with ⟨others, hothers⟩
    rw [FileTree.walk, hothers]
    exact ih
  | case5 | case6 | case8 | case12 => exact trivial
  | case7 location rest entries hdirectory name _ hlimit hnone hlast =>
    rintro ⟨found, hfound, hlink⟩
    rcases h.directory hdirectory with ⟨others, hothers⟩
    rw [get?_concat hothers] at hfound
    rw [List.isEmpty_iff] at hlast
    subst hlast
    rw [FileTree.walk, hothers]
    dsimp only
    rw [if_neg (by simp), if_neg hlimit, hfound]
    cases found with
    | link target => exact absurd rfl (hlink (by decide) target)
    | file | directory => rfl
  | case9 location rest entries hdirectory name _ _ target hlookup hlast =>
    intro haim
    rw [Bool.and_eq_true, decide_eq_true_eq] at hlast
    exact absurd hlast.2 haim
  | case10 location rest entries hdirectory name _ hlimit target hlookup =>
    rcases h.directory hdirectory with ⟨others, hothers⟩
    rcases h.lookup hdirectory hothers hlookup with ⟨other, hother, hkind⟩
    cases hkind
    rw [FileTree.walk, hothers]
    dsimp only
    rw [if_neg (by simp), if_neg hlimit, hother]
    dsimp only
    rw [if_neg (by simp)]
    rfl
  | case11 location rest entries hdirectory name _ hlimit found hlink hlookup ih =>
    rcases h.directory hdirectory with ⟨others, hothers⟩
    rcases h.lookup hdirectory hothers hlookup with ⟨other, hother, hkind⟩
    have hstep : FileTree.walk after .target location (.enter name :: rest) =
        FileTree.walk after .target (location ++ [name]) rest := by
      rw [FileTree.walk, hothers]
      dsimp only
      rw [if_neg (by simp), if_neg hlimit, hother]
      cases hkind with
      | links target => exact absurd rfl (hlink target)
      | files | directories => rfl
    rw [hstep]
    exact ih

theorem Within.walkLinks_target (h : Within tree after) {limit : Nat} {location place : Location}
    {steps : List Segment} {found : Option Entry} (hsome : steps ≠ [])
    (hends : FileTree.walkLinks tree aim limit location steps = .ok ⟨place, found⟩)
    (haim : aim = .itself → found = none) (hreaches : after.Reaches .target place) :
    FileTree.walkLinks after .target limit location steps = .ok ⟨place, after.get? place⟩ := by
  fun_induction FileTree.walkLinks tree aim limit location steps with
  | case1 limit location steps arrived hwalk =>
    have hfollowed := h.walk_isFollowed aim location steps
    rw [hwalk] at hfollowed
    cases hends
    have hother : aim ≠ .itself := by
      intro hitself
      rcases walk_arrived (fun hnil => absurd hnil hsome) hwalk with ⟨entry, hentry, -⟩
      cases (haim hitself).symm.trans hentry
    rw [FileTree.walkLinks, hfollowed hother]
  | case2 limit location steps missing hwalk =>
    have hfollowed := h.walk_isFollowed aim location steps
    rw [hwalk] at hfollowed
    cases hends
    rw [FileTree.walkLinks, hfollowed hreaches]
  | case3 | case4 => cases hends
  | case5 location steps directory target rest hwalk limit ih =>
    have hfollowed := h.walk_isFollowed aim location steps
    rw [hwalk] at hfollowed
    unfold FileTree.walkLinks
    rw [hfollowed]
    exact ih (fun hnil => segments_ne_nil target (List.append_eq_nil_iff.mp hnil).1) hends

/-- A path leads to what was put at its end, once everything that it passes by is there. -/
theorem Within.locate_target (h : Within tree after) {text : String} {place : Location}
    {found : Option Entry} (hends : tree.locate aim text = .ok ⟨place, found⟩)
    (haim : aim = .itself → found = none) {entry : Entry} (hentry : after.get? place = some entry)
    (hlink : ∀ target, entry ≠ .link target) :
    after.locate .target text = .ok ⟨place, some entry⟩ := by
  rcases bind_eq_ok_iff.mp hends with ⟨checked, hchecked, hwalks⟩
  rw [h.workingDirectory] at hwalks
  have htarget := h.walkLinks_target (segments_ne_nil text) hwalks haim
    ⟨entry, hentry, fun _ => hlink⟩
  rw [hentry] at htarget
  exact bind_eq_ok_iff.mpr ⟨checked, hchecked, htarget⟩

/-- A directory that a path leads to stays where it is. -/
theorem Within.resolve_directory (h : Within tree after) {path : Path} {place : Location}
    {entries : List (String × Entry)}
    (hresolve : tree.resolve path = .ok ⟨place, some (.directory entries)⟩) :
    ∃ others, after.resolve path = .ok ⟨place, some (.directory others)⟩ := by
  rcases h.locate hresolve with ⟨hentries, original, horiginal, hafter⟩
  rcases h.directory hentries with ⟨others, hothers⟩
  cases horiginal.symm.trans hothers
  exact ⟨others, hafter⟩

/-! ## Changes -/

variable {directories files : List Path}

/-- A path that a file can be written to leads to a place that accepts it. -/
theorem accepts_of_locate {text : String} {location : Location} {found : Option Entry}
    (hplace : tree.locate .writing text = .ok ⟨location, found⟩)
    (hfile : ∀ entries, found ≠ some (.directory entries)) (content : ByteArray) :
    tree.Accepts location (.file content) := by
  rcases found with - | old
  · rcases locate_none hplace with ⟨parent, name, entries, rfl, hparent, hnew⟩
    exact .file content hparent hnew
  · cases old with
    | file old => exact .replaced content (get?_of_locate hplace)
    | link target => exact absurd rfl (locate_some (by decide) hplace target)
    | directory entries => exact absurd rfl (hfile entries)

/-- A change puts something at a place that accepts it. If that is a file, one of the paths leads
there. -/
theorem Change.exists_put (h : Change directories files tree after) :
    ∃ location new, tree.Accepts location new ∧ after = tree.put location new ∧
      ∀ content, new = .file content → ∃ path ∈ files, ∃ found,
        tree.locate .writing path.text = .ok ⟨location, found⟩ := by
  cases h with
  | directory hwhole hpath hplace =>
    rcases locate_none hplace with ⟨parent, name, entries, rfl, hparent, hnew⟩
    exact ⟨_, _, .directory hparent hnew, rfl, nofun⟩
  | @file path place content hpath hplace hfile =>
    exact ⟨place.location, .file content, accepts_of_locate hplace hfile content, rfl,
      fun _ _ => ⟨path, hpath, place.entry, hplace⟩⟩

/-- A file that was written is where its path leads. -/
theorem exists_location_of_writeBytes {path : Path} {content : ByteArray}
    (hrun : (writeBytes path content).run tree = (.ok (), after)) :
    ∃ location found, tree.locate .writing path.text = .ok ⟨location, found⟩ ∧
      tree.Accepts location (.file content) ∧ after = tree.put location (.file content) := by
  unfold writeBytes at hrun
  rcases run_bind_eq_ok hrun with ⟨⟨location, found⟩, _, hplace, hrun⟩
  rw [run_reading, Prod.mk.injEq] at hplace
  rcases hplace with ⟨hplace, rfl⟩
  have hwritten : (∀ entries, found ≠ some (.directory entries)) ∧
      after = tree.put location (.file content) := by
    rcases found with - | entry
    · cases hrun
      exact ⟨nofun, rfl⟩
    · cases entry with
      | file | link =>
        cases hrun
        exact ⟨nofun, rfl⟩
      | directory => cases hrun
  exact ⟨location, found, hplace, accepts_of_locate hplace hwritten.1 content, hwritten.2⟩

/-- A tree grows by changes. -/
theorem Grows.of_changes (h : Relation.ReflTransGen (Change directories files) tree after) :
    Grows tree after := by
  induction h with
  | refl => exact .refl tree
  | tail _ hchange ih =>
    rcases hchange.exists_put with ⟨location, new, haccepts, rfl, -⟩
    exact ih.trans haccepts.grows

/-- A path that a file was written to leads to that file, however the tree grew in the meantime. -/
theorem Within.resolve_written {last : FileTree} {location : Location} {content : ByteArray}
    {path : Path} {found : Option Entry}
    (hplace : tree.locate .writing path.text = .ok ⟨location, found⟩)
    (haccepts : tree.Accepts location (.file content))
    (h : Within (tree.put location (.file content)) last) :
    ∃ final, last.resolve path = .ok ⟨location, some (.file final)⟩ := by
  have hput : (tree.put location (.file content)).get? location = some (.file content) :=
    Entry.get?_put _ _ _
  rcases h.root location _ hput with ⟨original, horiginal, hkind⟩
  cases hkind with
  | files _ final =>
    exact ⟨final, (haccepts.within_put.trans h).locate_target hplace nofun horiginal nofun⟩

/-- A file keeps its content if none of the paths leads to it in the end. -/
theorem file_kept_of_changes {last : FileTree}
    (h : Relation.ReflTransGen (Change directories files) tree after)
    (hlast : Within after last) {location : Location} {content : ByteArray}
    (hfile : tree.get? location = some (.file content))
    (hother : ∀ path ∈ files, ∀ place, last.resolve path = .ok place → place.location ≠ location) :
    after.get? location = some (.file content) := by
  induction h with
  | refl => exact hfile
  | tail _ hchange ih =>
    rcases hchange.exists_put with ⟨changed, new, haccepts, rfl, hwritten⟩
    have hkept := ih (haccepts.within_put.trans hlast)
    refine haccepts.get?_put_file hkept ?_
    rintro rfl
    -- Only a file takes the place of a file, and one of the paths leads there for good.
    rcases haccepts.exists_file hkept with ⟨before, written, -, rfl⟩
    rcases hwritten written rfl with ⟨path, hpath, found, hplace⟩
    rcases Within.resolve_written hplace haccepts hlast with ⟨final, hfinal⟩
    exact hother path hpath _ hfinal rfl

end FileTree

end RosInterface
