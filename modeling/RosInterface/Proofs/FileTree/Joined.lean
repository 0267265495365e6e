import RosInterface.Proofs.FileTree.Growth
import RosInterface.Proofs.FileTree.Locations
import RosInterface.Proofs.Text.Blanks

namespace RosInterface

/-! # Where joined paths lead

What is joined to the path of a directory is followed from that directory, so where it leads is a
matter of the directory alone. If no link is below it, `.` and `..` are resolved as they are in
texts: `FileTree.resolve_join` says that a text which stays in the directory leads to the names that
are left of it.

At the end of a path stands the name of what it leads to, unless that is a link:
`FileTree.resolve_last` needs no more than that.
-/

/-! ## Joining twice -/

namespace Path

/-- What stands between a path and what is joined to it. -/
def separator (base : Path) : String :=
  if base.text = "" || base.text.toList.getLast? = some '/' then "" else "/"

theorem join_eq {text : String} (hrelative : (Path.mk text).isAbsolute = false) (base : Path) :
    base.join text = ⟨base.text ++ base.separator ++ text⟩ := by
  unfold join separator
  rw [hrelative, if_neg Bool.false_ne_true]
  split
  · rw [String.append_empty]
  · rfl

/-- Behind a text that is not empty, only its own end matters. -/
theorem separator_append {front text : String} (hsome : text ≠ "") :
    separator ⟨front ++ text⟩ = separator ⟨text⟩ := by
  have hlist : text.toList ≠ [] := fun hnil => hsome (String.toList_eq_nil_iff.mp hnil)
  have hempty : front ++ text ≠ "" := by
    intro hnone
    have hnil := congrArg String.toList hnone
    rw [String.toList_append] at hnil
    exact hlist (List.append_eq_nil_iff.mp hnil).2
  unfold separator
  rw [decide_eq_false hempty, decide_eq_false hsome, String.toList_append,
    List.getLast?_append_of_ne_nil _ hlist]

/-- Joining one text after the other is joining the joined texts. -/
theorem join_join {text next : String} (hrelative : (Path.mk text).isAbsolute = false)
    (hnext : (Path.mk next).isAbsolute = false) (hsome : text ≠ "") (base : Path) :
    (base.join text).join next = base.join ((Path.mk text).join next).text := by
  have hjoined : (Path.mk ((Path.mk text).join next).text).isAbsolute = false := by
    rw [join_eq hnext, isAbsolute, String.toList_append, String.toList_append]
    rw [isAbsolute] at hrelative
    cases hlist : text.toList with
    | nil => exact absurd (String.toList_eq_nil_iff.mp hlist) hsome
    | cons first rest =>
      rw [hlist] at hrelative
      exact hrelative
  rw [join_eq hjoined, join_eq hnext, join_eq hnext, join_eq hrelative, separator_append hsome]
  simp only [String.append_assoc]

/-- A plain name is put behind the names that a text comes to. -/
theorem resolved_join {text name : String} {names : List String} (hname : IsPlain name)
    (hresolved : (Path.mk text).resolved = names.map .name) :
    ((Path.mk text).join name).resolved = (names ++ [name]).map .name := by
  have hmoves : (Path.mk name).moves = [.name name] := by
    rw [moves_eq, isAbsolute_of_slashless hname.1, if_neg Bool.false_ne_true, List.nil_append,
      Text.pieces_eq_singleton hname.1, List.filterMap_cons_some hname.ofPiece_eq]
    rfl
  rw [resolved, moves_join (isAbsolute_of_slashless hname.1), List.foldl_append, ← resolved,
    hresolved, hmoves, List.foldl_cons, advance_names]
  rfl

end Path

namespace FileTree

variable {tree : FileTree} {aim : Aim}

/-! ## Walking on -/

/-- Goes on with more steps from where a walk got. -/
def Walk.goOn (tree : FileTree) (steps : List Segment) : Walk → Walk
  | arrived location => walk tree .target location steps
  | missing location => if steps.isEmpty then .missing location else .failed .notFound
  | linked directory target rest => .linked directory target (rest ++ steps)
  | failed error => .failed error

theorem walk_append (location : Location) (steps others : List Segment) :
    walk tree .target location (steps ++ others) =
      (walk tree .target location steps).goOn tree others := by
  induction steps generalizing location with
  | nil => rfl
  | cons step rest ih =>
    rw [List.cons_append, walk, walk]
    rcases tree.get? location with - | - | - | entries
    · rfl
    · rfl
    · rfl
    · cases step with
      | stay | slash => exact ih location
      | up => exact ih location.dropLast
      | enter name =>
        simp only [reduceCtorEq, decide_false, Bool.false_and, Bool.and_false, Bool.false_eq_true,
          if_false]
        by_cases hlimit : nameLimit < name.utf8ByteSize
        · rw [if_pos hlimit, if_pos hlimit]
          rfl
        · rw [if_neg hlimit, if_neg hlimit]
          rcases entries.lookup name with - | - | - | -
          · cases rest with
            | nil => rfl
            | cons => rfl
          · exact ih _
          · rfl
          · exact ih _

/-- Behind a path that leads to something, more steps are taken from there. -/
theorem walkLinks_append {limit : Nat} {location place : Location} {steps : List Segment}
    {entry : Entry} (hends : walkLinks tree .target limit location steps = .ok ⟨place, some entry⟩)
    (others : List Segment) :
    ∃ fewer, walkLinks tree .target limit location (steps ++ others) =
      walkLinks tree .target fewer place others := by
  fun_induction walkLinks tree .target limit location steps with
  | case1 limit location steps arrived hwalk =>
    rw [Except.ok.injEq, Place.mk.injEq] at hends
    rcases hends with ⟨rfl, -⟩
    have happend := @walk_append tree location steps others
    rw [hwalk] at happend
    exact ⟨limit, walkLinks_congr happend limit⟩
  | case2 | case3 | case4 => cases hends
  | case5 location steps directory target rest hwalk limit ih =>
    rcases ih hends with ⟨fewer, hrest⟩
    have happend := @walk_append tree location steps others
    rw [hwalk] at happend
    refine ⟨fewer, ?_⟩
    rw [List.append_assoc] at hrest
    rw [walkLinks, happend]
    exact hrest

/-- A path that ends with a name is not closed by a slash. -/
theorem EndsWithName.text_ne (h : EndsWithName path) (front : List Char) :
    path.text ≠ "" ∧ path.text.toList ≠ front ++ ['/'] := by
  rcases h.last with ⟨name, hlast⟩
  constructor
  · intro hnone
    rw [hnone] at hlast
    cases hlast
  · intro hclosed
    rw [segments, hclosed, Text.pieces_append_cons _ _ (by rfl), List.map_append,
      List.getLast?_append] at hlast
    cases hlast

/-- What is joined to the path of a directory is followed from that directory. -/
theorem exists_walkLinks_of_resolve_join {base : Path} (hname : EndsWithName base)
    {location : Location} {entry : Entry} (hbase : tree.resolve base = .ok ⟨location, some entry⟩)
    {text : String} (hrelative : (Path.mk text).isAbsolute = false) {place : Place}
    (hends : tree.resolve (base.join text) = .ok place) :
    ∃ fewer, walkLinks tree .target fewer location (segments text) = .ok place := by
  rcases bind_eq_ok_iff.mp hbase with ⟨-, -, hwalks⟩
  rcases bind_eq_ok_iff.mp hends with ⟨-, -, hjoined⟩
  rcases Path.exists_front_of_join_relative hrelative (hname.text_ne []).1 with
    ⟨front, htext, hfront⟩
  have hopen : base.text.toList = front := hfront.resolve_right (hname.text_ne front).2
  have hsegments : segments (base.join text).text = segments base.text ++ segments text := by
    rw [segments, htext, ← hopen, Text.pieces_append_cons _ _ (by rfl), List.map_append]
    rfl
  have horigin : origin tree.workingDirectory (base.join text).text =
      origin tree.workingDirectory base.text := by
    have habsolute : (base.join text).isAbsolute = base.isAbsolute := by
      rw [Path.isAbsolute, Path.isAbsolute, htext, ← hopen]
      cases hlist : base.text.toList with
      | nil => exact absurd (String.toList_eq_nil_iff.mp hlist) (hname.text_ne []).1
      | cons => rfl
    unfold origin
    rw [habsolute]
  rcases walkLinks_append hwalks (segments text) with ⟨fewer, hfewer⟩
  rw [hsegments, horigin, hfewer] at hjoined
  exact ⟨fewer, hjoined⟩

/-! ## Directories without links -/

/-- There is no link below the location. -/
def LinkFree (tree : FileTree) (base : Location) : Prop :=
  ∀ below target, tree.get? (base ++ below) ≠ some (.link target)

/-- The walk follows no link, and ends at the location if it ends. -/
def Walk.EndsAt (location : Location) : Walk → Prop
  | arrived place | missing place => place = location
  | linked .. => False
  | failed _ => True

/-- A piece of a text means the same to a walk as to the text. -/
theorem ofPiece_cases (piece : List Char) :
    (Segment.ofPiece piece ∈ [.stay, .slash] ∧ PathPart.ofPiece piece = none) ∨
      (Segment.ofPiece piece = .up ∧ PathPart.ofPiece piece = some .parent) ∨
      ∃ name, Segment.ofPiece piece = .enter name ∧ PathPart.ofPiece piece = some (.name name) := by
  by_cases hempty : piece = []
  · subst hempty
    exact Or.inl ⟨List.mem_cons_of_mem _ List.mem_cons_self, rfl⟩
  by_cases hdot : piece = ['.']
  · subst hdot
    exact Or.inl ⟨List.mem_cons_self, rfl⟩
  by_cases hdots : piece = ['.', '.']
  · subst hdots
    exact Or.inr (Or.inl ⟨rfl, rfl⟩)
  have hstep : Segment.ofPiece piece = .enter (String.ofList piece) := by
    unfold Segment.ofPiece
    split
    · contradiction
    · contradiction
    · contradiction
    · rfl
  have hpart : PathPart.ofPiece piece = some (.name (String.ofList piece)) := by
    unfold PathPart.ofPiece
    split
    · contradiction
    · contradiction
    · contradiction
    · rfl
  exact Or.inr (Or.inr ⟨_, hstep, hpart⟩)

/-- A walk from an entry of a directory without links ends where the one over its name does. -/
theorem Walk.EndsAt.enter {base names goal : Location} (hfree : tree.LinkFree base)
    {entries : List (String × Entry)} (hfound : tree.get? (base ++ names) = some (.directory entries))
    (name : String) {steps : List Segment}
    (hrest : (walk tree .target (base ++ (names ++ [name])) steps).EndsAt goal)
    (hlast : steps = [] → base ++ (names ++ [name]) = goal) :
    (walk tree .target (base ++ names) (.enter name :: steps)).EndsAt goal := by
  rw [← List.append_assoc] at hrest hlast
  rw [walk, hfound]
  simp only [reduceCtorEq, decide_false, Bool.false_and, Bool.and_false, Bool.false_eq_true,
    if_false]
  split
  · exact trivial
  · rcases hlookup : entries.lookup name with - | - | target | -
    · cases steps with
      | nil => exact hlast rfl
      | cons => exact trivial
    · exact hrest
    · -- No link is there to be followed.
      have hlink := (get?_concat hfound name).trans hlookup
      rw [List.append_assoc] at hlink
      exact absurd hlink (hfree _ _)
    · exact hrest

/-- From a directory without links, pieces lead to the names that they come to, as long as they do
not leave it. -/
theorem walk_below {base : Location} (hfree : tree.LinkFree base) {pieces : List (List Char)}
    {names others : List String} {depth : Nat}
    (hdescend : Path.descend names.length (pieces.filterMap PathPart.ofPiece) = some depth)
    (hothers : (pieces.filterMap PathPart.ofPiece).foldl Path.advance (names.map .name) =
      others.map .name) :
    (walk tree .target (base ++ names) (pieces.map Segment.ofPiece)).EndsAt (base ++ others) := by
  induction pieces generalizing names with
  | nil =>
    have hsame : names = others := Path.map_name_injective hothers
    exact hsame ▸ rfl
  | cons piece rest ih =>
    rw [List.map_cons, walk]
    rcases hfound : tree.get? (base ++ names) with - | - | - | entries
    · exact trivial
    · exact trivial
    · exact trivial
    · rcases ofPiece_cases piece with ⟨hstep, hpart⟩ | ⟨hstep, hpart⟩ | ⟨name, hstep, hpart⟩
      · rw [List.filterMap_cons_none hpart] at hdescend hothers
        rcases List.mem_pair.mp hstep with hstep | hstep
        · rw [hstep]
          exact ih hdescend hothers
        · rw [hstep]
          exact ih hdescend hothers
      · -- There is a name to take away, since the pieces do not leave the directory.
        rw [List.filterMap_cons_some hpart] at hdescend hothers
        rw [hstep]
        rcases List.eq_nil_or_concat names with rfl | ⟨front, last, rfl⟩
        · cases hdescend
        · rw [List.concat_eq_append] at hdescend hothers ⊢
          rw [List.length_append, List.length_singleton] at hdescend
          rw [List.foldl_cons, Path.advance_names_parent] at hothers
          dsimp only
          rw [← List.append_assoc, List.dropLast_concat]
          exact ih hdescend hothers
      · rw [List.filterMap_cons_some hpart] at hdescend hothers
        rw [List.foldl_cons, Path.advance_names] at hothers
        have hdeeper : Path.descend (names ++ [name]).length (rest.filterMap PathPart.ofPiece) =
            some depth := by
          rw [List.length_append]
          exact hdescend
        have hrest := ih hdeeper hothers
        have hentered := Walk.EndsAt.enter hfree hfound name hrest fun hlast => by
          obtain rfl := List.map_eq_nil_iff.mp hlast
          rw [Path.map_name_injective hothers]
        rw [walk, hfound] at hentered
        rw [hstep]
        exact hentered

/-- A text that stays in a directory without links leads to the names that it comes to. -/
theorem resolve_join {base : Path} (hname : EndsWithName base) {location : Location}
    {entry : Entry} (hbase : tree.resolve base = .ok ⟨location, some entry⟩)
    (hfree : tree.LinkFree location) {text : String} {depth : Nat}
    (hdepth : Path.depthFrom 0 text = some depth) {place : Place}
    (hends : tree.resolve (base.join text) = .ok place) {names : List String}
    (hnames : (Path.mk text).resolved = names.map .name) : place.location = location ++ names := by
  have hrelative := Path.isAbsolute_eq_false_of_depthFrom hdepth
  rcases exists_walkLinks_of_resolve_join hname hbase hrelative hends with ⟨fewer, hwalks⟩
  have hmoves : (Path.mk text).moves =
      (Text.pieces (· == '/') text.toList).filterMap PathPart.ofPiece := by
    rw [Path.moves_eq, hrelative, if_neg Bool.false_ne_true, List.nil_append]
  rw [Path.depthFrom, hmoves] at hdepth
  rw [Path.resolved, hmoves] at hnames
  have hwalk := @walk_below tree location hfree _ [] names depth hdepth hnames
  rw [List.append_nil] at hwalk
  rw [segments, walkLinks] at hwalks
  revert hwalk hwalks
  rcases walk tree .target location _ with arrived | missing | - | -
  · intro hwalks hwalk
    cases hwalks
    exact hwalk
  · intro hwalks hwalk
    cases hwalks
    exact hwalk
  · exact fun _ hwalk => hwalk.elim
  · intro hwalks
    cases hwalks

/-! ## Names at the end of paths -/

/-- Following links makes a difference to a walk only at a link in its way, or at its end. -/
theorem walk_target_eq (location : Location) (steps : List Segment) :
    walk tree .target location steps = walk tree .itself location steps ∨
      ∃ place target, walk tree .itself location steps = .arrived place ∧
        tree.get? place = some (.link target) := by
  induction steps generalizing location with
  | nil => exact Or.inl rfl
  | cons step rest ih =>
    rw [walk, walk]
    rcases hfound : tree.get? location with - | - | - | entries
    · exact Or.inl rfl
    · exact Or.inl rfl
    · exact Or.inl rfl
    · cases step with
      | stay | slash => exact ih location
      | up => exact ih location.dropLast
      | enter name =>
        simp only [reduceCtorEq, decide_false, Bool.false_and, Bool.and_false, Bool.false_eq_true,
          if_false, decide_true, Bool.and_true]
        split
        · exact Or.inl rfl
        · rcases hlookup : entries.lookup name with - | - | target | -
          · exact Or.inl rfl
          · exact ih _
          · cases rest with
            | nil => exact Or.inr ⟨_, target, rfl, (get?_concat hfound name).trans hlookup⟩
            | cons => exact Or.inl rfl
          · exact ih _

theorem walkLinks_last {limit : Nat} {location : Location} {steps : List Segment} {name : String}
    (hlast : steps.getLast? = some (.enter name)) {place : Place}
    (hends : walkLinks tree .target limit location steps = .ok place) :
    place.location.getLast? = some name ∨ ∃ linked target,
      walkLinks tree .itself limit location steps = .ok ⟨linked, some (.link target)⟩ := by
  have hnamed := @walk_endsWith tree location steps name hlast
  have hsame := @walk_target_eq tree location steps
  fun_induction walkLinks tree .target limit location steps with
  | case1 limit location steps arrived hwalk =>
    cases hends
    rcases hsame with hsame | ⟨linked, target, hitself, hlink⟩
    · rw [← hsame, hwalk] at hnamed
      exact Or.inl hnamed
    · rw [walkLinks, hitself]
      exact Or.inr ⟨linked, target, by rw [← hlink]⟩
  | case2 limit location steps missing hwalk =>
    cases hends
    rcases hsame with hsame | ⟨linked, target, hitself, hlink⟩
    · rw [← hsame, hwalk] at hnamed
      exact Or.inl hnamed
    · rw [walkLinks, hitself]
      exact Or.inr ⟨linked, target, by rw [← hlink]⟩
  | case3 | case4 => cases hends
  | case5 location steps directory target rest hwalk limit ih =>
    rcases hsame with hsame | ⟨linked, target, hitself, hlink⟩
    · rw [hsame] at hwalk
      rw [hwalk] at hnamed
      have hrest : (segments target ++ rest).getLast? = some (.enter name) := by
        rw [List.getLast?_append, hnamed]
        rfl
      rw [walkLinks, hwalk]
      exact ih hrest hends (walk_endsWith hrest) (walk_target_eq _ _)
    · rw [walkLinks, hitself]
      exact Or.inr ⟨linked, target, by rw [← hlink]⟩

/-- A path that ends with a name leads to an entry of that name, unless it is the path of a link. -/
theorem resolve_last {name : String} (hname : IsName name) {base : Path} {place : Place}
    (hends : tree.resolve (base.join name) = .ok place) :
    place.location.getLast? = some name ∨ ∃ linked target,
      tree.locate .itself (base.join name).text = .ok ⟨linked, some (.link target)⟩ := by
  rcases bind_eq_ok_iff.mp hends with ⟨checked, hchecked, hwalks⟩
  rcases walkLinks_last (hname.getLast?_segments base) hwalks with hlast | ⟨linked, target, hlink⟩
  · exact Or.inl hlast
  · exact Or.inr ⟨linked, target, bind_eq_ok_iff.mpr ⟨checked, hchecked, hlink⟩⟩

/-! ## Directories that are created -/

variable {after : FileTree} {path : Path}

/-- Slashes behind a directory lead nowhere. -/
theorem walk_slashes {location : Location} {entries : List (String × Entry)}
    (hdirectory : tree.get? location = some (.directory entries)) {steps : List Segment}
    (hsteps : ∀ step ∈ steps, step = .slash) :
    walk tree aim location steps = .arrived location := by
  induction steps with
  | nil => rfl
  | cons step rest ih =>
    rw [List.forall_mem_cons] at hsteps
    rw [hsteps.1, walk, hdirectory]
    exact ih hsteps.2

/-- A text goes on with nothing but slashes where they are dropped. -/
theorem segments_dropSlashes (text : String) :
    (Path.mk text).isAbsolute = (Path.mk (dropSlashes text)).isAbsolute ∧
      ∃ slashes, (∀ step ∈ slashes, step = .slash) ∧
        segments text = segments (dropSlashes text) ++ slashes := by
  rcases Text.exists_dropEnd (· == '/') text.toList with ⟨gap, hgap, htext⟩
  unfold dropSlashes
  split
  · exact ⟨rfl, [], nofun, (List.append_nil _).symm⟩
  · rename_i hkept
    constructor
    · rw [Path.isAbsolute, Path.isAbsolute, String.toList_ofList]
      cases hlist : Text.dropEnd (· == '/') text.toList with
      | nil => exact absurd hlist hkept
      | cons first rest =>
        rw [htext, hlist]
        rfl
    · cases gap with
      | nil =>
        rw [List.append_nil] at htext
        refine ⟨[], nofun, ?_⟩
        rw [List.append_nil, ← htext, String.ofList_toList]
      | cons first rest =>
        rw [List.forall_mem_cons] at hgap
        refine ⟨(Text.pieces (· == '/') rest).map Segment.ofPiece, ?_, ?_⟩
        · intro step hstep
          rcases List.mem_map.mp hstep with ⟨piece, hpiece, rfl⟩
          -- A piece of slashes has no characters.
          have hnil : piece = [] := by
            refine List.eq_nil_iff_forall_not_mem.mpr fun c hc => ?_
            rcases Text.mem_of_mem_piece hpiece hc with ⟨hmem, hother⟩
            rw [hgap.2 c hmem] at hother
            cases hother
          rw [hnil]
          rfl
        · have hpieces := Text.pieces_append_cons (· == '/')
            (Text.dropEnd (· == '/') text.toList) hgap.1 rest
          rw [← htext] at hpieces
          rw [segments, segments, String.toList_ofList, hpieces, List.map_append]

/-- A directory that was created is what its path leads to. -/
theorem resolve_of_makeDirectory (hrun : (makeDirectory path).run tree = (.ok (), after)) :
    ∃ location, tree.locate .itself (dropSlashes path.text) = .ok ⟨location, none⟩ ∧
      after = tree.put location (.directory []) ∧
      after.resolve path = .ok ⟨location, some (.directory [])⟩ := by
  unfold makeDirectory at hrun
  rcases run_bind_eq_ok hrun with ⟨checked, _, hchecked, hrun⟩
  rcases run_bind_eq_ok hrun with ⟨⟨location, found⟩, _, hplace, hrun⟩
  rw [run_reading, Prod.mk.injEq] at hchecked hplace
  rcases hchecked with ⟨hchecked, rfl⟩
  rcases hplace with ⟨hplace, rfl⟩
  cases found with
  | some entry => cases hrun
  | none =>
    cases hrun
    refine ⟨location, hplace, rfl, ?_⟩
    rcases locate_none hplace with ⟨parent, name, entries, rfl, hparent, hnew⟩
    have hput : (tree.put (parent ++ [name]) (.directory [])).get? (parent ++ [name]) =
        some (.directory []) := Entry.get?_put _ _ _
    have hdropped := (Accepts.directory hparent hnew).within_put.locate_target hplace
      (fun _ => rfl) hput nofun
    rcases bind_eq_ok_iff.mp hdropped with ⟨-, -, hwalks⟩
    rcases segments_dropSlashes path.text with ⟨habsolute, slashes, hslashes, hsegments⟩
    rcases walkLinks_append hwalks slashes with ⟨fewer, hfewer⟩
    refine bind_eq_ok_iff.mpr ⟨checked, hchecked, ?_⟩
    rw [origin, habsolute, hsegments]
    refine hfewer.trans ?_
    rw [walkLinks, walk_slashes hput hslashes]
    exact congrArg (fun entry => Except.ok (Place.mk _ entry)) hput

/-- After directories were created with success, their path leads to a directory. -/
theorem isDirectory_of_makeDirectories (hparts : path.parts ≠ [])
    (hrun : (makeDirectories path).run tree = (.ok (), after)) : after.isDirectory path = true := by
  have hunless : ∀ {error before}, (unlessDirectory path error).run before = (.ok (), after) →
      after.isDirectory path = true := by
    intro error before hrun
    unfold unlessDirectory at hrun
    rcases run_bind_eq_ok hrun with ⟨current, _, hcurrent, hrun⟩
    cases hcurrent
    split at hrun
    · rename_i hdirectory
      cases hrun
      exact hdirectory
    · cases hrun
  have hmade : ∀ {before}, (makeDirectory path).run before = (.ok (), after) →
      after.isDirectory path = true := by
    intro before hrun
    rcases resolve_of_makeDirectory hrun with ⟨location, -, -, hresolve⟩
    exact isDirectory_eq_true_iff.mpr ⟨location, [], hresolve⟩
  obtain ⟨depth, hdepth⟩ : ∃ depth, path.parts.length = depth + 1 :=
    Nat.exists_eq_succ_of_ne_zero fun hzero => hparts (List.length_eq_zero_iff.mp hzero)
  rw [makeDirectories, hdepth, makeDirectoriesWithin] at hrun
  rcases run_bind_eq_ok hrun with ⟨outcome, between, hattempt, hrun⟩
  rcases Prod.mk.inj hattempt with ⟨houtcome, hbetween⟩
  split at hrun
  · cases hrun
    exact hmade (Prod.ext (Except.ok.inj houtcome) hbetween)
  · rcases run_bind_eq_ok hrun with ⟨-, prepared, -, hrun⟩
    rw [run_tryCatch] at hrun
    rcases hsecond : (makeDirectory path).run prepared with ⟨error | _, last⟩
    · rw [hsecond] at hrun
      exact hunless hrun
    · rw [hsecond] at hrun
      cases hrun
      exact hmade hsecond
  · exact hunless hrun

end FileTree

end RosInterface
