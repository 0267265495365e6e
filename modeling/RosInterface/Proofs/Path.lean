import RosInterface.Path
import RosInterface.Proofs.Text.Pieces

namespace RosInterface

/-! # Below a directory

Whether a path lies below a directory is told by the texts alone, once `.` and `..` are resolved:
`Path.StrictlyBelow` says that nothing but names is left behind the parts of the directory.

A text that is joined to a path may leave the directory again, since `..` leads up and a text that
starts at the root replaces the path. `Path.depthFrom` follows a text down and up from a depth below
a directory and gives up where it leaves that directory:

* `IsBelow.join` says that what is joined is as deep below the directory as `depthFrom` finds;
* `depthFrom_of_strictlyBelow` says that seen from the working directory, only texts for which it
  finds a depth lead below that directory.
-/

namespace Path

/-! ## Resolving `.` and `..` -/

/-- The parts of a path without a leading `.`, which leads nowhere. -/
def moves (path : Path) : List PathPart :=
  path.parts.filter (· != .here)

/-- Puts a part behind resolved ones. A parent takes the name before it away, and the root is the
parent of itself. -/
def advance (above : List PathPart) : PathPart → List PathPart
  | .root => [.root]
  | .here => above
  | .parent =>
    match above.getLast? with
    | some (.name _) => above.dropLast
    | some .root => above
    | _ => above ++ [.parent]
  | .name text => above ++ [.name text]

/-- The parts of a path once `.` and `..` are resolved. -/
def resolved (path : Path) : List PathPart :=
  path.moves.foldl advance []

/-- The path leads to a place that is `depth` names below the one that `output` leads to. -/
def IsBelow (path output : Path) (depth : Nat) : Prop :=
  ∃ names : List String, names.length = depth ∧
    path.resolved = output.resolved ++ names.map PathPart.name

/-- The path leads to a place below the one that `output` leads to, and not to that one itself. -/
def StrictlyBelow (path output : Path) : Prop :=
  ∃ depth, path.IsBelow output (depth + 1)

theorem IsBelow.refl (output : Path) : output.IsBelow output 0 :=
  ⟨[], rfl, (List.append_nil _).symm⟩

/-! ## Depths -/

/-- The depth that parts lead to from a depth below a directory, if they stay in the directory. -/
def descend : Nat → List PathPart → Option Nat
  | depth, [] => some depth
  | _, .root :: _ => none
  | depth, .here :: rest => descend depth rest
  | 0, .parent :: _ => none
  | depth + 1, .parent :: rest => descend depth rest
  | depth, .name _ :: rest => descend (depth + 1) rest

/-- The depth that a text leads to from a depth below a directory, if it stays in the directory. -/
def depthFrom (depth : Nat) (text : String) : Option Nat :=
  descend depth (Path.mk text).moves

theorem descend_append (depth : Nat) (front back : List PathPart) :
    descend depth (front ++ back) = (descend depth front).bind (descend · back) := by
  fun_induction descend depth front with
  | case1 depth => rfl
  | case2 | case4 => rfl
  | case3 depth rest ih | case5 depth rest ih | case6 depth text rest ih => exact ih

theorem advance_name (base : List PathPart) (names : List String) (text : String) :
    advance (base ++ names.map PathPart.name) (.name text) =
      base ++ (names ++ [text]).map PathPart.name := by
  simp [advance]

theorem advance_parent (base : List PathPart) (front : List String) (last : String) :
    advance (base ++ (front ++ [last]).map PathPart.name) .parent =
      base ++ front.map PathPart.name := by
  simp [advance, ← List.append_assoc]

theorem advance_names (names : List String) (text : String) :
    advance (names.map PathPart.name) (.name text) = (names ++ [text]).map PathPart.name :=
  advance_name [] names text

theorem advance_names_parent (front : List String) (last : String) :
    advance ((front ++ [last]).map PathPart.name) .parent = front.map PathPart.name :=
  advance_parent [] front last

/-- The names that parts are made of are told by the parts. -/
theorem map_name_injective : Function.Injective (List.map PathPart.name) :=
  List.map_injective_iff.mpr fun _ _ => PathPart.name.inj

/-- Parts that stay in a directory lead to names behind it, as many as they are deep. -/
theorem foldl_advance_of_descend {parts : List PathPart} {depth reached : Nat}
    (hdescend : descend depth parts = some reached) (base : List PathPart) {names : List String}
    (hnames : names.length = depth) :
    ∃ others : List String, others.length = reached ∧
      parts.foldl advance (base ++ names.map PathPart.name) = base ++ others.map PathPart.name := by
  fun_induction descend depth parts generalizing names with
  | case1 depth =>
    cases hdescend
    exact ⟨names, hnames, rfl⟩
  | case2 | case4 => cases hdescend
  | case3 depth rest ih => exact ih hdescend hnames
  | case5 depth rest ih =>
    -- There is a name to take away, since the depth is positive.
    rcases List.eq_nil_or_concat names with rfl | ⟨front, last, rfl⟩
    · cases hnames
    · rw [List.concat_eq_append] at hnames ⊢
      have hfront : front.length = depth := by simpa using hnames
      rw [List.foldl_cons, advance_parent]
      exact ih hdescend hfront
  | case6 depth text rest ih =>
    rw [List.foldl_cons, advance_name]
    exact ih hdescend (by rw [List.length_append, hnames]; rfl)

/-- The parts lead out of the working directory. -/
def Outside (parts : List PathPart) : Prop :=
  parts.head? = some .parent ∨ parts.head? = some .root

/-- Nothing leads back. -/
theorem Outside.advance {above : List PathPart} (h : Outside above) (part : PathPart) :
    Outside (advance above part) := by
  rcases above with - | ⟨first, rest⟩
  · rcases h with h | h
    · cases h
    · cases h
  · cases part with
    | root => exact Or.inr rfl
    | here | name => exact h
    | parent =>
      rcases rest with - | ⟨second, rest⟩
      · rcases h with h | h
        · cases h
          exact Or.inl rfl
        · cases h
          exact Or.inr rfl
      · -- What happens behind the first part does not matter.
        unfold Path.advance
        dsimp only
        split
        · exact h
        · exact h
        · exact h

theorem Outside.foldl {above : List PathPart} (h : Outside above) (parts : List PathPart) :
    Outside (parts.foldl Path.advance above) := by
  induction parts generalizing above with
  | nil => exact h
  | cons part rest ih => exact ih (h.advance part)

/-- Parts that leave the working directory lead out of it. -/
theorem outside_of_descend {parts : List PathPart} {depth : Nat}
    (hdescend : descend depth parts = none) {names : List String} (hnames : names.length = depth) :
    Outside (parts.foldl advance (names.map PathPart.name)) := by
  fun_induction descend depth parts generalizing names with
  | case1 => cases hdescend
  | case2 depth rest => exact Outside.foldl (Or.inr rfl) rest
  | case3 depth rest ih => exact ih hdescend hnames
  | case4 rest =>
    rw [List.length_eq_zero_iff] at hnames
    subst hnames
    exact Outside.foldl (Or.inl rfl) rest
  | case5 depth rest ih =>
    rcases List.eq_nil_or_concat names with rfl | ⟨front, last, rfl⟩
    · cases hnames
    · rw [List.concat_eq_append] at hnames ⊢
      have hfront : front.length = depth := by simpa using hnames
      rw [List.foldl_cons, advance_names_parent]
      exact ih hdescend hfront
  | case6 depth text rest ih =>
    rw [List.foldl_cons, advance_names]
    exact ih hdescend (by rw [List.length_append, hnames]; rfl)

/-! ## Joined paths -/

/-- A piece stands for the directory above, or for the name that it is. -/
theorem ofPiece_eq_some {piece : List Char} {part : PathPart}
    (hof : PathPart.ofPiece piece = some part) :
    part = .parent ∨
      (part = .name (String.ofList piece) ∧ String.ofList piece ∉ ["", ".", ".."]) := by
  unfold PathPart.ofPiece at hof
  split at hof
  · cases hof
  · cases hof
  · cases hof
    exact Or.inl rfl
  · rename_i hnil hdot hdots
    cases hof
    refine Or.inr ⟨rfl, fun hspecial => ?_⟩
    simp only [List.mem_cons, List.not_mem_nil, or_false] at hspecial
    rcases hspecial with hspecial | hspecial | hspecial
    · exact hnil (String.ofList_injective hspecial)
    · exact hdot (String.ofList_injective hspecial)
    · exact hdots (String.ofList_injective hspecial)

theorem moves_eq (path : Path) :
    path.moves = (if path.isAbsolute then [.root] else []) ++
      (Text.pieces (· == '/') path.text.toList).filterMap PathPart.ofPiece := by
  have hpiece : ∀ pieces : List (List Char),
      (pieces.filterMap PathPart.ofPiece).filter (· != .here) =
        pieces.filterMap PathPart.ofPiece := by
    intro pieces
    rw [List.filter_eq_self]
    intro part hpart
    rcases List.mem_filterMap.mp hpart with ⟨piece, -, hof⟩
    rcases ofPiece_eq_some hof with rfl | ⟨rfl, -⟩
    · rfl
    · rfl
  unfold moves parts
  split
  · rw [List.filter_cons_of_pos (by rfl), hpiece, List.singleton_append]
  · rw [List.nil_append]
    dsimp only
    split
    · rename_i rest hpieces
      rw [List.filter_cons_of_neg (by simp), hpiece, hpieces]
      rfl
    · exact hpiece _

/-- Behind a path that is not empty, a slash separates what is joined to it. -/
theorem exists_front_of_join_relative {text : String}
    (hrelative : (Path.mk text).isAbsolute = false) {base : Path} (hbase : base.text ≠ "") :
    ∃ front, (base.join text).text.toList = front ++ '/' :: text.toList ∧
      (base.text.toList = front ∨ base.text.toList = front ++ ['/']) := by
  unfold join
  rw [hrelative, if_neg Bool.false_ne_true]
  split
  · rename_i hclosed
    rcases Bool.or_eq_true_iff.mp hclosed with hempty | hslash
    · exact absurd (of_decide_eq_true hempty) hbase
    · have hsplit := (List.dropLast_append_getLast? _ (of_decide_eq_true hslash)).symm
      refine ⟨base.text.toList.dropLast, ?_, Or.inr hsplit⟩
      rw [String.toList_append, hsplit]
      simp
  · refine ⟨base.text.toList, ?_, Or.inl rfl⟩
    simp

/-- A text that does not start at the root is followed from where the path leads. -/
theorem moves_join {text : String} (hrelative : (Path.mk text).isAbsolute = false) (base : Path) :
    (base.join text).moves = base.moves ++ (Path.mk text).moves := by
  by_cases hbase : base.text = ""
  · have hjoin : base.join text = ⟨text⟩ := by
      simp [join, hrelative, hbase]
    have hnone : base.moves = [] := by
      rw [show base = ⟨""⟩ from congrArg Path.mk hbase]
      decide
    rw [hjoin, hnone, List.nil_append]
  · rcases exists_front_of_join_relative hrelative hbase with ⟨front, hjoin, hfront⟩
    have hpieces : (Text.pieces (· == '/') base.text.toList).filterMap PathPart.ofPiece =
        (Text.pieces (· == '/') front).filterMap PathPart.ofPiece := by
      rcases hfront with hfront | hfront
      · rw [hfront]
      · rw [hfront, Text.pieces_append_cons _ _ (by rfl), List.filterMap_append]
        exact List.append_nil _
    have habsolute : (base.join text).isAbsolute = base.isAbsolute := by
      unfold isAbsolute
      rcases hfront with hfront | hfront
      · rw [hjoin, hfront]
        cases front with
        | nil => exact absurd (String.toList_eq_nil_iff.mp hfront) hbase
        | cons => rfl
      · rw [hjoin, hfront]
        cases front with
        | nil => rfl
        | cons => rfl
    rw [moves_eq, moves_eq base, moves_eq ⟨text⟩, hrelative, habsolute, hpieces, hjoin,
      Text.pieces_append_cons _ _ (by rfl), List.filterMap_append, if_neg Bool.false_ne_true,
      List.nil_append, List.append_assoc]

/-- A text that starts at the root leaves every directory. -/
theorem isAbsolute_eq_false_of_depthFrom {depth reached : Nat} {text : String}
    (hdepth : depthFrom depth text = some reached) : (Path.mk text).isAbsolute = false := by
  rw [Bool.eq_false_iff]
  intro habsolute
  rw [depthFrom, moves_eq, if_pos habsolute, List.singleton_append, descend] at hdepth
  cases hdepth

/-- Parts behind those of a path lead as deep below a directory as they descend. -/
theorem IsBelow.of_moves {path base output : Path} {depth reached : Nat} {behind : List PathPart}
    (h : base.IsBelow output depth) (hmoves : path.moves = base.moves ++ behind)
    (hdescend : descend depth behind = some reached) : path.IsBelow output reached := by
  rcases h with ⟨names, hnames, hbase⟩
  rcases foldl_advance_of_descend hdescend output.resolved hnames with ⟨others, hothers, hresolved⟩
  refine ⟨others, hothers, ?_⟩
  rw [resolved, hmoves, List.foldl_append, ← resolved, hbase, hresolved]

/-- What is joined to a path is as deep below a directory as the text leads. -/
theorem IsBelow.join {base output : Path} {depth reached : Nat} {text : String}
    (h : base.IsBelow output depth) (hdepth : depthFrom depth text = some reached) :
    (base.join text).IsBelow output reached :=
  h.of_moves (moves_join (isAbsolute_eq_false_of_depthFrom hdepth) base) hdepth

/-! ## First parts -/

/-- The path has the first parts of another one, which passes by where it leads. -/
def IsFrontOf (path whole : Path) : Prop :=
  path.moves <+: whole.moves

theorem isFrontOf_join {depth reached : Nat} {text : String}
    (hdepth : depthFrom depth text = some reached) (base : Path) :
    base.IsFrontOf (base.join text) := by
  rw [IsFrontOf, moves_join (isAbsolute_eq_false_of_depthFrom hdepth)]
  exact List.prefix_append _ _

/-- What a joined path passes by, the path in front does as well, or it is in the directory that the
text stays in. -/
theorem IsFrontOf.of_join {path base output : Path} {depth reached : Nat} {text : String}
    (h : path.IsFrontOf (base.join text)) (hbase : base.IsBelow output depth)
    (hdepth : depthFrom depth text = some reached) :
    path.IsFrontOf base ∨ ∃ between, path.IsBelow output between := by
  have hmoves := moves_join (isAbsolute_eq_false_of_depthFrom hdepth) base
  rw [IsFrontOf, hmoves] at h
  rcases List.prefix_or_prefix_of_prefix h (List.prefix_append _ _) with hfront | ⟨behind, hpath⟩
  · exact Or.inl hfront
  · rw [← hpath, List.prefix_append_right_inj] at h
    rcases h with ⟨rest, hrest⟩
    rw [depthFrom, ← hrest, descend_append] at hdepth
    rcases Option.bind_eq_some_iff.mp hdepth with ⟨between, hbetween, -⟩
    exact Or.inr ⟨between, hbase.of_moves hpath.symm hbetween⟩

/-! ## Below the working directory -/

/-- A path that leads below the working directory never leaves it on its way. -/
theorem descend_of_strictlyBelow {path : Path} (h : path.StrictlyBelow ⟨""⟩) :
    ∃ depth, descend 0 path.moves = some (depth + 1) := by
  rcases h with ⟨depth, names, hnames, hresolved⟩
  have hbelow : path.resolved = names.map PathPart.name := hresolved
  cases hdescend : descend 0 path.moves with
  | none =>
    have houtside : Outside path.resolved := @outside_of_descend _ _ hdescend [] rfl
    rcases names with - | ⟨first, rest⟩
    · cases hnames
    · rw [hbelow] at houtside
      rcases houtside with h | h
      · cases h
      · cases h
  | some reached =>
    rcases @foldl_advance_of_descend _ _ _ hdescend [] [] rfl with ⟨others, hothers, hsame⟩
    have hlength : others.length = names.length := by
      have hnames : others.map PathPart.name = names.map PathPart.name :=
        hsame.symm.trans hbelow
      simpa using congrArg List.length hnames
    exact ⟨depth, congrArg some (by rw [← hothers, hlength, hnames])⟩

/-- What is joined to a path in the working directory and leads below it stays in it as well. -/
theorem depthFrom_of_strictlyBelow {base : Path} {depth : Nat} {text : String}
    (hbase : descend 0 base.moves = some depth) (h : (base.join text).StrictlyBelow ⟨""⟩) :
    ∃ reached, depthFrom depth text = some (reached + 1) ∧
      descend 0 (base.join text).moves = some (reached + 1) := by
  rcases descend_of_strictlyBelow h with ⟨reached, hdescend⟩
  refine ⟨reached, ?_, hdescend⟩
  cases hrelative : (Path.mk text).isAbsolute with
  | false =>
    rw [moves_join hrelative, descend_append, hbase] at hdescend
    exact hdescend
  | true =>
    rw [join, if_pos hrelative, moves_eq, if_pos hrelative, List.singleton_append, descend]
      at hdescend
    cases hdescend

/-! ## Plain names -/

/-- The text is a name of an entry, and neither of the two names that every directory has. -/
def IsPlain (text : String) : Prop :=
  '/' ∉ text.toList ∧ text ∉ ["", ".", ".."]

/-- Only dots are no names. -/
theorem isPlain_of_mem {text : String} (hslash : '/' ∉ text.toList) {c : Char}
    (hmem : c ∈ text.toList) (hdot : c ≠ '.') : IsPlain text := by
  refine ⟨hslash, ?_⟩
  intro hspecial
  simp only [List.mem_cons, List.not_mem_nil, or_false] at hspecial
  rcases hspecial with rfl | rfl | rfl
  · simp at hmem
  · simp at hmem
    exact hdot hmem
  · simp at hmem
    exact hdot hmem

/-- A name with an extension is plain. -/
theorem isPlain_append {text extension : String} (hslash : '/' ∉ text.toList)
    (hother : '/' ∉ extension.toList) {c : Char} (hc : c ∈ extension.toList) (hdot : c ≠ '.') :
    IsPlain (text ++ extension) := by
  refine isPlain_of_mem ?_ ?_ hdot
  · rw [String.toList_append, List.mem_append]
    exact fun hmem => hmem.elim hslash hother
  · rw [String.toList_append, List.mem_append]
    exact Or.inr hc

theorem isAbsolute_of_slashless {text : String} (hslash : '/' ∉ text.toList) :
    (Path.mk text).isAbsolute = false := by
  rw [isAbsolute, beq_eq_false_iff_ne]
  exact fun hhead => hslash (List.mem_of_mem_head? hhead)

/-- A text without a slash is at most one part. -/
theorem depthFrom_of_slashless {text : String} (hslash : '/' ∉ text.toList) (depth : Nat) :
    depthFrom depth text = descend depth (PathPart.ofPiece text.toList).toList := by
  rw [depthFrom, moves_eq, isAbsolute_of_slashless hslash, if_neg Bool.false_ne_true,
    List.nil_append, Text.pieces_eq_singleton hslash, List.filterMap_cons]
  cases PathPart.ofPiece text.toList with
  | none => rfl
  | some part => rfl

theorem IsPlain.toList_ne {text : String} (h : IsPlain text) {special : List Char}
    (hspecial : String.ofList special ∈ ["", ".", ".."]) : text.toList ≠ special := by
  rintro rfl
  rw [String.ofList_toList] at hspecial
  exact h.2 hspecial

/-- A plain name is a part of its own. -/
theorem IsPlain.ofPiece_eq {text : String} (h : IsPlain text) :
    PathPart.ofPiece text.toList = some (.name text) := by
  unfold PathPart.ofPiece
  split
  · rename_i hnil
    exact absurd hnil (h.toList_ne (by decide))
  · rename_i hdot
    exact absurd hdot (h.toList_ne (by decide))
  · rename_i hdots
    exact absurd hdots (h.toList_ne (by decide))
  · rw [String.ofList_toList]

/-- A plain name leads one step down. -/
theorem IsPlain.depthFrom {text : String} (h : IsPlain text) (depth : Nat) :
    Path.depthFrom depth text = some (depth + 1) := by
  rw [depthFrom_of_slashless h.1, h.ofPiece_eq]
  rfl

/-- From a directory itself, nothing else without a slash leads below it. -/
theorem isPlain_of_depthFrom {text : String} (hslash : '/' ∉ text.toList) {reached : Nat}
    (hdepth : Path.depthFrom 0 text = some (reached + 1)) : IsPlain text := by
  refine ⟨hslash, ?_⟩
  intro hspecial
  rw [depthFrom_of_slashless hslash] at hdepth
  simp only [List.mem_cons, List.not_mem_nil, or_false] at hspecial
  rcases hspecial with rfl | rfl | rfl
  · cases hdepth
  · cases hdepth
  · cases hdepth

/-- The names in a path are plain. -/
theorem isPlain_of_mem_moves {path : Path} {text : String}
    (hmem : PathPart.name text ∈ path.moves) : IsPlain text := by
  rw [moves_eq, List.mem_append] at hmem
  rcases hmem with hroot | hpiece
  · split at hroot
    · simp at hroot
    · cases hroot
  · rcases List.mem_filterMap.mp hpiece with ⟨piece, hfound, hof⟩
    rcases ofPiece_eq_some hof with hparent | ⟨hname, hspecial⟩
    · cases hparent
    · cases hname
      refine ⟨?_, hspecial⟩
      rw [String.toList_ofList]
      exact fun hslash => absurd (Text.mem_of_mem_piece hfound hslash).2 (by decide)

/-- Only the first part of a path is the root. -/
theorem root_not_mem_tail (path : Path) : PathPart.root ∉ path.parts.tail := by
  have hpieces : ∀ pieces : List (List Char), .root ∉ pieces.filterMap PathPart.ofPiece := by
    intro pieces hmem
    rcases List.mem_filterMap.mp hmem with ⟨piece, -, hof⟩
    rcases ofPiece_eq_some hof with hparent | ⟨hname, -⟩
    · cases hparent
    · cases hname
  unfold parts
  dsimp only
  split
  · exact hpieces _
  · split
    · exact hpieces _
    · exact fun hmem => hpieces _ (List.mem_of_mem_tail hmem)

end Path

end RosInterface
