import RosInterface.FileTree.Actions
import RosInterface.Proofs.Path

namespace RosInterface.FileTree

/-! # Parents of a path

The parents of a path are written anew from its first parts. `isFrontOf_textOfParts` says that they
come to what the path passes by: only slashes and dots that lead nowhere get lost.
-/

/-- The text between slashes that a part is written as. -/
def pieceOf? : PathPart → Option String
  | .root => none
  | .here => some "."
  | .parent => some ".."
  | .name text => some text

theorem textOfParts_eq (parts : List PathPart) :
    textOfParts parts =
      let relative := "/".intercalate (parts.filterMap pieceOf?)
      if parts.head? = some .root then "/" ++ relative else relative :=
  rfl

/-- Behind the root, parts are what their texts stand for, if the names are plain. -/
theorem filterMap_ofPiece {parts : List PathPart} (hroot : .root ∉ parts)
    (hnames : ∀ text, .name text ∈ parts → Path.IsPlain text) :
    ((parts.filterMap pieceOf?).map String.toList).filterMap PathPart.ofPiece =
      parts.filter (· != .here) := by
  induction parts with
  | nil => rfl
  | cons part rest ih =>
    have hrest := ih (fun hmem => hroot (List.mem_cons_of_mem part hmem))
      fun text hmem => hnames text (List.mem_cons_of_mem part hmem)
    cases part with
    | root => exact absurd List.mem_cons_self hroot
    | here => exact hrest
    | parent => exact congrArg (PathPart.parent :: ·) hrest
    | name text =>
      rw [List.filterMap_cons_some (by rfl), List.map_cons,
        List.filterMap_cons_some (hnames text List.mem_cons_self).ofPiece_eq, hrest]
      rfl

theorem pieces_textOfParts {parts : List PathPart} (hroot : .root ∉ parts)
    (hnames : ∀ text, .name text ∈ parts → Path.IsPlain text) (hsome : parts ≠ []) :
    Text.pieces (· == '/') (textOfParts parts).toList =
      (parts.filterMap pieceOf?).map String.toList ∧
    [] ∉ (parts.filterMap pieceOf?).map String.toList := by
  have htexts : ∀ piece ∈ (parts.filterMap pieceOf?).map String.toList,
      '/' ∉ piece ∧ piece ≠ [] := by
    intro piece hpiece
    rcases List.mem_map.mp hpiece with ⟨text, htext, rfl⟩
    rcases List.mem_filterMap.mp htext with ⟨part, hpart, hof⟩
    cases part with
    | root => cases hof
    | here | parent =>
      cases hof
      decide
    | name name =>
      cases hof
      rcases hnames text hpart with ⟨hslash, hspecial⟩
      refine ⟨hslash, fun hnil => hspecial ?_⟩
      rw [String.toList_eq_nil_iff.mp hnil]
      exact List.mem_cons_self
  have hhead : parts.head? ≠ some .root := fun hhead => hroot (List.mem_of_mem_head? hhead)
  have hwritten : (parts.filterMap pieceOf?).map String.toList ≠ [] := by
    cases parts with
    | nil => exact absurd rfl hsome
    | cons part rest =>
      cases part with
      | root => exact absurd rfl hhead
      | here | parent | name => exact nofun
  constructor
  · rw [textOfParts_eq]
    dsimp only
    rw [if_neg hhead, String.toList_intercalate, Text.pieces_eq_splitOnP]
    exact List.splitOn_intercalate '/' (fun piece hpiece => (htexts piece hpiece).1) hwritten
  · exact fun hnil => (htexts [] hnil).2 rfl

theorem moves_textOfParts_of_relative {parts : List PathPart} (hroot : .root ∉ parts)
    (hnames : ∀ text, .name text ∈ parts → Path.IsPlain text) :
    (Path.mk (textOfParts parts)).isAbsolute = false ∧
      (Text.pieces (· == '/') (textOfParts parts).toList).filterMap PathPart.ofPiece =
        parts.filter (· != .here) := by
  by_cases hsome : parts = []
  · subst hsome
    decide
  · rcases pieces_textOfParts hroot hnames hsome with ⟨hpieces, hnil⟩
    refine ⟨?_, by rw [hpieces, filterMap_ofPiece hroot hnames]⟩
    rw [Path.isAbsolute, beq_eq_false_iff_ne]
    intro hhead
    rcases List.head?_eq_some_iff.mp hhead with ⟨rest, hrest⟩
    rw [← hpieces, hrest, Text.pieces, if_pos (by rfl)] at hnil
    exact hnil List.mem_cons_self

/-- A path is written by its first parts. -/
theorem moves_textOfParts {parts : List PathPart} (hroot : .root ∉ parts.tail)
    (hnames : ∀ text, .name text ∈ parts → Path.IsPlain text) :
    (Path.mk (textOfParts parts)).moves = parts.filter (· != .here) := by
  by_cases hhead : parts.head? = some .root
  · rcases List.head?_eq_some_iff.mp hhead with ⟨rest, rfl⟩
    change .root ∉ rest at hroot
    have hrest := moves_textOfParts_of_relative hroot
      fun text hmem => hnames text (List.mem_cons_of_mem _ hmem)
    have htext : textOfParts (.root :: rest) = "/" ++ textOfParts rest := by
      have hother : rest.head? ≠ some .root := fun hhead => hroot (List.mem_of_mem_head? hhead)
      rw [textOfParts_eq, textOfParts_eq rest]
      dsimp only
      rw [if_pos hhead, if_neg hother]
      rfl
    have habsolute : (Path.mk ("/" ++ textOfParts rest)).isAbsolute = true := by
      rw [Path.isAbsolute, String.toList_append]
      rfl
    have hchars : ("/" ++ textOfParts rest).toList = '/' :: (textOfParts rest).toList :=
      String.toList_append
    rw [htext, Path.moves_eq, habsolute, if_pos rfl, hchars, Text.pieces, if_pos (by rfl),
      List.filterMap_cons_none (by rfl), hrest.2]
    rfl
  · have hnone : .root ∉ parts := by
      intro hmem
      cases parts with
      | nil => cases hmem
      | cons part rest =>
        rcases List.mem_cons.mp hmem with rfl | hmem
        · exact hhead rfl
        · exact hroot hmem
    rcases moves_textOfParts_of_relative hnone hnames with ⟨hrelative, hpieces⟩
    rw [Path.moves_eq, hrelative, if_neg Bool.false_ne_true, List.nil_append, hpieces]

/-- A path that is written from the first parts of another one leads to where that one passes by. -/
theorem isFrontOf_textOfParts (path : Path) (count : Nat) :
    (Path.mk (textOfParts (path.parts.take count))).IsFrontOf path := by
  have hfront := List.take_prefix count path.parts
  have hroot : .root ∉ (path.parts.take count).tail := by
    intro hmem
    exact Path.root_not_mem_tail path (hfront.sublist.tail.subset hmem)
  have hnames : ∀ text, .name text ∈ path.parts.take count → Path.IsPlain text := by
    intro text hmem
    exact Path.isPlain_of_mem_moves (List.mem_filter.mpr ⟨hfront.subset hmem, rfl⟩)
  rw [Path.IsFrontOf, moves_textOfParts hroot hnames]
  exact hfront.filter _

end RosInterface.FileTree
