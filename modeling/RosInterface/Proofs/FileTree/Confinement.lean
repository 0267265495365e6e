import Mathlib.Logic.Relation
import RosInterface.Proofs.FileTree.Parents
import RosInterface.Proofs.FileTree.Removal

namespace RosInterface.FileTree

/-! # What an action may touch

An action is confined to some directories and files if all it does to a tree is to create those
directories, along with missing ones on the way to them, and to write those files. Where each path
leads is up to the tree at the time of the change.
-/

/-- A single change of a tree, at a place that one of the paths leads to. -/
inductive Change (directories files : List Path) (tree : FileTree) : FileTree → Prop
  /-- A directory is created where nothing was. -/
  | directory {whole path : Path} {location : Location} (hwhole : whole ∈ directories)
      (hpath : path.IsFrontOf whole)
      (hplace : tree.locate .itself (dropSlashes path.text) = .ok ⟨location, none⟩) :
      Change directories files tree (tree.put location (.directory []))
  /-- A file is created or replaced. -/
  | file {path : Path} {place : Place} (content : ByteArray) (hpath : path ∈ files)
      (hplace : tree.locate .writing path.text = .ok place)
      (hfile : ∀ entries, place.entry ≠ some (.directory entries)) :
      Change directories files tree (tree.put place.location (.file content))

/-- Whether it succeeds or not, the action changes trees at the given paths only. -/
def Confined {α : Type} (directories files : List Path) (action : Action α) : Prop :=
  ∀ tree, Relation.ReflTransGen (Change directories files) tree (action.run tree).2

namespace Confined

variable {α β : Type} {directories files : List Path}

/-! ## Actions put together -/

/-- More directories and files may be allowed for. -/
theorem mono {action : Action α} (h : Confined directories files action)
    {allDirectories allFiles : List Path} (hdirectories : directories ⊆ allDirectories)
    (hfiles : files ⊆ allFiles) : Confined allDirectories allFiles action := by
  have hchange : ∀ before after, Change directories files before after →
      Change allDirectories allFiles before after := by
    intro before after hchange
    cases hchange with
    | directory hwhole hpath hplace => exact .directory (hdirectories hwhole) hpath hplace
    | file content hpath hplace hfile => exact .file content (hfiles hpath) hplace hfile
  exact fun tree => Relation.ReflTransGen.mono hchange _ _ (h tree)

theorem of_unchanged {action : Action α} (h : ∀ tree, (action.run tree).2 = tree) :
    Confined directories files action := by
  intro tree
  rw [h tree]

theorem bind {first : Action α} {next : α → Action β} (hfirst : Confined directories files first)
    (hnext : ∀ value, Confined directories files (next value)) :
    Confined directories files (first >>= next) := by
  intro tree
  have hstart := hfirst tree
  rw [run_bind]
  rcases hrun : first.run tree with ⟨error | value, after⟩
  · rw [hrun] at hstart
    exact hstart
  · rw [hrun] at hstart
    exact hstart.trans (hnext value after)

theorem tryCatch {part : Action α} {handler : FileError → Action α}
    (hpart : Confined directories files part)
    (hhandler : ∀ error, Confined directories files (handler error)) :
    Confined directories files (MonadExcept.tryCatch part handler) := by
  intro tree
  have hstart := hpart tree
  rw [run_tryCatch]
  rcases hrun : part.run tree with ⟨error | value, after⟩
  · rw [hrun] at hstart
    exact hstart.trans (hhandler error after)
  · rw [hrun] at hstart
    exact hstart

theorem attempt {action : Action α} (h : Confined directories files action) :
    Confined directories files (attempt action) :=
  h

theorem forM {members : List α} {step : α → Action PUnit}
    (hstep : ∀ member ∈ members, Confined directories files (step member)) :
    Confined directories files (members.forM step) := by
  induction members with
  | nil => exact of_unchanged fun _ => rfl
  | cons first rest ih =>
    refine bind (hstep first List.mem_cons_self) fun _ => ?_
    exact ih fun member hmember => hstep member (List.mem_cons_of_mem first hmember)

/-- What follows a look at the tree may rely on what was found. -/
theorem reading_bind {read : FileTree → Except FileError α} {next : α → Action β}
    (hnext : ∀ tree value, read tree = .ok value →
      Relation.ReflTransGen (Change directories files) tree ((next value).run tree).2) :
    Confined directories files (reading read >>= next) := by
  intro tree
  rw [run_bind, run_reading]
  cases hread : read tree with
  | error error => exact .refl
  | ok value => exact hnext tree value hread

/-! ## Directories -/

variable {path whole : Path}

theorem makeDirectory (hwhole : whole ∈ directories) (hpath : path.IsFrontOf whole) :
    Confined directories files (makeDirectory path) := by
  unfold FileTree.makeDirectory
  refine bind (of_unchanged fun _ => rfl) fun _ => ?_
  refine reading_bind fun tree place hplace => ?_
  rcases place with ⟨location, found⟩
  cases found with
  | none => exact .single (.directory hwhole hpath hplace)
  | some entry => exact .refl

/-- The parents that are tried have the first parts of the path. -/
theorem makeDirectoriesWithin (depth : Nat) (hwhole : whole ∈ directories)
    (hpath : path.IsFrontOf whole) :
    Confined directories files (makeDirectoriesWithin depth path) := by
  induction depth generalizing path with
  | zero => exact of_unchanged fun _ => rfl
  | succ depth ih =>
    have hunless : ∀ error, Confined directories files (unlessDirectory path error) := by
      intro error
      refine of_unchanged fun tree => ?_
      unfold unlessDirectory
      rw [run_bind]
      change ((if tree.isDirectory path then pure () else throw error : Action Unit).run tree).2 =
        tree
      split
      · rfl
      · rfl
    refine bind (attempt (makeDirectory hwhole hpath)) fun outcome => ?_
    split
    · exact of_unchanged fun _ => rfl
    · refine bind (ih ((isFrontOf_textOfParts path depth).trans hpath)) fun _ => ?_
      exact tryCatch (makeDirectory hwhole hpath) hunless
    · exact hunless _

theorem makeDirectories (hpath : path ∈ directories) :
    Confined directories files (makeDirectories path) :=
  makeDirectoriesWithin path.parts.length hpath List.prefix_rfl

/-! ## Files -/

theorem writeBytes (hpath : path ∈ files) (content : ByteArray) :
    Confined directories files (writeBytes path content) := by
  unfold FileTree.writeBytes
  refine reading_bind fun tree place hplace => ?_
  rcases place with ⟨location, found⟩
  cases found with
  | none => exact .single (.file content hpath hplace nofun)
  | some entry =>
    cases entry with
    | file | link => exact .single (.file content hpath hplace nofun)
    | directory entries => exact .refl

theorem writeText (hpath : path ∈ files) (text : String) :
    Confined directories files (writeText path text) :=
  writeBytes hpath text.toUTF8

theorem copyFile (source : Path) (hpath : path ∈ files) :
    Confined directories files (copyFile source path) := by
  refine bind (of_unchanged fun _ => rfl) fun _ => ?_
  refine bind (writeBytes hpath .empty) fun _ => ?_
  refine bind (of_unchanged fun _ => rfl) fun content => ?_
  exact writeBytes hpath content

end Confined

end RosInterface.FileTree
