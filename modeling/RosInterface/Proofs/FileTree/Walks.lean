import RosInterface.Proofs.FileTree.Removal

namespace RosInterface.FileTree

/-! # Walks down a tree

`walk_names` says that names lead down through directories as they are written, whatever is done
behind them. No link is followed on the way.
-/

variable {tree : FileTree} {aim : Aim}

/-- Only a directory has something below it. -/
theorem exists_directory_of_get?_cons {base : Location} {name : String} {rest : Location}
    {found : Entry} (hfound : tree.get? (base ++ name :: rest) = some found) :
    ∃ entries child, tree.get? base = some (.directory entries) ∧
      entries.lookup name = some child ∧ child.get? rest = some found := by
  rw [get?, Entry.get?_append] at hfound
  rcases Option.bind_eq_some_iff.mp hfound with ⟨parent, hparent, hbelow⟩
  rcases Option.bind_eq_some_iff.mp hbelow with ⟨child, hlookup, hrest⟩
  rw [Entry.eq_directory_of_lookup hlookup] at hparent
  exact ⟨parent.entries, child, hparent, hlookup, hrest⟩

/-- What lies above a directory is a directory. -/
theorem exists_directory_of_append {base back : Location} {entries : List (String × Entry)}
    (hdirectory : tree.get? (base ++ back) = some (.directory entries)) :
    ∃ others, tree.get? base = some (.directory others) := by
  cases back with
  | nil => exact ⟨entries, by rwa [List.append_nil] at hdirectory⟩
  | cons name rest =>
    rcases exists_directory_of_get?_cons hdirectory with ⟨others, -, hbase, -⟩
    exact ⟨others, hbase⟩

/-- A name of a directory is entered. -/
theorem walk_enter_directory {location : Location} {entries inner : List (String × Entry)}
    {name : String} (hdirectory : tree.get? location = some (.directory entries))
    (hinner : entries.lookup name = some (.directory inner))
    (hshort : name.utf8ByteSize ≤ nameLimit) {rest : List Segment}
    (hrest : isSlashed rest = false) :
    walk tree aim location (.enter name :: rest) = walk tree aim (location ++ [name]) rest := by
  rw [walk, hdirectory]
  dsimp only
  rw [hrest, Bool.and_false, if_neg Bool.false_ne_true, if_neg (Nat.not_lt.mpr hshort), hinner]

/-- Names lead down through directories. -/
theorem walk_names {base names : Location} {entries : List (String × Entry)}
    (hdirectory : tree.get? (base ++ names) = some (.directory entries))
    (hshort : ∀ name ∈ names, name.utf8ByteSize ≤ nameLimit) {rest : List Segment}
    (hrest : isSlashed rest = false) :
    walk tree aim base (names.map .enter ++ rest) = walk tree aim (base ++ names) rest := by
  induction names generalizing base with
  | nil => rw [List.append_nil, List.map_nil, List.nil_append]
  | cons name names ih =>
    rw [List.append_cons] at hdirectory ⊢
    rw [List.forall_mem_cons] at hshort
    rcases exists_directory_of_append hdirectory with ⟨inner, hinner⟩
    rcases @exists_directory_of_append _ _ [name] _ hinner with ⟨others, hothers⟩
    rw [get?_concat hothers] at hinner
    rw [List.map_cons, List.cons_append, walk_enter_directory hothers hinner hshort.1,
      ih hdirectory hshort.2]
    cases names with
    | nil => exact hrest
    | cons next names => rfl

end RosInterface.FileTree
