import RosInterface.MessageType.Basic
import RosInterface.Path
import RosInterface.Sorted

namespace RosInterface

/-! # The order of names

Sorted lists stand for sets. Comparing names by code point tells any two of them apart, which is all
that such a list needs to hold exactly what was inserted. Lists of named entries stand for maps; a
name has the first of its entries. Comparing paths part by part keeps what is in one directory
together.
-/

/-! ## Named entries -/

theorem lookup_cons_eq {κ α : Type} [DecidableEq κ] (name other : κ) (value : α)
    (entries : List (κ × α)) :
    ((name, value) :: entries).lookup other =
      if other = name then some value else entries.lookup other := by
  rw [List.lookup_cons]
  by_cases hsame : other = name
  · rw [if_pos hsame, beq_iff_eq.mpr hsame]
  · rw [if_neg hsame, beq_eq_false_iff_ne.mpr hsame]

/-- Without the entries of one name, all other names have what they had. -/
theorem lookup_filter_ne {α : Type} (name other : String) (entries : List (String × α)) :
    (entries.filter (·.1 != name)).lookup other =
      if other = name then none else entries.lookup other := by
  induction entries with
  | nil => simp
  | cons entry rest ih =>
    rcases entry with ⟨key, value⟩
    rw [List.filter_cons]
    by_cases hkey : key = name
    · subst hkey
      rw [if_neg (by simp), ih, lookup_cons_eq]
      by_cases hother : other = key
      · rw [if_pos hother, if_pos hother]
      · rw [if_neg hother, if_neg hother, if_neg hother]
    · rw [if_pos (by simpa using hkey), lookup_cons_eq, lookup_cons_eq, ih]
      by_cases hother : other = key
      · rw [if_pos hother, if_pos hother, hother, if_neg hkey]
      · rw [if_neg hother, if_neg hother]

/-! ## Members of sorted lists -/

namespace Sorted

variable {α : Type} {order : α → α → Ordering} [Std.LawfulEqCmp order]

theorem mem_insert {value other : α} {members : List α} :
    other ∈ insert order value members ↔ other = value ∨ other ∈ members := by
  induction members with
  | nil => simp [insert]
  | cons first rest ih =>
    rw [insert]
    cases hcompare : order value first with
    | lt => simp
    | eq =>
      have hsame : value = first := Std.LawfulEqCmp.eq_of_compare hcompare
      simp [hsame]
    | gt =>
      rw [List.mem_cons, ih, List.mem_cons]
      exact or_left_comm

theorem mem_ofList {other : α} {values : List α} :
    other ∈ ofList order values ↔ other ∈ values := by
  -- The fold starts with an empty list, but goes on with what was inserted.
  suffices hfold : ∀ members : List α,
      other ∈ values.foldl (fun sorted value => insert order value sorted) members ↔
        other ∈ values ∨ other ∈ members by
    simpa [ofList] using hfold []
  induction values with
  | nil => simp
  | cons value values ih =>
    intro members
    rw [List.foldl_cons, ih, mem_insert, List.mem_cons]
    exact or_left_comm.trans (or_assoc).symm

theorem mem_names {name : String} {names : List String} :
    name ∈ Sorted.names names ↔ name ∈ names :=
  mem_ofList

end Sorted

/-! ## Sorting by a key -/

theorem compare_eq_lt_iff {a b : String} : compare a b = .lt ↔ a < b :=
  compareOfLessAndEq_eq_lt

/-- Members with distinct keys go up strictly once they are sorted. -/
theorem increasing_mergeSort {α β : Type} {order : β → β → Ordering} [Std.TransCmp order]
    [Std.LawfulEqCmp order] {key : α → β} {members : List α} (hnodup : (members.map key).Nodup) :
    (members.mergeSort fun a b => (order (key a) (key b)).isLE).Pairwise
      fun a b => order (key a) (key b) = .lt := by
  have hsorted : (members.mergeSort fun a b => (order (key a) (key b)).isLE).Pairwise
      fun a b => (order (key a) (key b)).isLE = true := by
    refine List.pairwise_mergeSort ?_ ?_ _
    · intro a b c hab hbc
      exact Std.TransCmp.isLE_trans hab hbc
    · intro a b
      have hswap : order (key b) (key a) = (order (key a) (key b)).swap := Std.OrientedCmp.eq_swap
      rw [hswap]
      cases order (key a) (key b) <;> rfl
  have hdistinct : (members.mergeSort fun a b => (order (key a) (key b)).isLE).Pairwise
      fun a b => key a ≠ key b := by
    rw [← List.pairwise_map (R := (· ≠ ·))]
    exact ((List.mergeSort_perm members _).map key).nodup_iff.mpr hnodup
  -- Sorted members do not go down, and members with distinct keys do not stay the same.
  refine (hsorted.and hdistinct).imp ?_
  rintro a b ⟨hle, hne⟩
  cases hab : order (key a) (key b) with
  | lt => rfl
  | eq => exact absurd (Std.LawfulEqCmp.eq_of_compare hab) hne
  | gt => rw [hab] at hle; cases hle

/-! ## Paths -/

namespace PathPart

/-- The text of a name; other parts have none. -/
def nameText : PathPart → String
  | name text => text
  | _ => ""

theorem compare_eq_compareLex :
    PathPart.compare = compareLex (compareOn rank) (compareOn nameText) := by
  funext a b
  cases a <;> cases b <;> rfl

instance : Std.TransCmp PathPart.compare := by
  rw [compare_eq_compareLex]
  infer_instance

instance : Std.LawfulEqCmp PathPart.compare where
  eq_of_compare {a b} h := by
    rw [compare_eq_compareLex, compareLex, Ordering.then_eq_eq] at h
    have hrank : a.rank = b.rank := Std.LawfulEqOrd.eq_of_compare h.1
    have htext : a.nameText = b.nameText := Std.LawfulEqOrd.eq_of_compare h.2
    cases a <;> cases b <;> simp_all [rank, nameText]

end PathPart

namespace Path

theorem compareParts_eq_compareLex : compareParts = List.compareLex PathPart.compare := by
  funext as bs
  induction as generalizing bs with
  | nil => cases bs <;> rfl
  | cons a as ih =>
    cases bs with
    | nil => rfl
    | cons b bs =>
      rw [compareParts, List.compareLex_cons_cons, ih]

instance : Std.TransCmp compareParts := by
  rw [compareParts_eq_compareLex]
  infer_instance

instance : Std.LawfulEqCmp compareParts := by
  rw [compareParts_eq_compareLex]
  infer_instance

theorem compareParts_append (front a b : List PathPart) :
    compareParts (front ++ a) (front ++ b) = compareParts a b := by
  induction front with
  | nil => rfl
  | cons part rest ih =>
    rw [List.cons_append, List.cons_append, compareParts,
      show part.compare part = .eq from Std.ReflCmp.compare_self, ih]
    rfl

/-- What is in one directory comes before what is in another one if the directories do. -/
theorem compareParts_lt_of_concat {front : List PathPart} {a b : PathPart}
    (hlt : compareParts (front ++ [a]) (front ++ [b]) = .lt) (as bs : List PathPart) :
    compareParts (front ++ a :: as) (front ++ b :: bs) = .lt := by
  rw [compareParts_append, compareParts] at hlt ⊢
  cases hcompare : a.compare b with
  | lt => rfl
  | eq | gt =>
    rw [hcompare] at hlt
    cases hlt

end Path

/-! ## Type names -/

namespace TypeIdentity

theorem compare_eq_compareLex :
    TypeIdentity.compare =
      compareLex (compareOn TypeIdentity.package) (compareOn TypeIdentity.name) := by
  funext a b
  rcases a with ⟨package, name⟩
  rcases b with ⟨otherPackage, otherName⟩
  cases package <;> cases otherPackage <;> rfl

instance : Std.TransCmp TypeIdentity.compare := by
  rw [compare_eq_compareLex]
  infer_instance

/-- The order tells any two names apart. -/
instance : Std.LawfulEqCmp TypeIdentity.compare where
  eq_of_compare {a b} h := by
    rw [compare_eq_compareLex, compareLex, Ordering.then_eq_eq] at h
    have hpackage : a.package = b.package := Std.LawfulEqOrd.eq_of_compare h.1
    have hname : a.name = b.name := Std.LawfulEqOrd.eq_of_compare h.2
    rcases a with ⟨package, name⟩
    rcases b with ⟨otherPackage, otherName⟩
    simp_all

end TypeIdentity

end RosInterface
