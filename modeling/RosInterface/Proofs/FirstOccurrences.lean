import Mathlib.Data.List.Induction
import Mathlib.Data.List.Nodup

namespace RosInterface

/-! # First occurrences

Erasing what was there before leaves each member of a list where it comes first, as a loop does that
adds a member unless it has it already. `FirstOccurrences` says so without a word on how it is done.
-/

section FirstOccurrences

variable {α : Type} [BEq α]

/-- A list has the members of another one, each once, in the order in which they first occur
there. -/
structure FirstOccurrences (members listed : List α) : Prop where
  nodup : listed.Nodup
  mem_iff : ∀ member, member ∈ listed ↔ member ∈ members
  in_order : listed.Pairwise fun a b => members.idxOf a < members.idxOf b

/-- The order of the first occurrences leaves no choice. -/
theorem FirstOccurrences.unique {members listed other : List α}
    (hlisted : FirstOccurrences members listed) (hother : FirstOccurrences members other) :
    listed = other := by
  have hperm : listed.Perm other := by
    refine (List.perm_ext_iff_of_nodup hlisted.nodup hother.nodup).mpr fun member => ?_
    rw [hlisted.mem_iff, hother.mem_iff]
  refine hperm.eq_of_pairwise ?_ hlisted.in_order hother.in_order
  intro a b _ _ hab hba
  exact absurd hab (Nat.lt_asymm hba)

variable [LawfulBEq α]

theorem removeAll_congr {members seen other : List α}
    (hsame : ∀ member ∈ members, member ∈ seen ↔ member ∈ other) :
    members.removeAll seen = members.removeAll other := by
  unfold List.removeAll
  refine List.filter_congr fun member hmember => ?_
  rw [Bool.eq_iff_iff]
  simpa using not_congr (hsame member hmember)

/-- A further member is left where it stands, unless it is there already. -/
theorem eraseDups_concat (members : List α) (last : α) :
    (members ++ [last]).eraseDups =
      if last ∈ members then members.eraseDups else members.eraseDups ++ [last] := by
  rw [List.eraseDups_append, List.removeAll, List.filter_singleton]
  by_cases hlast : last ∈ members
  · simp [hlast]
  · simp [hlast, List.eraseDups_cons]

theorem nodup_eraseDups (members : List α) : members.eraseDups.Nodup := by
  induction members using List.reverseRecOn with
  | nil => simp
  | append_singleton members last ih =>
    rw [eraseDups_concat]
    split
    case isTrue hold => exact ih
    case isFalse hnew =>
      rw [← List.mem_eraseDups] at hnew
      rw [← List.concat_eq_append]
      exact ih.concat hnew

/-- Without repetitions every occurrence is the first. -/
theorem eraseDups_eq_self {members : List α} (hnodup : members.Nodup) :
    members.eraseDups = members := by
  induction members with
  | nil => simp
  | cons first rest ih =>
    rcases List.nodup_cons.mp hnodup with ⟨hnew, hrest⟩
    have hfilter : rest.filter (!· == first) = rest := by
      rw [List.filter_eq_self]
      intro member hmember
      have hother : member ≠ first := by
        rintro rfl
        exact hnew hmember
      simpa using hother
    rw [List.eraseDups_cons, hfilter, ih hrest]

/-- It makes no difference whether repetitions are erased before others are looked at. -/
theorem eraseDups_eraseDups_append (front back : List α) :
    (front.eraseDups ++ back).eraseDups = (front ++ back).eraseDups := by
  rw [List.eraseDups_append, List.eraseDups_append, eraseDups_eq_self (nodup_eraseDups front)]
  have hsame : back.removeAll front.eraseDups = back.removeAll front :=
    removeAll_congr fun member _ => List.mem_eraseDups
  rw [hsame]

/-- Nothing new comes first behind what has it all. -/
theorem eraseDups_append_of_subset {front back : List α} (hsub : back ⊆ front) :
    (front ++ back).eraseDups = front.eraseDups := by
  have hnone : back.removeAll front = [] := by
    unfold List.removeAll
    rw [List.filter_eq_nil_iff]
    intro member hmember
    simpa using hsub hmember
  rw [List.eraseDups_append, hnone, List.eraseDups_nil, List.append_nil]

theorem firstOccurrences_eraseDups (members : List α) :
    FirstOccurrences members members.eraseDups := by
  refine ⟨nodup_eraseDups members, fun _ => List.mem_eraseDups, ?_⟩
  induction members using List.reverseRecOn with
  | nil => simp
  | append_singleton members last ih =>
    have hbefore : members.eraseDups.Pairwise fun a b =>
        (members ++ [last]).idxOf a < (members ++ [last]).idxOf b := by
      refine List.Pairwise.imp_of_mem ?_ ih
      intro a b ha hb hlt
      rwa [List.idxOf_append_of_mem (List.mem_eraseDups.mp ha),
        List.idxOf_append_of_mem (List.mem_eraseDups.mp hb)]
    rw [eraseDups_concat]
    split
    case isTrue hold => exact hbefore
    case isFalse hnew =>
      -- All others are found before the end, where the new member is.
      refine List.pairwise_append.mpr ⟨hbefore, List.pairwise_singleton _ last, ?_⟩
      intro a ha b hb
      have hmem := List.mem_eraseDups.mp ha
      rw [List.mem_singleton.mp hb, List.idxOf_append_of_mem hmem, List.idxOf_append_of_notMem hnew]
      exact Nat.lt_add_right _ (List.idxOf_lt_length_iff.mpr hmem)

end FirstOccurrences

end RosInterface
