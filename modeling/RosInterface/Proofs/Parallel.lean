import Mathlib.Data.List.Forall2

namespace RosInterface

/-! # Lists in parallel

Definitions and orders are compared member by member. What relates the members of two lists may make
use of their being members.
-/

variable {α β γ : Type} {R S : α → β → Prop} {members : List α} {others : List β}

theorem forall₂_imp_of_mem (himp : ∀ x ∈ members, ∀ y ∈ others, R x y → S x y)
    (h : List.Forall₂ R members others) : List.Forall₂ S members others := by
  induction h with
  | nil => exact .nil
  | @cons first other rest tail hfirst _ ih =>
    refine .cons (himp first List.mem_cons_self other List.mem_cons_self hfirst) (ih ?_)
    intro x hx y hy
    exact himp x (List.mem_cons_of_mem first hx) y (List.mem_cons_of_mem other hy)

/-- Where two relations agree on the members of two lists, they agree on the lists. -/
theorem forall₂_congr (h : ∀ x ∈ members, ∀ y ∈ others, (R x y ↔ S x y)) :
    List.Forall₂ R members others ↔ List.Forall₂ S members others := by
  constructor
  · exact forall₂_imp_of_mem fun x hx y hy => (h x hx y hy).mp
  · exact forall₂_imp_of_mem fun x hx y hy => (h x hx y hy).mpr

/-- Lists are mapped to the same if their members are, one by one. -/
theorem map_eq_map_iff {f : α → γ} {g : β → γ} :
    members.map f = others.map g ↔ List.Forall₂ (fun x y => f x = g y) members others := by
  rw [← List.forall₂_eq_eq_eq, List.forall₂_map_left_iff, List.forall₂_map_right_iff]

/-- Lists that are related member by member are so at every position. -/
theorem exists_getElem?_of_forall₂ (h : List.Forall₂ R members others) {position : Nat} {member : α}
    (hmember : members[position]? = some member) :
    ∃ other, others[position]? = some other ∧ R member other := by
  induction h generalizing position with
  | nil => cases hmember
  | @cons _ other _ _ hfirst _ ih =>
    cases position with
    | zero =>
      cases hmember
      exact ⟨other, rfl, hfirst⟩
    | succ position => exact ih hmember

end RosInterface
