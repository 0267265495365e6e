import RosInterface.Proofs.BuildOrder.Sequence

namespace RosInterface.BuildOrderer

open BuildOrder

/-! # Remembered orders

An orderer that remembers the order of its units finds no other order than one that remembers
nothing, and puts the members of a list behind what they depend on.
-/

variable {α : Type}

/-- What is remembered is the order of the remembered units. -/
def Remembers (orderer : BuildOrderer) : Prop :=
  ∀ units, orderer.units = some units → sequence units = .ok orderer.order

theorem Remembers.sort {orderer : BuildOrderer} (h : orderer.Remembers) (units : List BuildUnit) :
    (orderer.sort units).2.Remembers := by
  unfold BuildOrderer.sort
  cases hsequence : sequence units with
  | error remaining => exact h
  | ok order =>
    intro other hother
    cases hother
    exact hsequence

/-- The order is that of the units, whether they are the remembered ones or not. -/
theorem Remembers.inOrder_eq {orderer : BuildOrderer} (h : orderer.Remembers)
    (unitOf : α → BuildUnit) (members : List α) :
    (orderer.inOrder unitOf members).1 =
      (sequence (members.map unitOf)).map fun order => order.filterMap (members[·]?) := by
  unfold inOrder
  by_cases hchanged : orderer.hasChanged (members.map unitOf) = true
  · simp only [if_pos hchanged, BuildOrderer.sort]
    cases sequence (members.map unitOf) with
    | error remaining => rfl
    | ok order => rfl
  · -- The units are the remembered ones, and so is their order.
    have hsame : orderer.units = some (members.map unitOf) := by
      simpa [hasChanged] using hchanged
    simp only [if_neg hchanged, h _ hsame]
    rfl

theorem Remembers.inOrder {orderer : BuildOrderer} (h : orderer.Remembers)
    (unitOf : α → BuildUnit) (members : List α) :
    (orderer.inOrder unitOf members).2.Remembers := by
  have hsort := h.sort (members.map unitOf)
  unfold BuildOrderer.inOrder
  by_cases hchanged : orderer.hasChanged (members.map unitOf) = true
  · simp only [if_pos hchanged]
    revert hsort
    rcases orderer.sort (members.map unitOf) with ⟨error | ⟨⟩, after⟩
    · exact id
    · exact id
  · simp only [if_neg hchanged]
    exact h

/-! ## Members in order -/

theorem filterMap_getElem?_range (members : List α) :
    (List.range members.length).filterMap (members[·]?) = members := by
  induction members using List.reverseRecOn with
  | nil => rfl
  | append_singleton members last ih =>
    rw [List.length_append, List.length_singleton, List.range_succ, List.filterMap_append]
    have hfront : (List.range members.length).filterMap ((members ++ [last])[·]?) = members := by
      rw [← List.filterMap_congr (f := (members[·]?)) (l := List.range members.length), ih]
      intro index hindex
      exact (List.getElem?_append_left (List.mem_range.mp hindex)).symm
    rw [hfront]
    simp

/-- An order that exists has all members, each behind the members that it depends on. -/
theorem sequence_members {unitOf : α → BuildUnit} {members : List α} {order : List Nat}
    (horder : sequence (members.map unitOf) = .ok order) :
    (order.filterMap (members[·]?)).Perm members ∧
      ∀ before member after, order.filterMap (members[·]?) = before ++ member :: after →
        ∀ used ∈ (unitOf member).dependencies, used ≠ (unitOf member).name →
          used ∈ members.map (fun other => (unitOf other).name) →
          used ∈ before.map fun other => (unitOf other).name := by
  have hspec := sequence_spec (members.map unitOf)
  rw [horder] at hspec
  rcases hspec with ⟨queue, rfl, hperm, hfirst⟩
  constructor
  · have hpositions := (positions_perm hperm).filterMap (members[·]?)
    rwa [List.length_map, filterMap_getElem?_range] at hpositions
  · -- The members in order have the queued units, one by one.
    have hunits : ((queue.map (·.2)).filterMap (members[·]?)).map unitOf = queue.map (·.1) := by
      have hentry : ∀ entry ∈ queue, members[entry.2]?.map unitOf = some entry.1 := by
        intro entry hmem
        have hget : (members.map unitOf)[entry.2]? = some entry.1 :=
          getElem?_of_mem_queue hperm hmem
        rwa [List.getElem?_map] at hget
      clear hperm hfirst horder
      induction queue with
      | nil => rfl
      | cons entry rest ih =>
        obtain ⟨member, hmember, hunit⟩ :=
          Option.map_eq_some_iff.mp (hentry entry List.mem_cons_self)
        rw [List.map_cons, List.filterMap_cons_some hmember, List.map_cons, List.map_cons, hunit,
          ih fun other hother => hentry other (List.mem_cons_of_mem entry hother)]
    -- A split of the members is therefore a split of the queue.
    intro before member after hsplit used hused hother hmember
    rw [hsplit, List.map_append, List.map_cons] at hunits
    rcases List.map_eq_append_iff.mp hunits.symm with ⟨front, back, hqueue, hfront, hback⟩
    rcases List.map_eq_cons_iff.mp hback with ⟨entry, rest, rfl, hentry, -⟩
    have hready := isReady_iff.mp (hfirst front entry rest hqueue)
    rw [hentry] at hready
    have hplaced := hready used hused hother (by rwa [List.map_map])
    have hnames : placedNames front = before.map fun other => (unitOf other).name := by
      calc placedNames front = (front.map (·.1)).map (·.name) := List.map_map.symm
        _ = (before.map unitOf).map (·.name) := by rw [hfront]
        _ = before.map fun other => (unitOf other).name := List.map_map
    rwa [hnames] at hplaced

end RosInterface.BuildOrderer
