import Mathlib.Data.List.Perm.Lattice
import RosInterface.Proofs.BuildOrder.Sequence

namespace RosInterface.BuildOrder

open Relation

/-! # What cannot be ordered

Where units cannot be ordered, the error names some of them. The main statement,
`remaining_exact`, says which: those from which a circle of different units can be reached along
dependencies, in the order of the list.

A unit that is stuck needs another one that is stuck, and going on like this leads to a circle. A
unit that is queued needs units in front of it only, so that no circle is ever reached from there.
-/

variable {units : List BuildUnit} {done rest : List Placed}

/-- From a unit one can get to a circle of two or more units. A unit that only names itself is no
such circle. -/
def LeadsToCircle (units : List BuildUnit) (name : String) : Prop :=
  ∃ first second, first ≠ second ∧ ReflTransGen (Needs units) name first ∧
    TransGen (Needs units) first second ∧ TransGen (Needs units) second first

/-- A unit that comes back to itself gets to another one on the way. -/
theorem leadsToCircle_of_cycle {name member : String}
    (hreach : ReflTransGen (Needs units) name member)
    (hcycle : TransGen (Needs units) member member) : LeadsToCircle units name := by
  rcases TransGen.head'_iff.mp hcycle with ⟨next, hstep, hback⟩
  have hother : next ≠ member := hstep.1
  refine ⟨member, next, hother.symm, hreach, .single hstep, ?_⟩
  exact (reflTransGen_iff_eq_or_transGen.mp hback).resolve_left hother.symm

theorem Stuck.leadsToCircle (h : Stuck (units.map (·.name)) units.zipIdx done rest)
    {name : String} (hname : name ∈ placedNames rest) : LeadsToCircle units name := by
  rcases exists_cycle_of_successors (fun _ => h.successor) hname with
    ⟨member, -, hreach, hcycle⟩
  exact leadsToCircle_of_cycle hreach hcycle

/-- No circle is reached from what is queued. -/
theorem Stuck.not_leadsToCircle (h : Stuck (units.map (·.name)) units.zipIdx done rest)
    (hnodup : (units.map (·.name)).Nodup) {name : String} (hname : name ∈ placedNames done) :
    ¬ LeadsToCircle units name := by
  rintro ⟨first, second, -, hreach, hthere, hback⟩
  have hqueued : first ∈ placedNames done := by
    rcases reflTransGen_iff_eq_or_transGen.mp hreach with rfl | hpath
    · exact hname
    · exact (h.first.of_path hnodup h.perm hname hpath).1
  exact h.first.not_circular hnodup h.perm hqueued (hthere.trans hback)

/-- Every unit of the list is either queued or stuck, and the circles tell which. -/
theorem Stuck.mem_rest_iff (h : Stuck (units.map (·.name)) units.zipIdx done rest)
    (hnodup : (units.map (·.name)).Nodup) {name : String} (hname : name ∈ units.map (·.name)) :
    name ∈ placedNames rest ↔ LeadsToCircle units name := by
  constructor
  · exact h.leadsToCircle
  · intro hcircle
    have hplaced : name ∈ placedNames (done ++ rest) :=
      (placedNames_perm h.perm).mem_iff.mpr hname
    rw [placedNames, List.map_append, List.mem_append] at hplaced
    exact hplaced.resolve_left fun hdone => h.not_leadsToCircle hnodup hdone hcircle

open Classical in
/-- Where units with distinct names cannot be ordered, the error names exactly those from which a
circle of at least two of them can be reached, in the order in which they were given and each
once. -/
theorem remaining_exact {remaining : List String} (hnodup : (units.map (·.name)).Nodup)
    (h : sequence units = .error remaining) :
    remaining = (units.map (·.name)).filter (fun name => LeadsToCircle units name) ∧
      remaining.Nodup := by
  have hspec := sequence_spec units
  rw [h] at hspec
  rcases hspec with ⟨rest, rfl, hsub, done, hstuck⟩
  have hnames : (placedNames rest).Sublist (units.map (·.name)) := by
    rw [← placedNames_zipIdx]
    exact hsub.map _
  have hdistinct : (placedNames rest).Nodup := hnames.nodup hnodup
  refine ⟨?_, hdistinct⟩
  -- Both lists keep the order of the units, so it is enough that they have the same members.
  refine (List.Nodup.perm_iff_eq_of_sublist hnodup hnames List.filter_sublist).mp ?_
  refine (List.perm_ext_iff_of_nodup hdistinct (hnodup.filter _)).mpr fun name => ?_
  rw [List.mem_filter, decide_eq_true_iff]
  constructor
  · intro hname
    exact ⟨hnames.mem hname, hstuck.leadsToCircle hname⟩
  · rintro ⟨hname, hcircle⟩
    exact (hstuck.mem_rest_iff hnodup hname).mpr hcircle

/-- A package that uses a circle of two, one that names only itself, and one that needs nothing. -/
def circularUnits : List BuildUnit :=
  [⟨"user", "1", ["left", "std"]⟩, ⟨"self", "1", ["self"]⟩, ⟨"left", "1", ["right", "plain"]⟩,
    ⟨"plain", "1", []⟩, ⟨"right", "1", ["left"]⟩]

/-- The circle and its user remain, and the package that names itself does not. -/
theorem circularUnits_remaining :
    (circularUnits.map (·.name)).Nodup ∧
      sequence circularUnits = .error ["user", "left", "right"] ∧
      LeadsToCircle circularUnits "user" ∧ ¬ LeadsToCircle circularUnits "self" := by
  have hnodup : (circularUnits.map (·.name)).Nodup := by decide
  have hsequence : sequence circularUnits = .error ["user", "left", "right"] := by decide
  have hmem : ∀ name ∈ circularUnits.map (·.name),
      (name ∈ ["user", "left", "right"] ↔ LeadsToCircle circularUnits name) := by
    intro name hname
    rw [(remaining_exact hnodup hsequence).1]
    simp only [List.mem_filter, hname, decide_eq_true_eq, true_and]
  exact ⟨hnodup, hsequence, (hmem "user" (by decide)).mp (by decide),
    fun hself => absurd ((hmem "self" (by decide)).mpr hself) (by decide)⟩

end RosInterface.BuildOrder
