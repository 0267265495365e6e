import Mathlib.Data.Set.Finite.Basic
import Mathlib.Data.Set.Finite.Lemmas
import Mathlib.Logic.Relation
import Mathlib.Order.WellFounded
import RosInterface.Proofs.BuildOrder.Rounds
import RosInterface.Proofs.Parallel

namespace RosInterface.BuildOrder

open Relation

/-! # Orders exist where there are no cycles

The main statement, `sequence_correct`, takes the dependencies between different units of a list as
a graph. An order exists exactly if this graph has no cycle, and it is then one that has every unit
behind those that it needs.

An order gives each unit a position, and positions fall along dependencies, so that no cycle comes
back to where it started. Units that are stuck, on the other hand, each need another stuck unit, and
in a finite list this goes round in a circle.
-/

/-- One unit of the list names another one of them as a dependency. -/
def Needs (units : List BuildUnit) (user used : String) : Prop :=
  used ≠ user ∧ used ∈ units.map (·.name) ∧
    ∃ unit ∈ units, unit.name = user ∧ used ∈ unit.dependencies

/-! ## Cycles in finite sets -/

/-- Where each member of a list has a successor in it, every member leads to a cycle. -/
theorem exists_cycle_of_successors {α : Type} {R : α → α → Prop} {members : List α}
    (hsucc : ∀ member ∈ members, ∃ next ∈ members, R member next) {start : α}
    (hstart : start ∈ members) :
    ∃ member ∈ members, ReflTransGen R start member ∧ TransGen R member member := by
  classical
  by_contra hnone
  push Not at hnone
  -- Without a cycle the members that are reached from the start are well-founded.
  let Reached := { member : α // member ∈ members ∧ ReflTransGen R start member }
  have hfinite : Finite Reached := by
    have hsub : { member | member ∈ members ∧ ReflTransGen R start member } ⊆
        { member | member ∈ members } := fun _ h => h.1
    exact (members.finite_toSet.subset hsub).to_subtype
  have : IsTrans Reached (fun a b => TransGen R b.1 a.1) := ⟨fun _ _ _ hab hbc => hbc.trans hab⟩
  have : Std.Irrefl (fun a b : Reached => TransGen R b.1 a.1) :=
    ⟨fun a hcycle => hnone a.1 a.2.1 a.2.2 hcycle⟩
  have hwf : WellFounded (fun a b : Reached => TransGen R b.1 a.1) :=
    Finite.wellFounded_of_trans_of_irrefl _
  -- The last one of them has a successor too, which is reached and comes behind it.
  rcases hwf.has_min Set.univ ⟨⟨start, hstart, .refl⟩, trivial⟩ with ⟨last, -, hlast⟩
  rcases hsucc last.1 last.2.1 with ⟨next, hnext, hstep⟩
  exact hlast ⟨next, hnext, last.2.2.tail hstep⟩ trivial (.single hstep)

/-! ## Positions -/

theorem idxOf_lt_of_split {α : Type} [DecidableEq α] {before after : List α} {last first : α}
    (hnodup : (before ++ last :: after).Nodup) (hfirst : first ∈ before) :
    (before ++ last :: after).idxOf first < (before ++ last :: after).idxOf last := by
  have hlast : last ∉ before := by
    intro hmem
    exact List.disjoint_of_nodup_append hnodup hmem List.mem_cons_self
  rw [List.idxOf_append_of_mem hfirst, List.idxOf_append_of_notMem hlast]
  have hbound := List.idxOf_lt_length_of_mem hfirst
  omega

variable {units : List BuildUnit} {queue : List Placed}

theorem placedNames_zipIdx (units : List BuildUnit) :
    placedNames units.zipIdx = units.map (·.name) := by
  have hunits : units.zipIdx.map Prod.fst = units := List.zipIdx_map_fst 0 units
  calc placedNames units.zipIdx
      = (units.zipIdx.map Prod.fst).map (·.name) := List.map_map.symm
    _ = units.map (·.name) := by rw [hunits]

theorem placedNames_perm (hperm : queue.Perm units.zipIdx) :
    (placedNames queue).Perm (units.map (·.name)) := by
  rw [← placedNames_zipIdx]
  exact hperm.map _

/-- What a queued unit needs stands in front of it. -/
theorem DependencyFirst.split {members : List String} (h : DependencyFirst members queue)
    {entry : Placed} (hentry : entry ∈ queue) {dependency : String}
    (hdep : dependency ∈ entry.1.dependencies) (hother : dependency ≠ entry.1.name)
    (hmember : dependency ∈ members) :
    ∃ before after, queue = before ++ entry :: after ∧ dependency ∈ placedNames before := by
  rcases List.append_of_mem hentry with ⟨before, after, hsplit⟩
  have hready := isReady_iff.mp (h before entry after hsplit)
  exact ⟨before, after, hsplit, hready dependency hdep hother hmember⟩

/-- A queued unit needs only units that are queued in front of it, even if others still wait. -/
theorem DependencyFirst.of_needs {done rest : List Placed}
    (h : DependencyFirst (units.map (·.name)) done) (hnodup : (units.map (·.name)).Nodup)
    (hperm : (done ++ rest).Perm units.zipIdx) {user used : String}
    (huser : user ∈ placedNames done) (hneeds : Needs units user used) :
    used ∈ placedNames done ∧
      (placedNames done).idxOf used < (placedNames done).idxOf user := by
  rcases hneeds with ⟨hother, hmember, unit, hunit, rfl, hdep⟩
  rcases List.mem_iff_getElem?.mp hunit with ⟨index, hindex⟩
  have hdistinct : (placedNames done ++ placedNames rest).Nodup := by
    have hall := (placedNames_perm hperm).nodup_iff.mpr hnodup
    rwa [placedNames, List.map_append] at hall
  -- Names are distinct, so the unit itself is what is queued under its name.
  have hentry : (unit, index) ∈ done := by
    have hplaced : (unit, index) ∈ done ++ rest :=
      hperm.mem_iff.mpr (List.mem_zipIdx_iff_getElem?.mpr hindex)
    refine (List.mem_append.mp hplaced).resolve_right fun hrest => ?_
    exact List.disjoint_of_nodup_append hdistinct huser (List.mem_map.mpr ⟨_, hrest, rfl⟩)
  rcases h.split hentry hdep hother hmember with ⟨before, after, hsplit, hbefore⟩
  have hnames : placedNames done = placedNames before ++ unit.name :: placedNames after := by
    rw [hsplit]
    simp [placedNames]
  have hqueued : (placedNames done).Nodup := hdistinct.of_append_left
  rw [hnames] at hqueued ⊢
  exact ⟨List.mem_append_left _ hbefore, idxOf_lt_of_split hqueued hbefore⟩

/-- Positions fall along dependencies, so paths never leave what is queued. -/
theorem DependencyFirst.of_path {done rest : List Placed}
    (h : DependencyFirst (units.map (·.name)) done) (hnodup : (units.map (·.name)).Nodup)
    (hperm : (done ++ rest).Perm units.zipIdx) {user used : String}
    (huser : user ∈ placedNames done) (hpath : TransGen (Needs units) user used) :
    used ∈ placedNames done ∧
      (placedNames done).idxOf used < (placedNames done).idxOf user := by
  induction hpath with
  | single hstep => exact h.of_needs hnodup hperm huser hstep
  | tail _ hstep ih =>
    have hnext := h.of_needs hnodup hperm ih.1 hstep
    exact ⟨hnext.1, hnext.2.trans ih.2⟩

/-- What is queued lies on no cycle. -/
theorem DependencyFirst.not_circular {done rest : List Placed}
    (h : DependencyFirst (units.map (·.name)) done) (hnodup : (units.map (·.name)).Nodup)
    (hperm : (done ++ rest).Perm units.zipIdx) {name : String} (hname : name ∈ placedNames done) :
    ¬ TransGen (Needs units) name name := by
  intro hcycle
  exact Nat.lt_irrefl _ (h.of_path hnodup hperm hname hcycle).2

/-- An order rules out cycles. -/
theorem not_circular_of_dependencyFirst (hnodup : (units.map (·.name)).Nodup)
    (hperm : queue.Perm units.zipIdx) (h : DependencyFirst (units.map (·.name)) queue)
    (name : String) : ¬ TransGen (Needs units) name name := by
  intro hcycle
  -- All units are queued, and only units need others.
  have hname : name ∈ placedNames queue := by
    rcases TransGen.head'_iff.mp hcycle with ⟨-, ⟨-, -, unit, hunit, hname, -⟩, -⟩
    exact (placedNames_perm hperm).mem_iff.mpr (List.mem_map.mpr ⟨unit, hunit, hname⟩)
  rw [← List.append_nil queue] at hperm
  exact h.not_circular hnodup hperm hname hcycle

/-! ## Stuck units -/

/-- A stuck unit needs another one. -/
theorem Stuck.successor {done rest : List Placed}
    (h : Stuck (units.map (·.name)) units.zipIdx done rest) {name : String}
    (hname : name ∈ placedNames rest) : ∃ next ∈ placedNames rest, Needs units name next := by
  rcases List.mem_map.mp hname with ⟨entry, hentry, rfl⟩
  have hblocked : ¬ ∀ dependency ∈ entry.1.dependencies, dependency ≠ entry.1.name →
      dependency ∈ units.map (·.name) → dependency ∈ placedNames done := by
    rw [← isReady_iff, h.blocked entry hentry]
    exact Bool.false_ne_true
  push Not at hblocked
  rcases hblocked with ⟨dependency, hdep, hother, hmember, hnot⟩
  -- What the unit lacks is a unit of the list that is not queued, so it is stuck as well.
  have hnames := placedNames_perm h.perm
  have hplaced : dependency ∈ placedNames (done ++ rest) := hnames.mem_iff.mpr hmember
  have hrest : dependency ∈ placedNames rest := by
    rw [placedNames, List.map_append, List.mem_append] at hplaced
    exact hplaced.resolve_left hnot
  have hunit : entry.1 ∈ units := by
    have hall : entry ∈ units.zipIdx := h.perm.mem_iff.mp (List.mem_append_right done hentry)
    exact List.fst_mem_of_mem_zipIdx hall
  exact ⟨dependency, hrest, hother, hmember, entry.1, hunit, rfl, hdep⟩

theorem Stuck.exists_cycle {done rest : List Placed}
    (h : Stuck (units.map (·.name)) units.zipIdx done rest) :
    ∃ name, TransGen (Needs units) name name := by
  rcases List.exists_mem_of_ne_nil rest h.nonempty with ⟨entry, hentry⟩
  have hname : entry.1.name ∈ placedNames rest := List.mem_map.mpr ⟨entry, hentry, rfl⟩
  rcases exists_cycle_of_successors (fun _ => h.successor) hname with ⟨name, -, -, hcycle⟩
  exact ⟨name, hcycle⟩

/-! ## Orders -/

theorem getElem?_of_mem_queue (hperm : queue.Perm units.zipIdx) {unit : BuildUnit} {index : Nat}
    (hentry : (unit, index) ∈ queue) : units[index]? = some unit :=
  List.mem_zipIdx_iff_getElem?.mp (hperm.mem_iff.mp hentry)

theorem positions_perm (hperm : queue.Perm units.zipIdx) :
    (queue.map (·.2)).Perm (List.range units.length) := by
  have hpositions := hperm.map Prod.snd
  rwa [List.zipIdx_map_snd, ← List.range_eq_range'] at hpositions

theorem lt_of_mem_sequence {order : List Nat} (horder : sequence units = .ok order)
    {position : Nat} (hposition : position ∈ order) : position < units.length := by
  have hspec := sequence_spec units
  rw [horder] at hspec
  rcases hspec with ⟨queue, rfl, hperm, -⟩
  exact List.mem_range.mp ((positions_perm hperm).mem_iff.mp hposition)

/-- Every position of an order is that of a member. -/
theorem forall₂_filterMap {α : Type} {members : List α} {order : List Nat}
    (hbound : ∀ position ∈ order, position < members.length) :
    List.Forall₂ (fun position member => members[position]? = some member) order
      (order.filterMap (members[·]?)) := by
  induction order with
  | nil => exact .nil
  | cons position rest ih =>
    have hmember := List.getElem?_eq_getElem (hbound position List.mem_cons_self)
    rw [List.filterMap_cons_some hmember]
    exact .cons hmember (ih fun other hother => hbound other (List.mem_cons_of_mem position hother))

/-- Where names are distinct, a name determines a position. -/
theorem position_eq (hnodup : (units.map (·.name)).Nodup) {i j : Nat} {a b : BuildUnit}
    (hi : units[i]? = some a) (hj : units[j]? = some b) (hname : a.name = b.name) : i = j := by
  have hbound : i < units.length := (List.getElem?_eq_some_iff.mp hi).1
  refine (List.getElem?_inj (by rwa [List.length_map]) hnodup).mp ?_
  rw [List.getElem?_map, List.getElem?_map, hi, hj]
  exact congrArg some hname

/-- In a dependency-first queue the position of a unit comes after those of the units it needs. -/
theorem idxOf_lt_of_dependency (hnodup : (units.map (·.name)).Nodup)
    (hperm : queue.Perm units.zipIdx) (h : DependencyFirst (units.map (·.name)) queue)
    {i j : Nat} {user used : BuildUnit} (hi : units[i]? = some user) (hj : units[j]? = some used)
    (hne : i ≠ j) (hdep : used.name ∈ user.dependencies) :
    (queue.map (·.2)).idxOf j < (queue.map (·.2)).idxOf i := by
  have hother : used.name ≠ user.name := fun hname => hne (position_eq hnodup hi hj hname.symm)
  have hmember : used.name ∈ units.map (·.name) :=
    List.mem_map.mpr ⟨used, List.mem_of_getElem? hj, rfl⟩
  have hentry : (user, i) ∈ queue :=
    hperm.mem_iff.mpr (List.mem_zipIdx_iff_getElem?.mpr hi)
  rcases h.split hentry hdep hother hmember with ⟨before, after, hsplit, hbefore⟩
  rcases List.mem_map.mp hbefore with ⟨⟨unit, index⟩, hunit, hname⟩
  have hindex : index = j := by
    have hqueued : (unit, index) ∈ queue := hsplit ▸ List.mem_append_left _ hunit
    exact position_eq hnodup (getElem?_of_mem_queue hperm hqueued) hj hname
  have hdistinct := (positions_perm hperm).nodup_iff.mpr List.nodup_range
  have hpositions : queue.map (·.2) = before.map (·.2) ++ i :: after.map (·.2) := by
    rw [hsplit, List.map_append, List.map_cons]
  rw [hpositions] at hdistinct ⊢
  exact idxOf_lt_of_split hdistinct (hindex ▸ List.mem_map.mpr ⟨(unit, index), hunit, rfl⟩)

/-- Units with distinct names can be ordered exactly if their dependencies on one another have no
cycle. An order lists every position once, each behind those of the units that it needs. -/
theorem sequence_correct (units : List BuildUnit) (hnodup : (units.map (·.name)).Nodup) :
    ((∃ order, sequence units = .ok order) ↔ ∀ name, ¬ TransGen (Needs units) name name) ∧
      ∀ order, sequence units = .ok order →
        order.Perm (List.range units.length) ∧
        ∀ i j user used, units[i]? = some user → units[j]? = some used → i ≠ j →
          used.name ∈ user.dependencies → order.idxOf j < order.idxOf i := by
  have hspec := sequence_spec units
  cases hsequence : sequence units with
  | ok order =>
    rw [hsequence] at hspec
    rcases hspec with ⟨queue, rfl, hperm, hfirst⟩
    refine ⟨⟨fun _ => not_circular_of_dependencyFirst hnodup hperm hfirst, fun _ => ⟨_, rfl⟩⟩, ?_⟩
    rintro order horder
    cases horder
    exact ⟨positions_perm hperm, fun i j user used =>
      idxOf_lt_of_dependency hnodup hperm hfirst⟩
  | error remaining =>
    rw [hsequence] at hspec
    rcases hspec with ⟨rest, rfl, -, done, hstuck⟩
    rcases hstuck.exists_cycle with ⟨name, hcycle⟩
    refine ⟨⟨?_, fun hacyclic => absurd hcycle (hacyclic name)⟩, ?_⟩
    · rintro ⟨order, horder⟩
      cases horder
    · intro order horder
      cases horder

/-- A collection in front of what it collects; the last package also names itself and a package of
another place. -/
def exampleUnits : List BuildUnit :=
  [⟨"all", "1", ["nav", "geometry"]⟩, ⟨"nav", "1", ["geometry"]⟩,
    ⟨"geometry", "1", ["geometry", "std"]⟩]

theorem exampleUnits_in_order :
    (exampleUnits.map (·.name)).Nodup ∧
      ∃ order, sequence exampleUnits = .ok order ∧ order.Perm (List.range 3) ∧
        order.idxOf 1 < order.idxOf 0 := by
  have hnodup : (exampleUnits.map (·.name)).Nodup := by decide
  have hsequence : sequence exampleUnits = .ok [2, 1, 0] := by decide
  rcases (sequence_correct exampleUnits hnodup).2 _ hsequence with ⟨hperm, hfirst⟩
  exact ⟨hnodup, [2, 1, 0], hsequence, hperm, hfirst 0 1 _ _ rfl rfl (by decide) (by decide)⟩

end RosInterface.BuildOrder
