import Mathlib.Order.Bounds.Defs
import RosInterface.Proofs.BuildOrder.Orderer

namespace RosInterface.BuildOrder

open Relation

/-! # Round numbers

Units without a cycle are queued in the order of two numbers: the round that queues a unit, and the
position of the unit in the list. The round can be told from the dependencies alone, which leaves
nothing of the order open. `sequence_by_rounds` is the main statement.

* A unit waits for the round of each unit that it needs. If that unit stands behind it in the list,
  the round is over for the waiting unit before the other one is queued, so that it has to wait for
  one more. `CountsRounds` says that rounds are the least numbers with this property.
* `Reached` is the invariant of a round: when the scan of round `r` has come to position `k`, the
  units of smaller rounds are queued, and those of round `r` in front of `k`.
-/

/-- The unit at one position depends on the unit at another one. -/
def NeedsAt (units : List BuildUnit) (i j : Nat) : Prop :=
  i ≠ j ∧ ∃ user ∈ units[i]?, ∃ used ∈ units[j]?, used.name ∈ user.dependencies

instance (units : List BuildUnit) (i j : Nat) : Decidable (NeedsAt units i j) :=
  inferInstanceAs (Decidable (_ ∧ _))

/-- A round by which the unit at a position can be queued: it is not before the first one, not
before those of needed units further in front, and behind those of needed units further back. -/
def LateEnough (units : List BuildUnit) (number : Nat → Nat) (i r : Nat) : Prop :=
  1 ≤ r ∧ ∀ j, NeedsAt units i j → (j < i → number j ≤ r) ∧ (i < j → number j + 1 ≤ r)

/-- Every position has the least number that is late enough for its unit. -/
def CountsRounds (units : List BuildUnit) (number : Nat → Nat) : Prop :=
  ∀ i < units.length, IsLeast { r | LateEnough units number i r } (number i)

/-- A position comes in an earlier round, or in the same round and further in front. -/
def Earlier (number : Nat → Nat) (i j : Nat) : Prop :=
  number i < number j ∨ number i = number j ∧ i < j

/-- The round of a unit, computed from those of the units that it needs, up to some depth of
dependencies. -/
def roundWithin (units : List BuildUnit) : Nat → Nat → Nat
  | 0, _ => 1
  | depth + 1, i =>
    let needed := (List.range units.length).filter (NeedsAt units i ·)
    (needed.map fun j => roundWithin units depth j + if i < j then 1 else 0).foldr max 1

/-- The round in which a unit is queued. No chain of dependencies is longer than the list. -/
def roundOf (units : List BuildUnit) (i : Nat) : Nat :=
  roundWithin units units.length i

variable {units : List BuildUnit} {number : Nat → Nat}

/-! ## Needed positions -/

theorem NeedsAt.lt_length {i j : Nat} (h : NeedsAt units i j) :
    i < units.length ∧ j < units.length := by
  rcases h with ⟨-, user, huser, used, hused, -⟩
  exact ⟨(List.getElem?_eq_some_iff.mp huser).1, (List.getElem?_eq_some_iff.mp hused).1⟩

/-- An order has the unit at a position behind those that it needs. -/
theorem NeedsAt.idxOf_lt (hnodup : (units.map (·.name)).Nodup) {order : List Nat}
    (horder : sequence units = .ok order) {i j : Nat} (h : NeedsAt units i j) :
    order.idxOf j < order.idxOf i := by
  rcases h with ⟨hne, user, huser, used, hused, hdep⟩
  exact ((sequence_correct units hnodup).2 order horder).2 i j user used huser hused hne hdep

/-! ## The numbers exist -/

theorem foldr_max_le_iff {numbers : List Nat} {least bound : Nat} :
    numbers.foldr max least ≤ bound ↔ least ≤ bound ∧ ∀ n ∈ numbers, n ≤ bound := by
  induction numbers with
  | nil => simp
  | cons first rest ih =>
    rw [List.foldr_cons, max_le_iff, ih, List.forall_mem_cons]
    exact and_left_comm

/-- A depth that goes below a unit's place in some order is enough for its round. -/
theorem roundWithin_eq {place : Nat → Nat}
    (hfall : ∀ i j, NeedsAt units i j → place j < place i) {depth other i : Nat}
    (hdepth : place i < depth) (hother : place i < other) :
    roundWithin units depth i = roundWithin units other i := by
  induction depth generalizing other i with
  | zero => omega
  | succ depth ih =>
    obtain ⟨other, rfl⟩ : ∃ less, other = less + 1 := ⟨other - 1, by omega⟩
    rw [roundWithin, roundWithin]
    refine congrArg (List.foldr max 1) (List.map_congr_left fun j hj => ?_)
    have hneeds : NeedsAt units i j := by simpa using (List.mem_filter.mp hj).2
    have hplace := hfall i j hneeds
    have hsame : roundWithin units depth j = roundWithin units other j :=
      ih (by omega) (by omega)
    rw [hsame]

theorem countsRounds_roundOf (hnodup : (units.map (·.name)).Nodup)
    (hacyclic : ∀ name, ¬ TransGen (Needs units) name name) :
    CountsRounds units (roundOf units) := by
  obtain ⟨order, horder⟩ := (sequence_correct units hnodup).1.mpr hacyclic
  have hperm := ((sequence_correct units hnodup).2 order horder).1
  have hplace : ∀ i < units.length, order.idxOf i < units.length := by
    intro i hi
    have hmem : i ∈ order := hperm.mem_iff.mpr (List.mem_range.mpr hi)
    have hbound := List.idxOf_lt_length_of_mem hmem
    rwa [hperm.length_eq, List.length_range] at hbound
  intro i hi
  -- One more level makes no difference, and shows what the round is made of.
  have hnumber : roundOf units i = (((List.range units.length).filter (NeedsAt units i ·)).map
      fun j => roundOf units j + if i < j then 1 else 0).foldr max 1 :=
    roundWithin_eq (fun i j hneeds => hneeds.idxOf_lt hnodup horder) (hplace i hi)
      ((hplace i hi).trans (Nat.lt_succ_self _))
  have hle : ∀ r, roundOf units i ≤ r ↔ LateEnough units (roundOf units) i r := by
    intro r
    rw [hnumber, foldr_max_le_iff, LateEnough]
    refine and_congr_right fun _ => ?_
    rw [List.forall_mem_map]
    constructor
    · intro hall j hneeds
      have hmem : j ∈ (List.range units.length).filter (NeedsAt units i ·) := by
        simp [hneeds, hneeds.lt_length.2]
      have hj := hall j hmem
      constructor
      · intro hlt
        omega
      · intro hlt
        rwa [if_pos hlt] at hj
    · intro hall j hmem
      have hneeds : NeedsAt units i j := by simpa using (List.mem_filter.mp hmem).2
      rcases Nat.lt_or_gt_of_ne hneeds.1 with hlt | hgt
      · rw [if_pos hlt]
        exact (hall j hneeds).2 hlt
      · rw [if_neg (by omega)]
        exact (hall j hneeds).1 hgt
  exact ⟨(hle _).mp le_rfl, fun r hr => (hle r).mpr hr⟩

/-! ## Rounds go by the numbers -/

theorem CountsRounds.le_iff (h : CountsRounds units number) {i r : Nat} (hi : i < units.length) :
    number i ≤ r ↔ LateEnough units number i r := by
  constructor
  · intro hle
    rcases (h i hi).1 with ⟨hone, hneeds⟩
    refine ⟨hone.trans hle, fun j hj => ⟨fun hlt => ?_, fun hlt => ?_⟩⟩
    · exact ((hneeds j hj).1 hlt).trans hle
    · exact ((hneeds j hj).2 hlt).trans hle
  · intro hlate
    exact (h i hi).2 hlate

/-- The names that are queued when the scan of a round has come to a position. -/
def Reached (units : List BuildUnit) (number : Nat → Nat) (r k : Nat) (queued : List String) :
    Prop :=
  ∀ j used, units[j]? = some used → (used.name ∈ queued ↔ number j < r ∨ number j = r ∧ j < k)

/-- When the scan comes to a unit, it is ready if its round is not a later one. -/
theorem Reached.isReady_iff (hnodup : (units.map (·.name)).Nodup) (h : CountsRounds units number)
    {r k : Nat} {queued : List String} (hreached : Reached units number r k queued) (hr : 1 ≤ r)
    {unit : BuildUnit} (hunit : units[k]? = some unit) :
    isReady (units.map (·.name)) queued unit = true ↔ number k ≤ r := by
  rw [h.le_iff (List.getElem?_eq_some_iff.mp hunit).1, BuildOrder.isReady_iff]
  constructor
  · intro hready
    refine ⟨hr, ?_⟩
    rintro j ⟨hne, user, huser, used, hused, hdep⟩
    cases hunit.symm.trans huser
    have hother : used.name ≠ unit.name := fun hname =>
      hne (position_eq hnodup hunit hused hname.symm)
    have hmember : used.name ∈ units.map (·.name) :=
      List.mem_map.mpr ⟨used, List.mem_of_getElem? hused, rfl⟩
    rcases (hreached j used hused).mp (hready used.name hdep hother hmember) with hlt | ⟨heq, hlt⟩
    · exact ⟨fun _ => hlt.le, fun _ => hlt⟩
    · exact ⟨fun _ => heq.le, fun hgt => absurd hlt (Nat.lt_asymm hgt)⟩
  · rintro ⟨-, hneeds⟩ dependency hdep hother hmember
    rcases List.mem_map.mp hmember with ⟨used, hused, rfl⟩
    rcases List.mem_iff_getElem?.mp hused with ⟨j, hj⟩
    have hne : k ≠ j := by
      rintro rfl
      cases hunit.symm.trans hj
      exact hother rfl
    have hbounds := hneeds j ⟨hne, unit, hunit, used, hj, hdep⟩
    refine (hreached j used hj).mpr ?_
    rcases Nat.lt_or_gt_of_ne hne with hlt | hgt
    · exact Or.inl (hbounds.2 hlt)
    · exact (Nat.lt_or_eq_of_le (hbounds.1 hgt)).imp_right fun heq => ⟨heq, hgt⟩

/-- A unit of another round leaves the scan as it is. -/
theorem Reached.pass {r k : Nat} {queued : List String}
    (hreached : Reached units number r k queued) (hother : number k ≠ r) :
    Reached units number r (k + 1) queued := by
  intro j used hused
  rw [hreached j used hused]
  refine or_congr_right (and_congr_right fun heq => ?_)
  have hne : j ≠ k := by
    rintro rfl
    exact hother heq
  omega

/-- A unit of the round itself is queued. -/
theorem Reached.queue (hnodup : (units.map (·.name)).Nodup) {r k : Nat} {queued : List String}
    (hreached : Reached units number r k queued) {unit : BuildUnit}
    (hunit : units[k]? = some unit) (hsame : number k = r) :
    Reached units number r (k + 1) (queued ++ [unit.name]) := by
  intro j used hused
  have hname : used.name = unit.name ↔ j = k := by
    constructor
    · exact position_eq hnodup hused hunit
    · rintro rfl
      rw [Option.some.inj (hused.symm.trans hunit)]
  rw [List.mem_append, List.mem_singleton, hname, hreached j used hused]
  constructor
  · rintro ((hlt | ⟨heq, hlt⟩) | rfl)
    · exact Or.inl hlt
    · exact Or.inr ⟨heq, Nat.lt_succ_of_lt hlt⟩
    · exact Or.inr ⟨hsame, Nat.lt_succ_self j⟩
  · rintro (hlt | ⟨heq, hlt⟩)
    · exact Or.inl (Or.inl hlt)
    · rcases Nat.lt_succ_iff_lt_or_eq.mp hlt with hless | rfl
      · exact Or.inl (Or.inr ⟨heq, hless⟩)
      · exact Or.inr rfl

/-- Among the units of its own and of later rounds, a round queues its own and leaves the others
waiting. -/
theorem round_eq_filter (hnodup : (units.map (·.name)).Nodup) (h : CountsRounds units number)
    {r k : Nat} {queued : List String} {back : List BuildUnit} (hr : 1 ≤ r)
    (hback : units.drop k = back) (hreached : Reached units number r k queued) :
    round (units.map (·.name)) queued ((back.zipIdx k).filter (r ≤ number ·.2)) =
      ((back.zipIdx k).filter (number ·.2 = r), (back.zipIdx k).filter (r + 1 ≤ number ·.2)) := by
  induction back generalizing k queued with
  | nil => rfl
  | cons unit rest ih =>
    have hunit : units[k]? = some unit := by
      have hhead := congrArg (·[0]?) hback
      simpa using hhead
    have hrest : units.drop (k + 1) = rest := by
      rw [← List.tail_drop, hback, List.tail_cons]
    have hready := hreached.isReady_iff hnodup h hr hunit
    rw [List.zipIdx_cons]
    rcases Nat.lt_trichotomy (number k) r with hlt | heq | hgt
    · -- The unit was queued in an earlier round.
      rw [List.filter_cons_of_neg (by simpa using hlt),
        List.filter_cons_of_neg (by simpa using hlt.ne),
        List.filter_cons_of_neg (by simpa using Nat.lt_succ_of_lt hlt),
        ih hrest (hreached.pass hlt.ne)]
    · -- The round of the unit has come.
      rw [List.filter_cons_of_pos (by simpa using heq.ge),
        List.filter_cons_of_pos (by simpa using heq),
        List.filter_cons_of_neg (by simpa using Nat.lt_succ_of_le heq.le), round,
        if_pos (hready.mpr heq.le), ih hrest (hreached.queue hnodup hunit heq)]
    · -- The unit goes on waiting.
      rw [List.filter_cons_of_pos (by simpa using hgt.le),
        List.filter_cons_of_neg (by simpa using hgt.ne'),
        List.filter_cons_of_pos (by simpa [Nat.succ_le_iff] using hgt), round,
        if_neg fun htrue => Nat.not_le_of_lt hgt (hready.mp htrue),
        ih hrest (hreached.pass hgt.ne')]

/-- When the scan of a round is over, all units of its number are queued. -/
theorem Reached.next (hnodup : (units.map (·.name)).Nodup) {r : Nat} {queue : List Placed}
    (hreached : Reached units number r 0 (placedNames queue)) :
    Reached units number (r + 1) 0
      (placedNames (queue ++ units.zipIdx.filter (number ·.2 = r))) := by
  intro j used hused
  have hnew : used.name ∈ placedNames (units.zipIdx.filter (number ·.2 = r)) ↔ number j = r := by
    constructor
    · intro hmem
      rcases List.mem_map.mp hmem with ⟨⟨unit, i⟩, hentry, hname⟩
      rcases List.mem_filter.mp hentry with ⟨hplaced, hround⟩
      have hi : units[i]? = some unit := List.mem_zipIdx_iff_getElem?.mp hplaced
      rw [← position_eq hnodup hi hused hname]
      exact of_decide_eq_true hround
    · intro hround
      have hplaced : (used, j) ∈ units.zipIdx := List.mem_zipIdx_iff_getElem?.mpr hused
      exact List.mem_map.mpr
        ⟨(used, j), List.mem_filter.mpr ⟨hplaced, decide_eq_true hround⟩, rfl⟩
  have hold := hreached j used hused
  rw [placedNames, List.map_append, List.mem_append]
  show used.name ∈ placedNames queue ∨ used.name ∈ placedNames _ ↔ _
  rw [hold, hnew]
  omega

theorem earlier_of_filter (units : List BuildUnit) (number : Nat → Nat) (r : Nat) :
    (units.zipIdx.filter (number ·.2 = r)).Pairwise fun a b => Earlier number a.2 b.2 := by
  have hpositions : units.zipIdx.Pairwise fun a b => a.2 < b.2 := by
    rw [← List.pairwise_map, List.zipIdx_map_snd]
    exact List.pairwise_lt_range'
  refine (List.pairwise_filter.mpr (hpositions.imp ?_))
  intro a b hlt ha hb
  have hsame : number a.2 = number b.2 :=
    (of_decide_eq_true ha).trans (of_decide_eq_true hb).symm
  exact Or.inr ⟨hsame, hlt⟩

/-- Rounds that order all units do so by round and position. -/
theorem rounds_earlier (hnodup : (units.map (·.name)).Nodup) (h : CountsRounds units number)
    {limit r : Nat} {queue waiting result : List Placed} (hr : 1 ≤ r)
    (hwaiting : waiting = units.zipIdx.filter (r ≤ number ·.2))
    (hreached : Reached units number r 0 (placedNames queue))
    (hbefore : ∀ entry ∈ queue, number entry.2 < r)
    (hqueue : queue.Pairwise fun a b => Earlier number a.2 b.2)
    (hresult : rounds (units.map (·.name)) limit queue waiting = .ok result) :
    result.Pairwise fun a b => Earlier number a.2 b.2 := by
  fun_induction rounds (units.map (·.name)) limit queue waiting generalizing r with
  | case1 limit queue =>
    cases hresult
    exact hqueue
  | case2 queue waiting hne => cases hresult
  | case3 limit queue waiting hne rest hround => cases hresult
  | case4 limit queue waiting hne ready rest hready hround ih =>
    have hscan := round_eq_filter hnodup h hr (List.drop_zero) hreached
    rw [← hwaiting, placedNames, hround] at hscan
    cases hscan
    refine ih (Nat.succ_le_succ (Nat.zero_le r)) rfl (hreached.next hnodup) ?_ ?_ hresult
    · intro entry hentry
      rcases List.mem_append.mp hentry with hold | hnew
      · exact Nat.lt_succ_of_lt (hbefore entry hold)
      · rw [of_decide_eq_true (List.mem_filter.mp hnew).2]
        exact Nat.lt_succ_self r
    · refine List.pairwise_append.mpr ⟨hqueue, earlier_of_filter units number r, ?_⟩
      intro a ha b hb
      have hround : number b.2 = r := of_decide_eq_true (List.mem_filter.mp hb).2
      exact Or.inl (hround ▸ hbefore a ha)

/-- An order goes by round and position. -/
theorem sequence_earlier (hnodup : (units.map (·.name)).Nodup) (h : CountsRounds units number)
    {order : List Nat} (horder : sequence units = .ok order) :
    order.Pairwise (Earlier number) := by
  have hone : ∀ i < units.length, 1 ≤ number i := fun i hi => (h i hi).1.1
  have hall : units.zipIdx = units.zipIdx.filter (1 ≤ number ·.2) := by
    refine (List.filter_eq_self.mpr ?_).symm
    rintro ⟨unit, i⟩ hentry
    have hi := List.mem_zipIdx_iff_getElem?.mp hentry
    exact decide_eq_true (hone i (List.getElem?_eq_some_iff.mp hi).1)
  have hnone : Reached units number 1 0 (placedNames []) := by
    intro j used hused
    have hj := hone j (List.getElem?_eq_some_iff.mp hused).1
    constructor
    · intro hmem
      cases hmem
    · omega
  rw [sequence] at horder
  cases hrounds : rounds (units.map (·.name)) units.length [] units.zipIdx with
  | error waiting =>
    rw [hrounds] at horder
    cases horder
  | ok result =>
    rw [hrounds] at horder
    cases horder
    rw [List.pairwise_map]
    exact rounds_earlier hnodup h le_rfl hall hnone (by simp) .nil hrounds

/-- Positions can be arranged by round and position in one way only. -/
theorem eq_of_earlier {order other : List Nat} (hperm : order.Perm other)
    (horder : order.Pairwise (Earlier number)) (hother : other.Pairwise (Earlier number)) :
    order = other := by
  refine List.Perm.eq_of_pairwise (fun i j _ _ hij hji => ?_) horder hother hperm
  rcases hij with hlt | ⟨heq, hlt⟩
  · rcases hji with hgt | ⟨heq, -⟩
    · omega
    · omega
  · rcases hji with hgt | ⟨-, hgt⟩
    · omega
    · omega

/-! ## Lists in which nothing waits -/

/-- Where every unit stands behind those that it needs, the first round queues them all. -/
theorem sequence_eq_range (hnodup : (units.map (·.name)).Nodup)
    (hacyclic : ∀ name, ¬ TransGen (Needs units) name name)
    (hfirst : ∀ i j, NeedsAt units i j → j < i) :
    sequence units = .ok (List.range units.length) := by
  have hcounts : CountsRounds units (fun _ => 1) := by
    intro i _
    refine ⟨⟨le_rfl, fun j hneeds => ⟨fun _ => le_rfl, fun hlt => ?_⟩⟩, fun r hr => hr.1⟩
    exact absurd hlt (Nat.lt_asymm (hfirst i j hneeds))
  obtain ⟨order, horder⟩ := (sequence_correct units hnodup).1.mpr hacyclic
  have hperm := ((sequence_correct units hnodup).2 order horder).1
  have hrange : (List.range units.length).Pairwise (Earlier fun _ => 1) :=
    List.pairwise_lt_range.imp fun hlt => Or.inr ⟨rfl, hlt⟩
  rw [horder, eq_of_earlier hperm (sequence_earlier hnodup hcounts horder) hrange]

theorem Needs.of_perm {others : List BuildUnit} (hperm : units.Perm others) {user used : String}
    (h : Needs units user used) : Needs others user used := by
  rcases h with ⟨hother, hmember, unit, hunit, hname, hdep⟩
  exact ⟨hother, (hperm.map _).mem_iff.mp hmember, unit, hperm.mem_iff.mp hunit, hname, hdep⟩

/-- Units that were put in order are in order. -/
theorem sequence_sorted (hnodup : (units.map (·.name)).Nodup)
    (hacyclic : ∀ name, ¬ TransGen (Needs units) name name) {order : List Nat}
    (horder : sequence units = .ok order) :
    sequence (order.filterMap (units[·]?)) = .ok (List.range units.length) := by
  have hperm : (order.filterMap (units[·]?)).Perm units := by
    have hsequence : sequence (units.map id) = .ok order := by rwa [List.map_id]
    exact (BuildOrderer.sequence_members hsequence).1
  have hplaces : order.Perm (List.range units.length) :=
    ((sequence_correct units hnodup).2 order horder).1
  have hdistinct : order.Nodup := hplaces.nodup_iff.mpr List.nodup_range
  have hmembers : List.Forall₂ (fun position unit => units[position]? = some unit) order
      (order.filterMap (units[·]?)) :=
    forall₂_filterMap fun _ => lt_of_mem_sequence horder
  -- The unit at a position has come from the place that the order names at this position.
  have hplace : ∀ {k : Nat} {unit : BuildUnit}, (order.filterMap (units[·]?))[k]? = some unit →
      ∃ i, units[i]? = some unit ∧ order.idxOf i = k := by
    intro k unit hunit
    rcases exists_getElem?_of_forall₂ hmembers.flip hunit with ⟨i, hi, hplaced⟩
    rcases List.getElem?_eq_some_iff.mp hi with ⟨hbound, rfl⟩
    exact ⟨_, hplaced, hdistinct.idxOf_getElem k hbound⟩
  have hcycles : ∀ name, ¬ TransGen (Needs (order.filterMap (units[·]?))) name name :=
    fun name hcycle => hacyclic name (TransGen.mono (fun _ _ => Needs.of_perm hperm) _ _ hcycle)
  have hsorted := sequence_eq_range ((hperm.map _).nodup_iff.mpr hnodup) hcycles ?_
  · rwa [hperm.length_eq] at hsorted
  · rintro k l ⟨hne, user, huser, used, hused, hdep⟩
    rcases hplace huser with ⟨i, hi, rfl⟩
    rcases hplace hused with ⟨j, hj, rfl⟩
    have hdiffer : i ≠ j := by
      rintro rfl
      exact hne rfl
    exact NeedsAt.idxOf_lt hnodup horder ⟨hdiffer, user, hi, used, hj, hdep⟩

/-! ## What does not count -/

/-- Units of one name that depend on the same members, themselves excepted. -/
structure SameNeeds (members : List String) (a b : BuildUnit) : Prop where
  name : a.name = b.name
  dependencies : ∀ used ∈ members, used ≠ a.name →
    (used ∈ a.dependencies ↔ used ∈ b.dependencies)

theorem SameNeeds.symm {members : List String} {a b : BuildUnit} (h : SameNeeds members a b) :
    SameNeeds members b a :=
  ⟨h.name.symm, fun used hmember hother =>
    (h.dependencies used hmember (h.name ▸ hother)).symm⟩

theorem map_name_of_forall₂ {members : List String} {others : List BuildUnit}
    (hsame : List.Forall₂ (SameNeeds members) units others) :
    units.map (·.name) = others.map (·.name) :=
  map_eq_map_iff.mpr (hsame.imp fun _ _ h => h.name)

theorem NeedsAt.of_same {others : List BuildUnit} (hnodup : (units.map (·.name)).Nodup)
    (hsame : List.Forall₂ (SameNeeds (units.map (·.name))) units others) {i j : Nat}
    (h : NeedsAt units i j) : NeedsAt others i j := by
  rcases h with ⟨hne, user, huser, used, hused, hdep⟩
  rcases exists_getElem?_of_forall₂ hsame huser with ⟨otherUser, hotherUser, hlike⟩
  rcases exists_getElem?_of_forall₂ hsame hused with ⟨otherUsed, hotherUsed, hname⟩
  have hmember : used.name ∈ units.map (·.name) :=
    List.mem_map.mpr ⟨used, List.mem_of_getElem? hused, rfl⟩
  have hother : used.name ≠ user.name := fun heq => hne (position_eq hnodup huser hused heq.symm)
  refine ⟨hne, otherUser, hotherUser, otherUsed, hotherUsed, ?_⟩
  rw [← hname.name]
  exact (hlike.dependencies used.name hmember hother).mp hdep

theorem Needs.of_same {others : List BuildUnit}
    (hsame : List.Forall₂ (SameNeeds (units.map (·.name))) units others) {user used : String}
    (h : Needs units user used) : Needs others user used := by
  rcases h with ⟨hother, hmember, unit, hunit, rfl, hdep⟩
  rcases List.mem_iff_getElem?.mp hunit with ⟨i, hi⟩
  rcases exists_getElem?_of_forall₂ hsame hi with ⟨like, hlike, hneeds⟩
  refine ⟨hother, map_name_of_forall₂ hsame ▸ hmember, like, List.mem_of_getElem? hlike,
    hneeds.name.symm, ?_⟩
  exact (hneeds.dependencies used hmember hother).mp hdep

/-- Dependencies on other names and of units on themselves make no difference to the order. -/
theorem sequence_same {others : List BuildUnit} (hnodup : (units.map (·.name)).Nodup)
    (hacyclic : ∀ name, ¬ TransGen (Needs units) name name)
    (hsame : List.Forall₂ (SameNeeds (units.map (·.name))) units others) :
    sequence others = sequence units := by
  have hnames := map_name_of_forall₂ hsame
  have hback : List.Forall₂ (SameNeeds (others.map (·.name))) others units := by
    rw [← hnames]
    exact List.Forall₂.flip (hsame.imp fun _ _ h => h.symm)
  have hdistinct : (others.map (·.name)).Nodup := hnames ▸ hnodup
  have hneeds : ∀ i j, NeedsAt others i j ↔ NeedsAt units i j := fun i j =>
    ⟨NeedsAt.of_same hdistinct hback, NeedsAt.of_same hnodup hsame⟩
  have hothers : ∀ name, ¬ TransGen (Needs others) name name := fun name hcycle =>
    hacyclic name (TransGen.mono (fun _ _ => Needs.of_same hback) _ _ hcycle)
  -- Rounds are counted from what is needed, so they are the same.
  have hcounts := countsRounds_roundOf hnodup hacyclic
  have hcounted : CountsRounds others (roundOf units) := by
    intro i hi
    rw [← hsame.length_eq] at hi
    have hleast := hcounts i hi
    simp only [LateEnough, hneeds] at hleast ⊢
    exact hleast
  obtain ⟨order, horder⟩ := (sequence_correct units hnodup).1.mpr hacyclic
  obtain ⟨other, hother⟩ := (sequence_correct others hdistinct).1.mpr hothers
  have hperm : order.Perm other := by
    have hplaces := ((sequence_correct units hnodup).2 order horder).1
    rw [hsame.length_eq] at hplaces
    exact hplaces.trans ((sequence_correct others hdistinct).2 other hother).1.symm
  rw [horder, hother, eq_of_earlier hperm (sequence_earlier hnodup hcounts horder)
    (sequence_earlier hdistinct hcounted hother)]

/-! ## The order -/

/-- Units with distinct names and without a cycle are ordered by round and position. The round of a
unit is the least number from one on that is not below those of the units it needs further in front
and above those of the units it needs further back: there are such numbers, and whatever has this
property decides the order. Hence units that stand behind all that they need stay where they are,
which is so for units that were put in order, and only dependencies on other units of the list
count. -/
theorem sequence_by_rounds (hnodup : (units.map (·.name)).Nodup)
    (hacyclic : ∀ name, ¬ TransGen (Needs units) name name) :
    CountsRounds units (roundOf units) ∧
      (∀ number, CountsRounds units number →
        ∃ order, sequence units = .ok order ∧ order.Perm (List.range units.length) ∧
          order.Pairwise (Earlier number)) ∧
      ((∀ i j, NeedsAt units i j → j < i) → sequence units = .ok (List.range units.length)) ∧
      (∀ order, sequence units = .ok order →
        sequence (order.filterMap (units[·]?)) = .ok (List.range units.length)) ∧
      ∀ others, List.Forall₂ (SameNeeds (units.map (·.name))) units others →
        sequence others = sequence units := by
  refine ⟨countsRounds_roundOf hnodup hacyclic, ?_, sequence_eq_range hnodup hacyclic,
    fun order => sequence_sorted hnodup hacyclic, fun others => sequence_same hnodup hacyclic⟩
  intro number hcounts
  obtain ⟨order, horder⟩ := (sequence_correct units hnodup).1.mpr hacyclic
  have hperm := ((sequence_correct units hnodup).2 order horder).1
  exact ⟨order, horder, hperm, sequence_earlier hnodup hcounts horder⟩

/-- The first package needs the third, which needs the second; the fourth needs the first. Some also
name themselves or a package of another place. -/
def tiedUnits : List BuildUnit :=
  [⟨"app", "1", ["driver", "std"]⟩, ⟨"base", "1", ["base"]⟩, ⟨"driver", "1", ["base"]⟩,
    ⟨"extra", "1", ["app"]⟩]

/-- The same without the dependencies that do not count. -/
def bareUnits : List BuildUnit :=
  [⟨"app", "2", ["driver"]⟩, ⟨"base", "1", []⟩, ⟨"driver", "1", ["base"]⟩, ⟨"extra", "1", ["app"]⟩]

/-- The first round queues the second and the third package, since the latter only needs what stands
in front of it. The first package has to wait for the next round, and the fourth with it. -/
theorem tiedUnits_by_rounds :
    (tiedUnits.map (·.name)).Nodup ∧ (∀ name, ¬ TransGen (Needs tiedUnits) name name) ∧
      (List.range 4).map (roundOf tiedUnits) = [2, 1, 1, 2] ∧
      sequence tiedUnits = .ok [1, 2, 0, 3] ∧ sequence bareUnits = .ok [1, 2, 0, 3] := by
  have hnodup : (tiedUnits.map (·.name)).Nodup := by decide
  have hsequence : sequence tiedUnits = .ok [1, 2, 0, 3] := by decide
  have hacyclic := (sequence_correct tiedUnits hnodup).1.mp ⟨_, hsequence⟩
  have hsame : List.Forall₂ (SameNeeds (tiedUnits.map (·.name))) tiedUnits bareUnits := by
    refine .cons ⟨rfl, by decide⟩ (.cons ⟨rfl, by decide⟩ (.cons ⟨rfl, by decide⟩
      (.cons ⟨rfl, by decide⟩ .nil)))
  rcases sequence_by_rounds hnodup hacyclic with ⟨-, -, -, -, hothers⟩
  exact ⟨hnodup, hacyclic, by decide, hsequence, (hothers bareUnits hsame).trans hsequence⟩

end RosInterface.BuildOrder
