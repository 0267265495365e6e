import Mathlib.Data.List.Nodup
import RosInterface.BuildOrder

namespace RosInterface.BuildOrder

/-! # Rounds of the build order

What a round does to the units that wait, and what all rounds together do. The invariant is
`DependencyFirst`: whatever is queued stands behind all it has to wait for. Rounds only move units
from the waiting list to the queue, so that both together remain the units that were given.
-/

/-- The names of some units, in their order. -/
def placedNames (entries : List Placed) : List String :=
  entries.map (·.1.name)

theorem isReady_iff {members queued : List String} {unit : BuildUnit} :
    isReady members queued unit = true ↔
      ∀ dependency ∈ unit.dependencies,
        dependency ≠ unit.name → dependency ∈ members → dependency ∈ queued := by
  simp only [isReady, List.all_eq_true, Bool.or_eq_true, beq_iff_eq, Bool.not_eq_true',
    List.contains_eq_mem, decide_eq_true_eq, decide_eq_false_iff_not]
  constructor
  · intro h dependency hdep hother hmember
    rcases h dependency hdep with (hself | hexternal) | hqueued
    · exact absurd hself hother
    · exact absurd hmember hexternal
    · exact hqueued
  · intro h dependency hdep
    by_cases hself : dependency = unit.name
    · exact Or.inl (Or.inl hself)
    · by_cases hmember : dependency ∈ members
      · exact Or.inr (h dependency hdep hself hmember)
      · exact Or.inl (Or.inr hmember)

/-- Every queued unit has all that it waits for in front of it. -/
def DependencyFirst (members : List String) (queue : List Placed) : Prop :=
  ∀ before entry after, queue = before ++ entry :: after →
    isReady members (placedNames before) entry.1 = true

theorem dependencyFirst_nil (members : List String) : DependencyFirst members [] := by
  intro before entry after h
  simp at h

/-- A unit that is ready can be queued at the end. -/
theorem DependencyFirst.snoc {members : List String} {queue : List Placed} {entry : Placed}
    (h : DependencyFirst members queue)
    (hready : isReady members (placedNames queue) entry.1 = true) :
    DependencyFirst members (queue ++ [entry]) := by
  intro before last after hsplit
  -- What stands at the end is the new unit, or else the split is one of the old queue.
  rcases List.eq_nil_or_concat after with rfl | ⟨rest, final, rfl⟩
  · rcases List.append_inj' hsplit rfl with ⟨rfl, hlast⟩
    rw [List.singleton_inj] at hlast
    exact hlast ▸ hready
  · have hsplit' : queue ++ [entry] = (before ++ last :: rest) ++ [final] := by
      simpa using hsplit
    rcases List.append_inj' hsplit' rfl with ⟨hqueue, -⟩
    exact h before last rest hqueue

/-! ## One round -/

/-- A round moves units from the waiting list to the queue. It keeps the queue in order, keeps the
order of those that go on waiting, and queues nothing only if no unit is ready. -/
structure RoundSpec (members : List String) (queue waiting ready rest : List Placed) : Prop where
  perm : (ready ++ rest).Perm waiting
  sublist : rest.Sublist waiting
  first : DependencyFirst members queue → DependencyFirst members (queue ++ ready)
  stuck : ready = [] → rest = waiting ∧
    ∀ entry ∈ waiting, isReady members (placedNames queue) entry.1 = false

theorem round_spec (members : List String) (queue waiting : List Placed) :
    RoundSpec members queue waiting (round members (placedNames queue) waiting).1
      (round members (placedNames queue) waiting).2 := by
  -- A unit that is queued lets others follow in the same round, so the queue has to vary.
  induction waiting generalizing queue with
  | nil =>
    refine ⟨List.Perm.refl _, List.Sublist.refl _, ?_, by simp [round]⟩
    intro h
    simpa [round] using h
  | cons entry waiting ih =>
    rw [round]
    cases hready : isReady members (placedNames queue) entry.1 with
    | true =>
      have hnames : placedNames queue ++ [entry.1.name] = placedNames (queue ++ [entry]) := by
        simp [placedNames]
      have hrest := ih (queue ++ [entry])
      rw [if_pos rfl, hnames]
      refine ⟨hrest.perm.cons entry, hrest.sublist.cons entry, ?_, by simp⟩
      intro hfirst
      have := hrest.first (hfirst.snoc hready)
      rwa [List.append_assoc] at this
    | false =>
      have hrest := ih queue
      rw [if_neg (by simp)]
      refine ⟨?_, hrest.sublist.cons_cons entry, hrest.first, ?_⟩
      · exact List.perm_middle.trans (hrest.perm.cons entry)
      · intro hnone
        rcases hrest.stuck hnone with ⟨hsame, hall⟩
        refine ⟨congrArg (entry :: ·) hsame, ?_⟩
        intro other hother
        rcases List.mem_cons.mp hother with rfl | hother
        · exact hready
        · exact hall other hother

/-! ## All rounds -/

/-- What is left when no unit that waits is ready any more: the units are those of the queue and
those that wait, and each of the latter still lacks something. -/
structure Stuck (members : List String) (units queue rest : List Placed) : Prop where
  perm : (queue ++ rest).Perm units
  first : DependencyFirst members queue
  nonempty : rest ≠ []
  blocked : ∀ entry ∈ rest, isReady members (placedNames queue) entry.1 = false

/-- Rounds end with all units in order, or stuck. Every round that is not the last one queues a
unit, so the limit is never what ends them. -/
theorem rounds_spec {members : List String} {limit : Nat} {queue waiting : List Placed}
    (hfirst : DependencyFirst members queue) (hlimit : waiting.length ≤ limit) :
    match rounds members limit queue waiting with
    | .ok result => result.Perm (queue ++ waiting) ∧ DependencyFirst members result
    | .error rest => rest.Sublist waiting ∧
        ∃ done, Stuck members (queue ++ waiting) done rest := by
  fun_induction rounds members limit queue waiting with
  | case1 limit queue =>
    exact ⟨by rw [List.append_nil], hfirst⟩
  | case2 queue waiting hne =>
    have hempty : waiting = [] := List.eq_nil_of_length_eq_zero (Nat.le_zero.mp hlimit)
    exact absurd hempty hne
  | case3 limit queue waiting hne rest hround =>
    -- A round without progress ends the search with all that waits.
    have hspec := round_spec members queue waiting
    rcases hspec.stuck (congrArg Prod.fst hround) with ⟨-, hblocked⟩
    exact ⟨List.Sublist.refl waiting, queue, List.Perm.refl _, hfirst, hne, hblocked⟩
  | case4 limit queue waiting hne ready rest hready hround ih =>
    have hspec : RoundSpec members queue waiting ready rest := by
      have hall := round_spec members queue waiting
      rwa [placedNames, hround] at hall
    -- The round queued something, so the rest is short enough for one round less.
    have hqueued : 0 < ready.length := List.length_pos_iff.mpr hready
    have hlength := hspec.perm.length_eq
    rw [List.length_append] at hlength
    have hall : (queue ++ ready ++ rest).Perm (queue ++ waiting) := by
      rw [List.append_assoc]
      exact hspec.perm.append_left queue
    have hrest := ih (hspec.first hfirst) (by omega)
    revert hrest
    cases rounds members limit (queue ++ ready) rest with
    | ok result =>
      rintro ⟨hperm, hresult⟩
      exact ⟨hperm.trans hall, hresult⟩
    | error remaining =>
      rintro ⟨hsub, done, hstuck⟩
      exact ⟨hsub.trans hspec.sublist, done,
        hstuck.perm.trans hall, hstuck.first, hstuck.nonempty, hstuck.blocked⟩

/-- The order of some units is a dependency-first arrangement of them all, and where there is none,
the names are those of the units that are stuck. -/
theorem sequence_spec (units : List BuildUnit) :
    match sequence units with
    | .ok order => ∃ queue : List Placed, order = queue.map (·.2) ∧
        queue.Perm units.zipIdx ∧ DependencyFirst (units.map (·.name)) queue
    | .error remaining => ∃ rest : List Placed, remaining = placedNames rest ∧
        rest.Sublist units.zipIdx ∧ ∃ done, Stuck (units.map (·.name)) units.zipIdx done rest := by
  have hspec := @rounds_spec (units.map (·.name)) units.length [] units.zipIdx
    (dependencyFirst_nil _) (by simp)
  rw [sequence]
  revert hspec
  cases rounds (units.map (·.name)) units.length [] units.zipIdx with
  | ok queue =>
    rintro ⟨hperm, hfirst⟩
    exact ⟨queue, rfl, hperm, hfirst⟩
  | error rest =>
    rintro ⟨hsub, done, hstuck⟩
    exact ⟨rest, rfl, hsub, done, hstuck⟩

end RosInterface.BuildOrder
