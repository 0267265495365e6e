import Mathlib.Data.Finset.Dedup
import RosInterface.Proofs.BuildOrder.Orderer

namespace RosInterface

/-! # Orders remembered under keys

An orderer need not remember the units whose order it knows. A `KeyedOrderer` only remembers a key
of them, such as a digest, and `inOrder_never_stale` says what this asks of the keys: among the
lists that the orderer is given, those of one key must agree in names, versions and sets of
dependencies. Then no call is ever answered with the order of other units, whatever was ordered or
could not be ordered before.

* The order of some units is decided by their views (`sequence_eq_of_views_eq`), so an order that
  was found for one list serves every list of the same views.
* `Holds` is the invariant: what an orderer holds is the order of the list that was ordered last.
  A call that fails changes nothing, and a call that succeeds makes its own list the last one.
-/

/-! ## Views -/

/-- What is looked at when units are compared: the dependencies count as a set. -/
def BuildUnit.view (unit : BuildUnit) : String × String × Finset String :=
  (unit.name, unit.version, unit.dependencies.toFinset)

/-- A unit that has a given view. -/
noncomputable def BuildUnit.ofView (view : String × String × Finset String) : BuildUnit :=
  ⟨view.1, view.2.1, view.2.2.toList⟩

namespace BuildOrder

theorem isReady_congr {members queued : List String} {unit other : BuildUnit}
    (hname : unit.name = other.name)
    (hdependencies : ∀ used, used ∈ unit.dependencies ↔ used ∈ other.dependencies) :
    isReady members queued unit = isReady members queued other := by
  rw [Bool.eq_iff_iff, isReady_iff, isReady_iff, hname]
  simp only [hdependencies]

variable {f : BuildUnit → BuildUnit} (hname : ∀ unit, (f unit).name = unit.name)
  (hdependencies : ∀ unit used, used ∈ (f unit).dependencies ↔ used ∈ unit.dependencies)

include hname hdependencies

/-- A round queues the same places for units with the same dependencies. -/
theorem round_map (members queued : List String) (waiting : List Placed) :
    round members queued (waiting.map (Prod.map f id)) =
      Prod.map (List.map (Prod.map f id)) (List.map (Prod.map f id))
        (round members queued waiting) := by
  induction waiting generalizing queued with
  | nil => rfl
  | cons entry rest ih =>
    have hready : isReady members queued (f entry.1) = isReady members queued entry.1 :=
      isReady_congr (hname entry.1) (hdependencies entry.1)
    rw [List.map_cons, round, round, Prod.map_fst, hready, hname]
    cases isReady members queued entry.1 with
    | true => rw [if_pos rfl, if_pos rfl, ih]; rfl
    | false => rw [if_neg Bool.false_ne_true, if_neg Bool.false_ne_true, ih]; rfl

theorem rounds_map (members : List String) (limit : Nat) (queued waiting : List Placed) :
    rounds members limit (queued.map (Prod.map f id)) (waiting.map (Prod.map f id)) =
      ((rounds members limit queued waiting).map (List.map (Prod.map f id))).mapError
        (List.map (Prod.map f id)) := by
  have hnames : ∀ entries : List Placed,
      (entries.map (Prod.map f id)).map (·.1.name) = entries.map (·.1.name) := by
    intro entries
    rw [List.map_map]
    exact List.map_congr_left fun entry _ => hname entry.1
  fun_induction rounds members limit queued waiting with
  | case1 limit queued =>
    rw [List.map_nil, rounds]
    rfl
  | case2 queued waiting hsome =>
    rw [rounds]
    · rfl
    · simpa using hsome
  | case3 limit queued waiting hsome rest hround =>
    have hmapped := round_map hname hdependencies members (queued.map (·.1.name)) waiting
    rw [rounds, hnames, hmapped, hround]
    · rfl
    · simpa using hsome
  | case4 limit queued waiting hsome ready rest hready hround ih =>
    have hmapped := round_map hname hdependencies members (queued.map (·.1.name)) waiting
    rw [rounds, hnames, hmapped, hround, ← ih, List.map_append]
    · split
      · rename_i hempty
        simp only [Prod.map_apply, Prod.mk.injEq, List.map_eq_nil_iff] at hempty
        exact absurd hempty.1 hready
      · rename_i hsplit
        cases hsplit
        rfl
    · simpa using hsome

theorem sequence_map (units : List BuildUnit) : sequence (units.map f) = sequence units := by
  have hnames : (units.map f).map (·.name) = units.map (·.name) := by
    rw [List.map_map]
    exact List.map_congr_left fun unit _ => hname unit
  have hrounds := rounds_map hname hdependencies (units.map (·.name)) units.length [] units.zipIdx
  rw [List.map_nil] at hrounds
  rw [sequence, sequence, hnames, List.length_map, List.zipIdx_map, hrounds]
  cases rounds (units.map (·.name)) units.length [] units.zipIdx with
  | ok queued => simp [Except.map, Except.mapError]
  | error waiting => simp [Except.map, Except.mapError, hname]

omit hname hdependencies

/-- The order of units is decided by their views. -/
theorem sequence_eq_of_views_eq {units others : List BuildUnit}
    (hviews : units.map (·.view) = others.map (·.view)) : sequence units = sequence others := by
  have hcanonical : ∀ units : List BuildUnit,
      sequence ((units.map (·.view)).map BuildUnit.ofView) = sequence units := by
    intro units
    rw [List.map_map]
    refine sequence_map (f := fun unit => .ofView unit.view) (fun _ => rfl) ?_ units
    intro unit used
    simp [BuildUnit.ofView, BuildUnit.view]
  rw [← hcanonical units, hviews, hcanonical others]

end BuildOrder

/-! ## Keyed orderers -/

/-- The last order that was found, with a key of the units that it is the order of. -/
structure KeyedOrderer (κ : Type) where
  key : Option κ := none
  order : List Nat := []

/-- What an orderer can be asked for. -/
inductive OrderCall (α : Type) where
  | sort (members : List α)
  | inOrder (members : List α)

/-- The members that a call is about. -/
def OrderCall.members {α : Type} : OrderCall α → List α
  | sort members => members
  | inOrder members => members

namespace KeyedOrderer

variable {κ α : Type} [DecidableEq κ] (keyOf : List BuildUnit → κ) (unitOf : α → BuildUnit)

/-- Whether the remembered order belongs to units of another key. -/
def hasChanged (orderer : KeyedOrderer κ) (units : List BuildUnit) : Bool :=
  orderer.key != some (keyOf units)

/-- Orders units and remembers the result under their key; a failure leaves what is remembered
alone. -/
def sort (orderer : KeyedOrderer κ) (units : List BuildUnit) :
    Except (List String) Unit × KeyedOrderer κ :=
  match BuildOrder.sequence units with
  | .ok order => (.ok (), ⟨some (keyOf units), order⟩)
  | .error remaining => (.error remaining, orderer)

/-- The members of a list at the remembered positions. -/
def select (orderer : KeyedOrderer κ) (members : List α) : List α :=
  orderer.order.filterMap (members[·]?)

/-- Members in build order, which is found anew only if the key of their units is not the one that
is remembered. -/
def inOrder (orderer : KeyedOrderer κ) (members : List α) :
    Except (List String) (List α) × KeyedOrderer κ :=
  let units := members.map unitOf
  if orderer.hasChanged keyOf units then
    match orderer.sort keyOf units with
    | (.ok (), sorted) => (.ok (sorted.select members), sorted)
    | (.error remaining, unsorted) => (.error remaining, unsorted)
  else (.ok (orderer.select members), orderer)

/-- The orderer after a call. -/
def perform (orderer : KeyedOrderer κ) : OrderCall α → KeyedOrderer κ
  | .sort members => (orderer.sort keyOf (members.map unitOf)).2
  | .inOrder members => (orderer.inOrder keyOf unitOf members).2

/-- The orderer after calls that were made one after the other. -/
def performAll (orderer : KeyedOrderer κ) (calls : List (OrderCall α)) : KeyedOrderer κ :=
  calls.foldl (perform keyOf unitOf) orderer

/-- The members that were ordered last, be it with a new order or with the remembered one. -/
def lastOrdered (calls : List (OrderCall α)) : Option (List α) :=
  (calls.map (·.members)).reverse.find? fun members =>
    (BuildOrder.sequence (members.map unitOf)).isOk

end KeyedOrderer

namespace BuildOrderer

variable {α : Type} (unitOf : α → BuildUnit)

/-- The orderer after a call. -/
def perform (orderer : BuildOrderer) : OrderCall α → BuildOrderer
  | .sort members => (orderer.sort (members.map unitOf)).2
  | .inOrder members => (orderer.inOrder unitOf members).2

/-- The orderer after calls that were made one after the other. -/
def performAll (orderer : BuildOrderer) (calls : List (OrderCall α)) : BuildOrderer :=
  calls.foldl (perform unitOf) orderer

theorem Remembers.performAll {orderer : BuildOrderer} (h : orderer.Remembers)
    (calls : List (OrderCall α)) : (orderer.performAll unitOf calls).Remembers := by
  induction calls generalizing orderer with
  | nil => exact h
  | cons call calls ih =>
    cases call with
    | sort members => exact ih (h.sort (members.map unitOf))
    | inOrder members => exact ih (h.inOrder unitOf members)

end BuildOrderer

/-! ## What a keyed orderer holds -/

namespace KeyedOrderer

open BuildOrder

variable {κ α : Type} [DecidableEq κ] {keyOf : List BuildUnit → κ} {unitOf : α → BuildUnit}

/-- Lists of one key have units of the same views. -/
def Separates (keyOf : List BuildUnit → κ) (unitOf : α → BuildUnit) (lists : List (List α)) :
    Prop :=
  ∀ list ∈ lists, ∀ other ∈ lists, keyOf (list.map unitOf) = keyOf (other.map unitOf) →
    list.map (fun member => (unitOf member).view) = other.map fun member => (unitOf member).view

/-- Nothing is held before anything was ordered, and then the order and the key of what was ordered
last. -/
def Holds (keyOf : List BuildUnit → κ) (unitOf : α → BuildUnit) (orderer : KeyedOrderer κ) :
    Option (List α) → Prop
  | none => orderer.key = none
  | some members => orderer.key = some (keyOf (members.map unitOf)) ∧
      sequence (members.map unitOf) = .ok orderer.order

variable {orderer : KeyedOrderer κ} {last : Option (List α)}

/-- If the key of some members is the one that is held, then so is their order. -/
theorem Holds.sequence_eq (h : Holds keyOf unitOf orderer last) {members : List α}
    (hseparates : Separates keyOf unitOf (members :: last.toList))
    (hsame : orderer.hasChanged keyOf (members.map unitOf) = false) :
    sequence (members.map unitOf) = .ok orderer.order := by
  have hkey : orderer.key = some (keyOf (members.map unitOf)) := by
    simpa [hasChanged] using hsame
  cases last with
  | none =>
    have hnone : orderer.key = none := h
    rw [hkey] at hnone
    cases hnone
  | some earlier =>
    rcases h with ⟨hearlier, hsequence⟩
    have hkeys : keyOf (members.map unitOf) = keyOf (earlier.map unitOf) :=
      Option.some.inj (hkey.symm.trans hearlier)
    have hviews := hseparates members List.mem_cons_self earlier (by simp) hkeys
    rw [← hsequence]
    refine sequence_eq_of_views_eq ?_
    rw [List.map_map, List.map_map]
    exact hviews

/-- Whether an order has to be found or is held, it is that of the members. A success is held from
then on, and a failure changes nothing. -/
theorem Holds.inOrder_eq (h : Holds keyOf unitOf orderer last) {members : List α}
    (hseparates : Separates keyOf unitOf (members :: last.toList)) :
    orderer.inOrder keyOf unitOf members =
      match sequence (members.map unitOf) with
      | .ok order =>
        (.ok (order.filterMap (members[·]?)), ⟨some (keyOf (members.map unitOf)), order⟩)
      | .error remaining => (.error remaining, orderer) := by
  simp only [inOrder, sort]
  cases hchanged : orderer.hasChanged keyOf (members.map unitOf) with
  | true =>
    rw [if_pos rfl]
    cases sequence (members.map unitOf) with
    | ok order => rfl
    | error remaining => rfl
  | false =>
    have hkey : orderer.key = some (keyOf (members.map unitOf)) := by
      simpa [hasChanged] using hchanged
    rw [if_neg Bool.false_ne_true, h.sequence_eq hseparates hchanged, ← hkey]
    rfl

theorem Holds.perform (h : Holds keyOf unitOf orderer last) {call : OrderCall α}
    (hseparates : Separates keyOf unitOf (call.members :: last.toList)) :
    Holds keyOf unitOf (orderer.perform keyOf unitOf call)
      (if (sequence (call.members.map unitOf)).isOk then some call.members else last) := by
  -- Both kinds of call have the same effect.
  have hafter : orderer.perform keyOf unitOf call =
      match sequence (call.members.map unitOf) with
      | .ok order => ⟨some (keyOf (call.members.map unitOf)), order⟩
      | .error _ => orderer := by
    cases call with
    | sort members =>
      rw [KeyedOrderer.perform, sort, OrderCall.members]
      cases sequence (members.map unitOf) with
      | ok order => rfl
      | error remaining => rfl
    | inOrder members =>
      have hinOrder := h.inOrder_eq hseparates
      rw [OrderCall.members] at hinOrder ⊢
      rw [KeyedOrderer.perform, hinOrder]
      cases sequence (members.map unitOf) with
      | ok order => rfl
      | error remaining => rfl
  rw [hafter]
  cases hsequence : sequence (call.members.map unitOf) with
  | ok order => exact ⟨rfl, hsequence⟩
  | error remaining => exact h

omit [DecidableEq κ] in
theorem Separates.subset {lists others : List (List α)} (h : Separates keyOf unitOf lists)
    (hsubset : others ⊆ lists) : Separates keyOf unitOf others :=
  fun list hlist other hother => h list (hsubset hlist) other (hsubset hother)

theorem mem_of_lastOrdered {calls : List (OrderCall α)} {members : List α}
    (hlast : lastOrdered unitOf calls = some members) :
    members ∈ calls.map (·.members) :=
  List.mem_reverse.mp (List.mem_of_find?_eq_some hlast)

/-- After any calls, what was ordered last is held. -/
theorem holds_performAll {calls : List (OrderCall α)}
    (hseparates : Separates keyOf unitOf (calls.map (·.members))) :
    Holds keyOf unitOf (performAll keyOf unitOf {} calls) (lastOrdered unitOf calls) := by
  induction calls using List.reverseRecOn with
  | nil => rfl
  | append_singleton calls call ih =>
    rw [List.map_append] at hseparates
    have hbefore := ih (hseparates.subset (List.subset_append_left _ _))
    have hlists : call.members :: (lastOrdered unitOf calls).toList ⊆
        calls.map (·.members) ++ [call].map (·.members) := by
      refine List.cons_subset.mpr ⟨by simp, fun members hmembers => ?_⟩
      exact List.mem_append_left _ (mem_of_lastOrdered (Option.mem_toList.mp hmembers))
    have hstep := hbefore.perform (hseparates.subset hlists)
    rw [performAll, List.foldl_concat]
    have hlast : lastOrdered unitOf (calls ++ [call]) =
        if (sequence (call.members.map unitOf)).isOk then some call.members
        else lastOrdered unitOf calls := by
      rw [lastOrdered, List.map_append, List.map_singleton, List.reverse_concat, List.find?_cons]
      cases (sequence (call.members.map unitOf)).isOk with
      | true => rfl
      | false => rfl
    rw [hlast]
    exact hstep

/-! ## Answers -/

/-- Where keys separate the lists that are used, every call is answered with the members at the
positions that the order of their own units has, or with the failure to find one. It is the answer
of an orderer that remembers the units themselves. A failure leaves the orderer as it is, and the
members that were ordered last can be had in order again without a new search. -/
theorem inOrder_never_stale {calls : List (OrderCall α)} {members : List α}
    (hseparates : Separates keyOf unitOf (members :: calls.map (·.members))) :
    let orderer := performAll keyOf unitOf {} calls
    let answer := (sequence (members.map unitOf)).map fun order => order.filterMap (members[·]?)
    (orderer.inOrder keyOf unitOf members).1 = answer ∧
      ((BuildOrderer.performAll unitOf {} calls).inOrder unitOf members).1 = answer ∧
      (∀ order, sequence (members.map unitOf) = .ok order →
        List.Forall₂ (fun position member => members[position]? = some member) order
          (order.filterMap (members[·]?))) ∧
      (∀ remaining, sequence (members.map unitOf) = .error remaining →
        orderer.inOrder keyOf unitOf members = (.error remaining, orderer) ∧
          orderer.sort keyOf (members.map unitOf) = (.error remaining, orderer)) ∧
      ∀ earlier, lastOrdered unitOf calls = some earlier →
        orderer.hasChanged keyOf (earlier.map unitOf) = false := by
  intro orderer answer
  have hholds : Holds keyOf unitOf orderer (lastOrdered unitOf calls) :=
    holds_performAll (hseparates.subset (List.subset_cons_self _ _))
  have hlists : members :: (lastOrdered unitOf calls).toList ⊆ members :: calls.map (·.members) :=
    List.cons_subset_cons members fun _ hlast => mem_of_lastOrdered (Option.mem_toList.mp hlast)
  have hinOrder := hholds.inOrder_eq (hseparates.subset hlists)
  have hremembers : (BuildOrderer.performAll unitOf {} calls).Remembers :=
    BuildOrderer.Remembers.performAll unitOf (fun _ hnone => by cases hnone) calls
  refine ⟨?_, hremembers.inOrder_eq unitOf members, ?_, ?_, ?_⟩
  · rw [hinOrder]
    show _ = (sequence (members.map unitOf)).map _
    cases sequence (members.map unitOf) with
    | ok order => rfl
    | error remaining => rfl
  · intro order horder
    refine forall₂_filterMap fun position hposition => ?_
    have hbound := lt_of_mem_sequence horder hposition
    rwa [List.length_map] at hbound
  · intro remaining hfails
    rw [hinOrder, sort, hfails]
    exact ⟨rfl, rfl⟩
  · intro earlier hlast
    rw [hlast] at hholds
    simp [hasChanged, hholds.1]

/-- A key that tells little about units, but is enough for lists of different lengths. -/
def exampleKey (units : List BuildUnit) : Nat :=
  units.length

/-- A package that needs another one, with the directories that they are in. -/
def exampleMembers (directory : String) : List (String × BuildUnit) :=
  [(directory ++ "/nav", ⟨"nav", "1", ["geometry", "std"]⟩),
    (directory ++ "/geometry", ⟨"geometry", "1", []⟩)]

/-- Packages that need one another in a circle. -/
def circularMembers : List (String × BuildUnit) :=
  [("x", ⟨"x", "1", ["y"]⟩), ("y", ⟨"y", "1", ["z"]⟩), ("z", ⟨"z", "1", ["x"]⟩)]

/-- An order that was found in one directory, and that a failure did not harm, is used in another
one. -/
theorem exampleMembers_reordered :
    let calls := [OrderCall.inOrder (exampleMembers "old"), .sort circularMembers]
    let orderer := performAll exampleKey Prod.snd {} calls
    Separates exampleKey Prod.snd (exampleMembers "new" :: calls.map (·.members)) ∧
      orderer.hasChanged exampleKey ((exampleMembers "new").map Prod.snd) = false ∧
      (orderer.inOrder exampleKey Prod.snd (exampleMembers "new")).1 =
        .ok [("new/geometry", ⟨"geometry", "1", []⟩),
          ("new/nav", ⟨"nav", "1", ["geometry", "std"]⟩)] := by
  intro calls orderer
  have hseparates : Separates exampleKey Prod.snd
      (exampleMembers "new" :: calls.map (·.members)) := by
    unfold Separates
    decide +kernel
  rcases inOrder_never_stale hseparates with ⟨hanswer, -, -, -, hlast⟩
  refine ⟨hseparates, hlast (exampleMembers "old") ?_, hanswer.trans ?_⟩
  · decide +kernel
  · decide +kernel

end KeyedOrderer

end RosInterface
