/-! # Build order

Packages are ordered in rounds. A round goes through the packages that are still waiting, in their
given order, and queues each one whose dependencies are all queued by then. Dependencies on names
that are not to be built, and on the package itself, never hold a package back. When a round queues
nothing, the packages that wait depend on a cycle, and they are the error.
-/

namespace RosInterface

/-- What the order of a package may depend on. -/
structure BuildUnit where
  name : String
  version : String
  dependencies : List String
deriving DecidableEq, Repr, Inhabited

namespace BuildOrder

/-- A unit with its position in the list that is to be ordered. -/
abbrev Placed :=
  BuildUnit × Nat

/-- Whether a unit can be queued behind the `queued` names, where `members` are the names that are
built at all. -/
def isReady (members queued : List String) (unit : BuildUnit) : Bool :=
  unit.dependencies.all fun dependency =>
    dependency == unit.name || !members.contains dependency || queued.contains dependency

/-- One round: the units that it queues, and those that go on waiting. A unit that is queued counts
for the units behind it at once. -/
def round (members queued : List String) : List Placed → List Placed × List Placed
  | [] => ([], [])
  | entry :: rest =>
    if isReady members queued entry.1 then
      let (ready, waiting) := round members (queued ++ [entry.1.name]) rest
      (entry :: ready, waiting)
    else
      let (ready, waiting) := round members queued rest
      (ready, entry :: waiting)

/-- Rounds until nothing waits. The error holds the units for which no round can do anything. Every
round but the last queues a unit, so as many rounds as there are waiting units are enough. -/
def rounds (members : List String) :
    Nat → List Placed → List Placed → Except (List Placed) (List Placed)
  | _, queued, [] => .ok queued
  | 0, _, waiting => .error waiting
  | limit + 1, queued, waiting =>
    match round members (queued.map (·.1.name)) waiting with
    | ([], _) => .error waiting
    | (ready, rest) => rounds members limit (queued ++ ready) rest

/-- The order in which units can be built, as positions in their list, or the names of those that
cannot be ordered. -/
def sequence (units : List BuildUnit) : Except (List String) (List Nat) :=
  match rounds (units.map (·.name)) units.length [] units.zipIdx with
  | .ok queued => .ok (queued.map (·.2))
  | .error waiting => .error (waiting.map (·.1.name))

end BuildOrder

/-! ## Remembered orders -/

/-- The last order that was found, with the units that it is the order of. -/
structure BuildOrderer where
  units : Option (List BuildUnit) := none
  order : List Nat := []
deriving DecidableEq, Repr

namespace BuildOrderer

/-- Whether the remembered order belongs to other units. -/
def hasChanged (orderer : BuildOrderer) (units : List BuildUnit) : Bool :=
  orderer.units != some units

/-- Orders units and remembers the result; a failure leaves what is remembered alone. -/
def sort (orderer : BuildOrderer) (units : List BuildUnit) :
    Except (List String) Unit × BuildOrderer :=
  match BuildOrder.sequence units with
  | .ok order => (.ok (), ⟨some units, order⟩)
  | .error remaining => (.error remaining, orderer)

/-- The members of a list at the remembered positions. -/
def select {α : Type} (orderer : BuildOrderer) (members : List α) : List α :=
  orderer.order.filterMap (members[·]?)

/-- Members in build order, where `unitOf` tells what the order of each may depend on. The order is
found anew only if the units differ from those remembered. -/
def inOrder {α : Type} (orderer : BuildOrderer) (unitOf : α → BuildUnit) (members : List α) :
    Except (List String) (List α) × BuildOrderer :=
  let units := members.map unitOf
  if orderer.hasChanged units then
    match orderer.sort units with
    | (.ok (), sorted) => (.ok (sorted.select members), sorted)
    | (.error remaining, unsorted) => (.error remaining, unsorted)
  else (.ok (orderer.select members), orderer)

end BuildOrderer

end RosInterface
