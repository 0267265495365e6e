import RosInterface.Sorted

/-! # Referenced packages

The registry knows every package name that any message refers to, and which of these packages were
selected to be built.
-/

namespace RosInterface

/-- A package name that some message refers to. -/
structure RegistryEntry where
  package : String
  isBuilt : Bool
deriving DecidableEq, Repr, Inhabited

/-- The referenced packages, sorted by name. -/
structure Registry where
  entries : List RegistryEntry := []
deriving DecidableEq, Repr

namespace Registry

/-- The entry of a package. -/
def get? (registry : Registry) (package : String) : Option RegistryEntry :=
  registry.entries.find? (·.package == package)

/-- Records a reference to a package. What is known about the package stays. -/
def add (registry : Registry) (package : String) : Registry :=
  let order (a b : RegistryEntry) := compare a.package b.package
  ⟨Sorted.insert order ⟨package, false⟩ registry.entries⟩

/-- Records that a package is built, if any message refers to it. -/
def markBuilt (registry : Registry) (package : String) : Registry :=
  ⟨registry.entries.map fun entry =>
    if entry.package = package then { entry with isBuilt := true } else entry⟩

/-- The referenced packages that are not built. -/
def external (registry : Registry) : List String :=
  (registry.entries.filter (!·.isBuilt)).map (·.package)

/-- The number of referenced packages. -/
def size (registry : Registry) : Nat :=
  registry.entries.length

end Registry

end RosInterface
