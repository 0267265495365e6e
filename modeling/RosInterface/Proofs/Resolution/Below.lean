import RosInterface.Proofs.Resolution.Walk

namespace RosInterface

/-! # What lies below a type

The flattened definition of a resolved type lists types of the catalog only, each of which the type
depends on in one step or more.
-/

namespace LinkedType

variable {p : LinkedType → Prop}

/-! ## Visits -/

mutual

/-- A visit finds only what has a property that passes from types to their dependencies. -/
theorem forall_visit (hclosed : ∀ type, p type → ∀ dependency ∈ type.dependencies, p dependency)
    (type : LinkedType) (found : List LinkedType) (htype : p type)
    (hfound : ∀ member ∈ found, p member) : ∀ member ∈ visit type found, p member := by
  cases type with
  | mk reference descriptor dependencies =>
    unfold visit
    split
    · exact hfound
    · refine forall_visitAll hclosed dependencies _ (hclosed _ htype) ?_
      intro member hmember
      rcases List.mem_append.mp hmember with hold | hlast
      · exact hfound member hold
      · rw [List.mem_singleton] at hlast
        exact hlast ▸ htype

theorem forall_visitAll
    (hclosed : ∀ type, p type → ∀ dependency ∈ type.dependencies, p dependency)
    (types found : List LinkedType) (htypes : ∀ type ∈ types, p type)
    (hfound : ∀ member ∈ found, p member) : ∀ member ∈ visitAll types found, p member := by
  cases types with
  | nil =>
    unfold visitAll
    exact hfound
  | cons type others =>
    unfold visitAll
    refine forall_visitAll hclosed others _ ?_ ?_
    · exact fun other hother => htypes other (List.mem_cons_of_mem type hother)
    · exact forall_visit hclosed type found (htypes type List.mem_cons_self) hfound

end

theorem forall_closure (hclosed : ∀ type, p type → ∀ dependency ∈ type.dependencies, p dependency)
    {type : LinkedType} (hbelow : ∀ dependency ∈ type.dependencies, p dependency) :
    ∀ member ∈ type.closure, p member :=
  forall_visitAll hclosed type.dependencies [] hbelow (by simp)

end LinkedType

namespace Catalog

variable {catalog : Catalog} {identity : TypeIdentity} {signed : SignedType}

/-! ## Resolved types -/

theorem type_of_link {reference : TypeReference} {descriptor : Descriptor}
    {dependencies : List SignedType}
    (hlink : link reference descriptor dependencies = .ok signed) :
    signed.type = .mk reference descriptor (dependencies.map (·.type)) := by
  unfold link at hlink
  revert hlink
  cases (Signature.compute (m := Id) reference.identity descriptor
    (SignedType.firstOf dependencies)).run with
  | error error => intro hlink; cases hlink
  | ok signature => intro hlink; cases hlink; rfl

theorem Resolves.exists_entry (h : catalog.Resolves identity signed) :
    ∃ entry, catalog.find? identity = some entry := by
  cases h with
  | intro parts found below linked => exact ⟨_, found⟩

/-- A resolved type has the name it was asked for by. -/
theorem Resolves.identity_eq (h : catalog.Resolves identity signed) :
    signed.type.identity = identity := by
  cases h with
  | @intro _ reference _ _ parts found _ linked =>
    have hname : reference.identity = identity := by simpa using List.find?_some found
    rw [type_of_link linked]
    exact hname

/-- Below a resolved type are resolved types that it depends on. -/
theorem Resolves.dependency (h : catalog.Resolves identity signed) {type : LinkedType}
    (htype : type ∈ signed.type.dependencies) :
    ∃ used below, catalog.Depends identity used ∧ catalog.Resolves used below ∧
      below.type = type := by
  cases h with
  | @intro _ reference descriptor _ parts found below linked =>
    rw [type_of_link linked] at htype
    rcases List.mem_map.mp htype with ⟨part, hpart, rfl⟩
    rcases List.mem_map.mp hpart with ⟨used, hused, rfl⟩
    exact ⟨used, parts used, ⟨reference, descriptor, found, hused⟩, below used hused, rfl⟩

/-- A linked type stands for a type of the catalog that another one depends on, in one step or
more. -/
def LiesBelow (catalog : Catalog) (identity : TypeIdentity) (type : LinkedType) : Prop :=
  Relation.TransGen catalog.Depends identity type.identity ∧
    ∃ below, catalog.Resolves type.identity below ∧ below.type = type

theorem LiesBelow.dependency {user type : LinkedType} (h : catalog.LiesBelow identity user)
    (htype : type ∈ user.dependencies) : catalog.LiesBelow identity type := by
  rcases h with ⟨hreach, signedUser, hresolves, rfl⟩
  rcases hresolves.dependency htype with ⟨used, below, hdepends, hbelow, rfl⟩
  rw [← hbelow.identity_eq] at hdepends
  refine ⟨hreach.tail hdepends, below, ?_, rfl⟩
  rwa [hbelow.identity_eq]

theorem Resolves.liesBelow (h : catalog.Resolves identity signed) {type : LinkedType}
    (htype : type ∈ signed.type.dependencies) : catalog.LiesBelow identity type := by
  rcases h.dependency htype with ⟨used, below, hdepends, hbelow, rfl⟩
  rw [← hbelow.identity_eq] at hdepends
  refine ⟨.single hdepends, below, ?_, rfl⟩
  rwa [hbelow.identity_eq]

/-- Every type in the closure of a resolved one is of the catalog and among its dependencies, in one
step or more. -/
theorem Resolves.of_mem_closure (h : catalog.Resolves identity signed) {type : LinkedType}
    (htype : type ∈ signed.type.closure) : catalog.LiesBelow identity type :=
  LinkedType.forall_closure (fun _ huser _ hdep => huser.dependency hdep)
    (fun _ hdep => h.liesBelow hdep) type htype

end Catalog

end RosInterface
