import RosInterface.MessageType.Linked

/-! # Catalogs of message types and their resolution

A `Catalog` holds definitions by name. Resolving a name links its definition with everything that
it depends on, depth first, and fails on the first missing type, cycle or unusable text that this
walk meets. A `Resolver` remembers what it resolved, which never changes a later answer.
-/

namespace RosInterface

/-! ## Catalogs -/

/-- Definitions under their names, in the order in which they were added. -/
structure Catalog where
  definitions : List (TypeReference × Descriptor) := []

namespace Catalog

/-- The definition of a type. -/
def find? (catalog : Catalog) (identity : TypeIdentity) : Option (TypeReference × Descriptor) :=
  catalog.definitions.find? (·.1.identity == identity)

/-- Adds a definition under a name that has none yet. -/
def add (catalog : Catalog) (reference : TypeReference) (descriptor : Descriptor) :
    Except TypeError Catalog :=
  match catalog.find? reference.identity with
  | some _ => .error (.duplicate reference.identity.text)
  | none => .ok ⟨catalog.definitions ++ [(reference, descriptor)]⟩

/-- The number of definitions. -/
def size (catalog : Catalog) : Nat :=
  catalog.definitions.length

/-- The names of all types, in the order of names. -/
def identities (catalog : Catalog) : List TypeIdentity :=
  (catalog.definitions.map (·.1.identity)).mergeSort TypeIdentity.le

end Catalog

/-! ## Resolution -/

/-- A linked type with its signature. -/
structure SignedType where
  type : LinkedType
  signature : String
deriving Inhabited

/-- The resolved types by name. -/
abbrev ResolvedTypes :=
  List (TypeIdentity × SignedType)

/-- A computation that may fail and keeps what it resolved either way. -/
abbrev Resolution :=
  ExceptT TypeError (StateM ResolvedTypes)

/-- The signature of the first resolved type that a reference names. -/
def SignedType.firstOf {m : Type → Type} [Monad m] (types : List SignedType) :
    Signature.Lookup m := fun type =>
  (types.find? (·.type.reference.sameType type)).map (pure ·.signature)

namespace Catalog

/-- Links a definition with its resolved dependencies and signs it. -/
def link (reference : TypeReference) (descriptor : Descriptor) (dependencies : List SignedType) :
    Except TypeError SignedType :=
  (Signature.compute (m := Id) reference.identity descriptor (SignedType.firstOf dependencies)).run.map
    fun signature => ⟨.mk reference descriptor (dependencies.map (·.type)), signature⟩

/-- A chain of types in its written form. -/
def chainText (chain : List TypeIdentity) : String :=
  " -> ".intercalate (chain.map (·.text))

/-- Resolves a type that `path` leads to: each member of the path is a type with a field of the
next one's type, and the last member has a field of the type in question. The path never repeats a
name and holds names of the catalog only, so `depth` does not run out when it starts above the
catalog's size. `referencedBy` is how the last member of the path is written, or `rootName` where
the path is empty. -/
def resolveWithin (catalog : Catalog) :
    Nat → List TypeIdentity → String → TypeIdentity → Resolution SignedType
  | 0, path, _, identity => throw (.circular (chainText (path ++ [identity])))
  | depth + 1, path, referencedBy, identity => do
    match (← get).lookup identity with
    | some resolved => pure resolved
    | none =>
      if path.contains identity then
        throw (.circular (chainText (path.dropWhile (· != identity) ++ [identity])))
      else
        match catalog.find? identity with
        | none => throw (.unknown identity.text referencedBy)
        | some (reference, descriptor) =>
          let dependencies ← descriptor.dependencyTypes.mapM
            (catalog.resolveWithin depth (path ++ [identity]) identity.text)
          let signed ← ExceptT.mk (pure (link reference descriptor dependencies))
          modify ((identity, signed) :: ·)
          pure signed

/-- Resolves a type by name. -/
def resolve (catalog : Catalog) (identity : TypeIdentity) : Resolution SignedType :=
  catalog.resolveWithin (catalog.size + 1) [] TypeError.rootName identity

end Catalog

/-! ## Resolvers -/

/-- A catalog with what was resolved from it so far. -/
structure Resolver where
  catalog : Catalog := {}
  resolved : ResolvedTypes := []

namespace Resolver

/-- Adds a definition. -/
def add (resolver : Resolver) (reference : TypeReference) (descriptor : Descriptor) :
    Except TypeError Resolver :=
  (resolver.catalog.add reference descriptor).map ({ resolver with catalog := · })

/-- The number of definitions. -/
def size (resolver : Resolver) : Nat :=
  resolver.catalog.size

/-- Runs a resolution and keeps what it resolved. -/
def run {α : Type} (resolver : Resolver) (resolution : Resolution α) :
    Except TypeError α × Resolver :=
  let (outcome, resolved) := resolution.run resolver.resolved
  (outcome, { resolver with resolved })

/-- Resolves one type. -/
def resolve (resolver : Resolver) (identity : TypeIdentity) :
    Except TypeError SignedType × Resolver :=
  resolver.run (resolver.catalog.resolve identity)

/-- Resolves every type in the order of names, up to the first one that fails. -/
def resolveAll (resolver : Resolver) : Except TypeError (List SignedType) × Resolver :=
  resolver.run (resolver.catalog.identities.mapM resolver.catalog.resolve)

end Resolver

end RosInterface
