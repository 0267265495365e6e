import RosInterface.MessageType.Linked

/-! # Families of linked types that remember their signatures

A `Family` holds types that share their dependencies: each node names its dependencies by their
positions among the nodes added before it, so that a family is acyclic by construction. Signatures
are computed at most once and remembered in a `Memo`, also when the computation that asked for them
fails later on. A signature that cannot be computed is never remembered.
-/

namespace RosInterface

/-- A type of a family with the positions of the types linked to it. -/
structure Node where
  reference : TypeReference
  descriptor : Descriptor
  dependencies : List Nat

/-- Types linked to one another, the one added last in front. -/
structure Family where
  newestFirst : List Node := []

/-- The signatures that are known so far, by position. -/
abbrev Memo :=
  List (Nat × String)

/-- A computation that may fail and that extends the memo either way. -/
abbrev Memoized :=
  ExceptT TypeError (StateM Memo)

namespace Family

/-- Adds a node. Positions that no earlier node has are dropped from its dependencies. -/
def add (family : Family) (node : Node) : Family :=
  let count := family.newestFirst.length
  ⟨{ node with dependencies := node.dependencies.filter (· < count) } :: family.newestFirst⟩

/-- The number of nodes. -/
def size (family : Family) : Nat :=
  family.newestFirst.length

/-- The nodes in the order in which they were added. -/
def nodes (family : Family) : List Node :=
  family.newestFirst.reverse

/-! ## The types themselves -/

/-- The linked types of some nodes, in the order of the nodes. -/
def linkNodes : List Node → List LinkedType
  | [] => []
  | node :: earlier =>
    let linked := linkNodes earlier
    let positions := linked.reverse
    .mk node.reference node.descriptor (node.dependencies.filterMap (positions[·]?)) :: linked

/-- The linked types by position. -/
def types (family : Family) : List LinkedType :=
  (linkNodes family.newestFirst).reverse

/-- The linked type at a position. -/
def type? (family : Family) (position : Nat) : Option LinkedType :=
  family.types[position]?

/-! ## Remembered signatures -/

/-- The first dependency of a node that has the type of a reference. -/
def findDependency (earlier : List Node) (node : Node) (type : TypeReference) : Option Nat :=
  node.dependencies.find? fun position =>
    match earlier.reverse[position]? with
    | some dependency => dependency.reference.sameType type
    | none => false

/-- Looks a signature up in the memo, or computes and remembers it. -/
def remember (position : Nat) (computation : Memoized String) : Memoized String := do
  match (← get).lookup position with
  | some sum => pure sum
  | none =>
    let sum ← computation
    modify ((position, sum) :: ·)
    pure sum

/-- The signature at a position among some nodes. -/
def signatureAt : List Node → Nat → Memoized String
  | [], _ => throw (.unknown "" TypeError.rootName)
  | node :: earlier, position =>
    if position = earlier.length then
      remember position <|
        Signature.compute node.reference.identity node.descriptor fun type =>
          (findDependency earlier node type).map (signatureAt earlier)
    else signatureAt earlier position

/-- The signature of the type at a position. -/
def signature (family : Family) (position : Nat) : Memoized String :=
  signatureAt family.newestFirst position

/-- The outcome of asking for a signature, which never fails itself. -/
def signatureOutcome (family : Family) (position : Nat) : StateM Memo (Except TypeError String) :=
  (family.signature position).run

/-- Whether two nodes are equal, where signatures and flattened definitions are asked for as given.
Only types of one name have their signatures computed for it, the left one first, and only types of
one signature their definitions. -/
def equalBy {m : Type → Type} [Monad m] (family : Family)
    (signatureOf : Nat → m (Except TypeError String)) (definitionOf : Nat → m String)
    (left right : Nat) : m Bool := do
  match family.type? left, family.type? right with
  | some a, some b =>
    if a.reference.sameType b.reference then
      let x ← signatureOf left
      let y ← signatureOf right
      match x, y with
      | .ok x, .ok y =>
        if x == y then
          let text ← definitionOf left
          let otherText ← definitionOf right
          pure (text == otherText)
        else pure false
      | .error _, .error _ =>
        pure (a.descriptor == b.descriptor &&
          a.dependencies.map LinkedType.identity == b.dependencies.map LinkedType.identity)
      | _, _ => pure false
    else pure false
  | _, _ => pure false

/-- The flattened definition of the type at a position. -/
def definition (family : Family) (position : Nat) : String :=
  ((family.type? position).map LinkedType.definition).getD ""

/-- Whether two nodes are equal, with definitions that are computed anew. -/
def equal (family : Family) : (left right : Nat) → StateM Memo Bool :=
  family.equalBy family.signatureOutcome fun position => pure (family.definition position)

/-- What a hash of the node at a position may depend on. -/
def hashKey (family : Family) (position : Nat) :
    StateM Memo (Option (TypeIdentity × Option String)) := do
  match family.type? position with
  | some type =>
    let sum ← family.signatureOutcome position
    pure (some (type.identity, sum.toOption))
  | none => pure none

/-! ## Remembered definitions -/

/-- All that the nodes remember: signatures and flattened definitions, by position. -/
structure Cells where
  signatures : Memo := []
  definitions : Memo := []

/-- A computation that has to do with signatures only. -/
def onSignatures {α : Type} (computation : StateM Memo α) : StateM Cells α := fun cells =>
  let (value, signatures) := computation.run cells.signatures
  (value, { cells with signatures })

/-- Looks a flattened definition up, or computes and remembers it. -/
def recallDefinition (family : Family) (position : Nat) : StateM Cells String := do
  match (← get).definitions.lookup position with
  | some text => pure text
  | none =>
    let text := family.definition position
    modify fun cells => { cells with definitions := (position, text) :: cells.definitions }
    pure text

/-- Whether two nodes are equal, with definitions that are remembered. -/
def recallEqual (family : Family) : (left right : Nat) → StateM Cells Bool :=
  family.equalBy (fun position => onSignatures (family.signatureOutcome position))
    family.recallDefinition

end Family

end RosInterface
