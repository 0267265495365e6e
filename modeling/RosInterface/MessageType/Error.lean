/-! # What can be wrong with a message type

One constructor per cause, and the one wording of each. An error keeps the types that it is about in
their written forms, so types that are written alike cannot be told apart by it.
-/

namespace RosInterface

/-- Why a type reference, a definition or a set of definitions is rejected. -/
inductive TypeError where
  /-- The text is not a type reference. -/
  | invalidReference (text : String)
  /-- A constant is of a message type or of an array type. -/
  | invalidConstant (constant type : String)
  /-- A field's type is not among the dependencies that its owner was linked with. -/
  | unresolvedDependency (owner field dependency : String)
  /-- A line that enters the digest is not ASCII. -/
  | nonAscii (owner line : String)
  /-- The members of the chain contain one another, and its last member is its first one. -/
  | circular (chain : String)
  /-- A type is not defined. `referencedBy` is the type that needs it, or `rootName` where the type
  itself was asked for. -/
  | unknown (type referencedBy : String)
  /-- A type is defined twice. -/
  | duplicate (type : String)
deriving DecidableEq, Repr

namespace TypeError

/-- How the one who asked for a type is named when no other type did. -/
def rootName : String :=
  "<root>"

/-- The wording of an error. -/
def message : TypeError → String
  | invalidReference text => "invalid type reference: " ++ text
  | invalidConstant constant type =>
    "constant " ++ constant ++ " must have a built-in type, got " ++ type
  | unresolvedDependency owner field dependency =>
    owner ++ ": field " ++ field ++ " references " ++ dependency ++
      " which is not a resolved dependency"
  | nonAscii owner line => owner ++ ": non-ASCII text in hash input: " ++ line
  | circular chain => "circular type dependency: " ++ chain
  | unknown type referencedBy => "unknown type " ++ type ++ " referenced by " ++ referencedBy
  | duplicate type => "duplicate type definition: " ++ type

end TypeError

end RosInterface
