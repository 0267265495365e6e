import RosInterface.MessageType.Signature
import RosInterface.Text.Quoted

/-! # Types linked with their dependencies

A `LinkedType` carries the linked types that its fields use. Its signature and its flattened
definition are recursions on this tree, which makes them the reference for every way of computing
them faster.
-/

namespace RosInterface

/-- A message type with the types that were linked to it. Nothing is required of that list: it may
lack types that the fields name, and hold others. -/
inductive LinkedType where
  | mk (reference : TypeReference) (descriptor : Descriptor) (dependencies : List LinkedType)

namespace LinkedType

instance : Inhabited LinkedType :=
  ⟨mk default default []⟩

/-- The reference under which the type was registered. -/
def reference : LinkedType → TypeReference
  | mk reference _ _ => reference

/-- The declarations of the type. -/
def descriptor : LinkedType → Descriptor
  | mk _ descriptor _ => descriptor

/-- The types linked to it. -/
def dependencies : LinkedType → List LinkedType
  | mk _ _ dependencies => dependencies

/-- The name of the type. -/
def identity (type : LinkedType) : TypeIdentity :=
  type.reference.identity

/-- What is known about a type in one line; the signature is absent as long as nobody asked for
it. -/
def describe (type : LinkedType) (signature : Option String) : String :=
  let name (type : LinkedType) := type.reference.baseName.quoted
  let sum :=
    match signature with
    | some sum => "Some(" ++ sum.quoted ++ ")"
    | none => "None"
  "MessageTypeInfo \x7b type: " ++ name type ++ ", dependencies: [" ++
    ", ".intercalate (type.dependencies.map name) ++ "], md5_sum: " ++ sum ++ " \x7d"

/-! ## Signatures -/

/-- The first entry for the type that a reference names. -/
def firstOf {α : Type} (entries : List (TypeIdentity × α)) (type : TypeReference) : Option α :=
  entries.lookup type.identity

mutual

/-- The signature of a type, computed from those of its dependencies. -/
def signature : LinkedType → Except TypeError String
  | mk reference descriptor dependencies =>
    Signature.compute (m := Id) reference.identity descriptor (firstOf (signatures dependencies))

/-- The signatures of some types under their names. -/
def signatures : List LinkedType → List (TypeIdentity × Except TypeError String)
  | [] => []
  | type :: others => (type.identity, signature type) :: signatures others

end

theorem signatures_eq_map (types : List LinkedType) :
    signatures types = types.map fun type => (type.identity, type.signature) := by
  induction types with
  | nil => simp [signatures]
  | cons type rest ih => simp [signatures, ih]

/-! ## Flattened definitions -/

/-- The line between the texts of a flattened definition. -/
def separator : String :=
  String.ofList (List.replicate 80 '=')

mutual

/-- Adds a type and then what it depends on, unless a type of its name was found before. -/
def visit (type : LinkedType) (found : List LinkedType) : List LinkedType :=
  match type with
  | mk reference descriptor dependencies =>
    if found.any (·.identity == reference.identity) then found
    else visitAll dependencies (found ++ [mk reference descriptor dependencies])

/-- Adds the types of a list one after the other. -/
def visitAll (types : List LinkedType) (found : List LinkedType) : List LinkedType :=
  match types with
  | [] => found
  | type :: others => visitAll others (visit type found)

end

/-- Everything below a type, each name once, where it is first met in a walk that takes a type
before its dependencies. -/
def closure (type : LinkedType) : List LinkedType :=
  visitAll type.dependencies []

/-- The part of a flattened definition that stands for one dependency. -/
def block (type : LinkedType) : String :=
  "\n" ++ separator ++ "\nMSG: " ++ type.identity.text ++ "\n" ++ type.descriptor.definition

/-- The text of a type followed by the texts of everything it depends on. -/
def definition (type : LinkedType) : String :=
  type.closure.foldl (fun text dependency => text ++ dependency.block) type.descriptor.definition

/-! ## Equality -/

/-- The part of equality that remains once both signatures are known. Types with signatures are
compared by what they mean, types without one by what they declare. -/
def agree (a b : LinkedType) (left right : Except TypeError String) : Bool :=
  match left, right with
  | .ok x, .ok y => x == y && a.definition == b.definition
  | .error _, .error _ =>
    a.descriptor == b.descriptor &&
      a.dependencies.map identity == b.dependencies.map identity
  | _, _ => false

/-- Whether two linked types stand for the same message type. -/
def equal (a b : LinkedType) : Bool :=
  a.reference.sameType b.reference && agree a b a.signature b.signature

/-- What a hash of the type may depend on. -/
def hashKey (type : LinkedType) : TypeIdentity × Option String :=
  (type.identity, type.signature.toOption)

end LinkedType

end RosInterface
