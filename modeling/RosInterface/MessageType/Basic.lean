/-! # Message types by name

A `TypeIdentity` names a message type; a `TypeReference` is such a name as a field or a constant
uses it, with the array bound that belongs to the use and not to the type. Two references denote
the same type exactly when their identities agree.
-/

namespace RosInterface

/-! ## Identities -/

/-- The name of a type: the package that defines it, if any, and its name there. -/
structure TypeIdentity where
  package : Option String
  name : String
deriving DecidableEq, Repr, Inhabited

namespace TypeIdentity

/-- The written form `package/Name`, or the bare name of a type that belongs to no package. -/
def text (identity : TypeIdentity) : String :=
  match identity.package with
  | some package => package ++ "/" ++ identity.name
  | none => identity.name

/-- Types without a package come first; otherwise packages decide, then names, both by code
point. -/
def compare (a b : TypeIdentity) : Ordering :=
  match a.package, b.package with
  | none, none => Ord.compare a.name b.name
  | none, some _ => .lt
  | some _, none => .gt
  | some p, some q => (Ord.compare p q).then (Ord.compare a.name b.name)

/-- The order of `compare` as a test. -/
def le (a b : TypeIdentity) : Bool :=
  (a.compare b).isLE

end TypeIdentity

/-! ## Built-in types -/

/-- The types that need no definition, in table order. -/
def builtInTypes : List String :=
  ["bool", "int8", "uint8", "int16", "uint16", "int32", "uint32", "int64", "uint64", "float32",
    "float64", "string", "time", "duration", "byte", "char"]

/-- Whether a name is that of a built-in type. -/
def isBuiltInName (name : String) : Bool :=
  builtInTypes.contains name

/-- The one type that may be named without its package everywhere. -/
def headerIdentity : TypeIdentity :=
  ⟨some "std_msgs", "Header"⟩

/-! ## References -/

/-- A type as a field or a constant uses it. An `arraySize` of zero stands for an unbounded array,
and has no meaning where `isArray` is false. -/
structure TypeReference where
  package : Option String
  name : String
  isArray : Bool
  arraySize : Nat
  isBuiltIn : Bool
deriving DecidableEq, Repr, Inhabited

namespace TypeReference

/-- A single value of the built-in type `name`. -/
def builtIn (name : String) : TypeReference :=
  ⟨none, name, false, 0, true⟩

/-- A single value of the message type `name` of `package`. -/
def message (package name : String) : TypeReference :=
  ⟨some package, name, false, 0, false⟩

/-- The same type as an array, of fixed size if one is given. -/
def toArray (type : TypeReference) (size : Option Nat) : TypeReference :=
  { type with isArray := true, arraySize := size.getD 0 }

/-- The type that is referred to, without the array bound. -/
def identity (type : TypeReference) : TypeIdentity :=
  ⟨type.package, type.name⟩

/-- Whether two references denote one type, whatever their array bounds are. -/
def sameType (a b : TypeReference) : Bool :=
  a.identity == b.identity

/-- The written form without the array bound. -/
def baseName (type : TypeReference) : String :=
  type.identity.text

/-- The array bound as it is written behind the name. -/
def arraySuffix (type : TypeReference) : String :=
  if type.isArray then
    if type.arraySize = 0 then "[]" else "[" ++ type.arraySize.repr ++ "]"
  else ""

/-- The written form, array bound included. -/
def text (type : TypeReference) : String :=
  type.baseName ++ type.arraySuffix

end TypeReference

end RosInterface
