import RosInterface.MessageType.Descriptor
import RosInterface.Record.Reader

/-! # Records of message types -/

namespace RosInterface

open Record

/-! ## Names -/

/-- The record of a type's name. -/
def TypeIdentity.toJson (identity : TypeIdentity) : Json :=
  .object [("package_name", .optional identity.package), ("type_name", .string identity.name)]

/-- Reads the record of a type's name. -/
def TypeIdentity.ofJson? (value : Json) : Option TypeIdentity := do
  match ← members ["package_name", "type_name"] value with
  | [package, name] => pure ⟨← nullable string package, ← required string name⟩
  | _ => none

/-- The record of a type reference. -/
def TypeReference.toJson (type : TypeReference) : Json :=
  .object [
    ("package_name", .optional type.package),
    ("type_name", .string type.name),
    ("is_array", .bool type.isArray),
    ("array_size", .nat type.arraySize),
    ("is_built_in", .bool type.isBuiltIn)]

/-- Reads the record of a type reference. -/
def TypeReference.ofJson? (value : Json) : Option TypeReference := do
  let names := ["package_name", "type_name", "is_array", "array_size", "is_built_in"]
  match ← members names value with
  | [package, name, isArray, arraySize, isBuiltIn] =>
    pure {
      package := ← nullable string package
      name := ← required string name
      isArray := ← required flag isArray
      arraySize := ← required size arraySize
      isBuiltIn := ← required flag isBuiltIn }
  | _ => none

/-! ## Declarations -/

/-- The record of a declaration, which says first whether it is a field or a constant. -/
def Item.toJson : Item → Json
  | field f =>
    .object [
      ("kind", .string "field"),
      ("type_ref", f.type.toJson),
      ("identifier", .string f.identifier)]
  | constant c =>
    .object [
      ("kind", .string "constant"),
      ("type_ref", c.type.toJson),
      ("identifier", .string c.identifier),
      ("value", .string c.value)]

/-- Reads the record of a field. -/
def Field.ofJson? (value : Json) : Option Field := do
  match ← members ["type_ref", "identifier"] value with
  | [type, identifier] =>
    pure ⟨← required TypeReference.ofJson? type, ← required string identifier⟩
  | _ => none

/-- Reads the record of a constant. -/
def Constant.ofJson? (value : Json) : Option Constant := do
  match ← members ["type_ref", "identifier", "value"] value with
  | [type, identifier, value] =>
    pure ⟨← required TypeReference.ofJson? type, ← required string identifier, ← required string value⟩
  | _ => none

/-- Reads the rest of a declaration whose kind is known. -/
def Item.ofKind? (kind : String) (rest : Json) : Option Item :=
  match kind with
  | "field" => (Field.ofJson? rest).map field
  | "constant" => (Constant.ofJson? rest).map constant
  | _ => none

/-- Reads the record of a declaration. -/
def Item.ofJson? : Json → Option Item
  | .object entries =>
    match entries.lookup "kind" with
    | some (.string kind) => ofKind? kind (.object (entries.filter (·.1 != "kind")))
    | _ => none
  | .array (.string kind :: rest) => ofKind? kind (.array rest)
  | _ => none

/-- The record of a descriptor. -/
def Descriptor.toJson (descriptor : Descriptor) : Json :=
  .object [
    ("items", .array (descriptor.items.map (·.toJson))),
    ("message_definition", .string descriptor.definition)]

/-- Reads the record of a descriptor. -/
def Descriptor.ofJson? (value : Json) : Option Descriptor := do
  match ← members ["items", "message_definition"] value with
  | [items, definition] =>
    pure ⟨← required (list Item.ofJson?) items, ← required string definition⟩
  | _ => none

end RosInterface
