import RosInterface.Document.Basic
import RosInterface.Json.Printer

/-! # Documents as JSON

The written form of a package document: objects with fixed members in a fixed order. A document
without messages does not mention them.
-/

namespace RosInterface

/-- The word for a kind of definition file. -/
def MessageKind.word : MessageKind → String
  | message => "message"
  | service => "service"
  | action => "action"

/-- The word for a part of a service or an action. -/
def MessagePart.word : MessagePart → String
  | request => "request"
  | response => "response"
  | goal => "goal"
  | result => "result"
  | feedback => "feedback"

/-- The written form of package data. -/
def PackageData.toJson (data : PackageData) : Json :=
  .object [
    ("ros_name", .string data.rosName),
    ("version", .string data.version),
    ("name", .string data.name),
    ("namespace", .string data.codeNamespace),
    ("description", .optional data.description),
    ("project_url", .optional data.projectUrl),
    ("repository_url", .optional data.repositoryUrl),
    ("authors", .strings data.authors),
    ("author_list", .string data.authorList),
    ("is_meta_package", .bool data.isMetaPackage)]

/-- The written form of field data. -/
def FieldData.toJson (data : FieldData) : Json :=
  .object [
    ("index", .nat data.index),
    ("ros_type", .string data.rosType),
    ("ros_identifier", .string data.rosIdentifier),
    ("identifier", .string data.identifier),
    ("package", .optional data.package),
    ("is_built_in", .bool data.isBuiltIn),
    ("is_array", .bool data.isArray),
    ("array_size", .nat data.arraySize)]

/-- The written form of constant data. -/
def ConstantData.toJson (data : ConstantData) : Json :=
  .object [
    ("index", .nat data.index),
    ("ros_type", .string data.rosType),
    ("ros_identifier", .string data.rosIdentifier),
    ("value", .string data.value)]

/-- The written form of message data. -/
def MessageData.toJson (data : MessageData) : Json :=
  .object [
    ("package", .string data.package),
    ("ros_type_name", .string data.rosTypeName),
    ("type_name", .string data.typeName),
    ("kind", .string data.kind.word),
    ("part", .optional (data.part.map (·.word))),
    ("md5_sum", .string data.signature),
    ("message_definition", .string data.definition),
    ("has_header", .bool data.hasHeader),
    ("is_service_part", .bool data.isServicePart),
    ("is_action_part", .bool data.isActionPart),
    ("fields", .array (data.fields.map (·.toJson))),
    ("constants", .array (data.constants.map (·.toJson)))]

/-- The written form of a document. -/
def PackageDocument.toJson (document : PackageDocument) : Json :=
  let messages :=
    if document.messages.isEmpty then []
    else [("messages", .array (document.messages.map (·.toJson)))]
  .object ([
    ("package", document.package.toJson),
    ("dependencies", .strings document.dependencies)] ++ messages)

end RosInterface
