import RosInterface.Record.Packages

/-! # Reading package documents

What descriptor files hold can be read back.
-/

namespace RosInterface

open Record

/-- Reads the data of a package. -/
def PackageData.ofJson? (value : Json) : Option PackageData := do
  let names := ["ros_name", "version", "name", "namespace", "description", "project_url",
    "repository_url", "authors", "author_list", "is_meta_package"]
  match ← members names value with
  | [rosName, version, name, codeNamespace, description, projectUrl, repositoryUrl, authors,
      authorList, isMetaPackage] =>
    pure {
      rosName := ← required string rosName
      version := ← required string version
      name := ← required string name
      codeNamespace := ← required string codeNamespace
      description := ← nullable string description
      projectUrl := ← nullable string projectUrl
      repositoryUrl := ← nullable string repositoryUrl
      authors := ← required (list string) authors
      authorList := ← required string authorList
      isMetaPackage := ← required flag isMetaPackage }
  | _ => none

/-- Reads the data of a field. -/
def FieldData.ofJson? (value : Json) : Option FieldData := do
  let names := ["index", "ros_type", "ros_identifier", "identifier", "package", "is_built_in",
    "is_array", "array_size"]
  match ← members names value with
  | [index, rosType, rosIdentifier, identifier, package, isBuiltIn, isArray, arraySize] =>
    pure {
      index := ← required size index
      rosType := ← required string rosType
      rosIdentifier := ← required string rosIdentifier
      identifier := ← required string identifier
      package := ← nullable string package
      isBuiltIn := ← required flag isBuiltIn
      isArray := ← required flag isArray
      arraySize := ← required size arraySize }
  | _ => none

/-- Reads the data of a constant. -/
def ConstantData.ofJson? (value : Json) : Option ConstantData := do
  match ← members ["index", "ros_type", "ros_identifier", "value"] value with
  | [index, rosType, rosIdentifier, value] =>
    pure {
      index := ← required size index
      rosType := ← required string rosType
      rosIdentifier := ← required string rosIdentifier
      value := ← required string value }
  | _ => none

/-- Reads the data of a message type. -/
def MessageData.ofJson? (value : Json) : Option MessageData := do
  let names := ["package", "ros_type_name", "type_name", "kind", "part", "md5_sum",
    "message_definition", "has_header", "is_service_part", "is_action_part", "fields", "constants"]
  match ← members names value with
  | [package, rosTypeName, typeName, kind, part, signature, definition, hasHeader, isServicePart,
      isActionPart, fields, constants] =>
    pure {
      package := ← required string package
      rosTypeName := ← required string rosTypeName
      typeName := ← required string typeName
      kind := ← required (word MessageKind.ofWord?) kind
      part := ← nullable (word MessagePart.ofWord?) part
      signature := ← required string signature
      definition := ← required string definition
      hasHeader := ← required flag hasHeader
      isServicePart := ← required flag isServicePart
      isActionPart := ← required flag isActionPart
      fields := ← required (list FieldData.ofJson?) fields
      constants := ← required (list ConstantData.ofJson?) constants }
  | _ => none

/-- Reads a document. -/
def PackageDocument.ofJson? (value : Json) : Option PackageDocument := do
  match ← members ["package", "dependencies", "messages"] value with
  | [package, dependencies, messages] =>
    pure {
      package := ← required PackageData.ofJson? package
      dependencies := ← required (list string) dependencies
      messages := ← orElse [] (list MessageData.ofJson?) messages }
  | _ => none

end RosInterface
