import RosInterface.Configuration
import RosInterface.Generation.Run
import RosInterface.Record.Errors
import RosInterface.Record.Types

/-! # Records of reports

Types, contents of packages, the registry, the progress of a run and the settings as they are
reported. Nothing reads these records back.
-/

namespace RosInterface

/-! ## Types -/

/-- A descriptor with what follows from its declarations. -/
def Descriptor.report (descriptor : Descriptor) : Json :=
  .object [
    ("definition", .string descriptor.definition),
    ("items", .array (descriptor.items.map (·.toJson))),
    ("fields", .strings (descriptor.fields.map (·.text))),
    ("constants", .strings (descriptor.constants.map (·.text))),
    ("field_indexes", .array (descriptor.indexedFields.map fun (index, _) => .nat index)),
    ("constant_indexes", .array (descriptor.indexedConstants.map fun (index, _) => .nat index)),
    ("dependency_types", .strings (descriptor.dependencyTypes.map (·.text))),
    ("has_header", .bool descriptor.hasHeader)]

/-- A linked type with its signature, or with the reason why it has none. -/
def LinkedType.report (type : LinkedType) (signature : Except TypeError String) : Json :=
  let sum :=
    match signature with
    | .ok sum => .string sum
    | .error error => error.toJson
  .object [
    ("name", .string type.reference.baseName),
    ("identity", .string type.identity.text),
    ("type", .string type.reference.text),
    ("md5", sum),
    ("definition", .string type.definition),
    ("dependencies", .strings (type.dependencies.map (·.reference.baseName))),
    ("has_header", .bool type.descriptor.hasHeader)]

/-! ## Packages -/

/-- The record of a message type that a file defines. -/
def ParsedMessage.toJson (message : ParsedMessage) : Json :=
  .object [
    ("type_ref", message.type.toJson),
    ("kind", .string message.kind.word),
    ("part", .optional (message.part.map (·.word))),
    ("file_type_name", .string message.fileName),
    ("descriptor", message.descriptor.toJson)]

/-- The record of a package's contents. -/
def PackageContents.toJson (contents : PackageContents) : Json :=
  .object [
    ("package_name", .string contents.package),
    ("package_dependencies", .strings contents.dependencies),
    ("external_types", .array (contents.externalTypes.map (·.toJson))),
    ("messages", .array (contents.messages.map (·.toJson)))]

/-- The record of a referenced package. -/
def RegistryEntry.toJson (entry : RegistryEntry) : Json :=
  .object [
    ("package_name", .string entry.package),
    ("is_in_build_pipeline", .bool entry.isBuilt)]

/-- The record of a selected package. -/
def SelectedPackage.toJson (package : SelectedPackage) : Json :=
  .object [
    ("name", .string package.name),
    ("version", .string package.version),
    ("optional", .bool package.info.isOptional),
    ("dependencies", .strings package.contents.dependencies),
    ("published", .strings package.publishedDependencies),
    ("messages", .strings (package.contents.messages.map (·.identity.text)))]

/-! ## Runs -/

/-- The record of a generated package. -/
def GeneratedPackage.toJson (package : GeneratedPackage) : Json :=
  .object [
    ("name", .string package.name),
    ("version", .string package.version),
    ("artifact", .string package.artifact.text),
    ("messages", .nat package.messages)]

/-- The report of a run. -/
def GeneratedPackage.report (packages : List GeneratedPackage) : Json :=
  .object [
    ("names", .strings (packages.map (·.name))),
    ("packages", .array (packages.map (·.toJson)))]

/-! ## Settings -/

/-- The word for an output format. -/
def OutputFormat.word : OutputFormat → String
  | json => "json"

/-- The record of the settings of builds. -/
def BuildSettings.toJson (settings : BuildSettings) : Json :=
  .object [
    ("root_namespace", .string settings.rootNamespace),
    ("output_format", .string settings.outputFormat.word),
    ("dependency_paths", .strings (settings.dependencyPaths.map (·.text))),
    ("ignore_ros_package_path", .bool settings.ignoreEnvironment),
    ("preserve_generated", .bool settings.preserveGenerated)]

/-- The record of all settings. -/
def Configuration.toJson (configuration : Configuration) : Json :=
  .object [
    ("build", configuration.build.toJson),
    ("logging", .object [("level", .string configuration.logging.level)])]

end RosInterface
