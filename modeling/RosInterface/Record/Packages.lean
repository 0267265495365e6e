import RosInterface.Document.Encoding
import RosInterface.Package.Discovery
import RosInterface.Record.Reader
import RosInterface.Workspace.Stage

/-! # Records of packages -/

namespace RosInterface

open Record

/-! ## Words -/

/-- The kind of definition that a word stands for. -/
def MessageKind.ofWord? : String → Option MessageKind
  | "message" => some message
  | "service" => some service
  | "action" => some action
  | _ => none

/-- The part that a word stands for. -/
def MessagePart.ofWord? : String → Option MessagePart
  | "request" => some request
  | "response" => some response
  | "goal" => some goal
  | "result" => some result
  | "feedback" => some feedback
  | _ => none

/-- The word for a build strategy. -/
def BuildStrategy.word : BuildStrategy → String
  | mandatory => "mandatory"
  | optional => "optional"

/-- The build strategy that a word stands for. -/
def BuildStrategy.ofWord? : String → Option BuildStrategy
  | "mandatory" => some mandatory
  | "optional" => some optional
  | _ => none

/-- The word for a stage. -/
def Stage.word : Stage → String
  | discovered => "discovered"
  | parsed => "messages_parsed"
  | filtered => "filtered"
  | ordered => "ordered"

/-- The stage that a word stands for. -/
def Stage.ofWord? : String → Option Stage
  | "discovered" => some discovered
  | "messages_parsed" => some parsed
  | "filtered" => some filtered
  | "ordered" => some ordered
  | _ => none

/-! ## Filters -/

/-- The record of a term: an object whose one member is named for the kind of term. -/
def FilterTerm.toJson : FilterTerm → Json
  | exact name => .object [("Exact", .string name)]
  | startingWith text => .object [("Prefix", .string text)]
  | endingWith text => .object [("Suffix", .string text)]

/-- Reads the record of a term. -/
def FilterTerm.ofJson? : Json → Option FilterTerm
  | .object [("Exact", .string name)] => some (exact name)
  | .object [("Prefix", .string text)] => some (startingWith text)
  | .object [("Suffix", .string text)] => some (endingWith text)
  | _ => none

/-- The record of a filter. -/
def PackageFilter.toJson (filter : PackageFilter) : Json :=
  .object [("terms", .array (filter.terms.map (·.toJson)))]

/-- Reads the record of a filter. -/
def PackageFilter.ofJson? (value : Json) : Option PackageFilter := do
  match ← members ["terms"] value with
  | [terms] => pure ⟨← required (list FilterTerm.ofJson?) terms⟩
  | _ => none

/-! ## Folders and files -/

/-- Reads a path. -/
def Path.ofJson? (value : Json) : Option Path :=
  (string value).map Path.mk

/-- The record of a package folder. -/
def PackageFolder.toJson (folder : PackageFolder) : Json :=
  .object [
    ("path", .string folder.path.text),
    ("build_strategy", .string folder.strategy.word)]

/-- Reads the record of a package folder. -/
def PackageFolder.ofJson? (value : Json) : Option PackageFolder := do
  match ← members ["path", "build_strategy"] value with
  | [path, strategy] =>
    pure ⟨← required Path.ofJson? path, ← required (word BuildStrategy.ofWord?) strategy⟩
  | _ => none

/-- The record of a definition file. -/
def MessageFile.toJson (file : MessageFile) : Json :=
  .object [("path", .string file.path.text), ("kind", .string file.kind.word)]

/-- Reads the record of a definition file. -/
def MessageFile.ofJson? (value : Json) : Option MessageFile := do
  match ← members ["path", "kind"] value with
  | [path, kind] =>
    pure ⟨← required Path.ofJson? path, ← required (word MessageKind.ofWord?) kind⟩
  | _ => none

/-! ## Packages -/

/-- The record of a package. -/
def PackageInfo.toJson (package : PackageInfo) : Json :=
  .object [
    ("name", .string package.name),
    ("version", .string package.version),
    ("is_meta_package", .bool package.isMetaPackage),
    ("description", .optional package.description),
    ("project_url", .optional package.projectUrl),
    ("repository_url", .optional package.repositoryUrl),
    ("authors", .strings package.authors),
    ("package_dependencies", .strings package.dependencies),
    ("directory", .string package.directory.text),
    ("messages", .array (package.messages.map (·.toJson))),
    ("is_optional", .bool package.isOptional)]

/-- Reads the record of a package. -/
def PackageInfo.ofJson? (value : Json) : Option PackageInfo := do
  let names := ["name", "version", "is_meta_package", "description", "project_url",
    "repository_url", "authors", "package_dependencies", "directory", "messages", "is_optional"]
  match ← members names value with
  | [name, version, isMetaPackage, description, projectUrl, repositoryUrl, authors, dependencies,
      directory, messages, isOptional] =>
    pure {
      name := ← required string name
      version := ← required string version
      isMetaPackage := ← required flag isMetaPackage
      description := ← nullable string description
      projectUrl := ← nullable string projectUrl
      repositoryUrl := ← nullable string repositoryUrl
      authors := ← required (list string) authors
      dependencies := ← required (list string) dependencies
      directory := ← required Path.ofJson? directory
      messages := ← required (list MessageFile.ofJson?) messages
      isOptional := ← required flag isOptional }
  | _ => none

/-- The record of a person. -/
def Person.toJson (person : Person) : Json :=
  .object [("name", .string person.name), ("email", .optional person.email)]

/-- Reads the record of a person. -/
def Person.ofJson? (value : Json) : Option Person := do
  match ← members ["name", "email"] value with
  | [name, email] => pure ⟨← required string name, ← nullable string email⟩
  | _ => none

/-- The record of a manifest. -/
def Manifest.toJson (manifest : Manifest) : Json :=
  .object [
    ("name", .string manifest.name),
    ("version", .string manifest.version),
    ("description", .optional manifest.description),
    ("maintainers", .array (manifest.maintainers.map (·.toJson))),
    ("authors", .array (manifest.authors.map (·.toJson))),
    ("website_url", .optional manifest.websiteUrl),
    ("repository_url", .optional manifest.repositoryUrl),
    ("dependencies", .strings manifest.dependencies),
    ("is_meta_package", .bool manifest.isMetaPackage)]

/-- Reads the record of a manifest. -/
def Manifest.ofJson? (value : Json) : Option Manifest := do
  let names := ["name", "version", "description", "maintainers", "authors", "website_url",
    "repository_url", "dependencies", "is_meta_package"]
  match ← members names value with
  | [name, version, description, maintainers, authors, websiteUrl, repositoryUrl, dependencies,
      isMetaPackage] =>
    pure {
      name := ← required string name
      version := ← required string version
      description := ← nullable string description
      maintainers := ← required (list Person.ofJson?) maintainers
      authors := ← required (list Person.ofJson?) authors
      websiteUrl := ← nullable string websiteUrl
      repositoryUrl := ← nullable string repositoryUrl
      dependencies := ← required (list string) dependencies
      isMetaPackage := ← required flag isMetaPackage }
  | _ => none

end RosInterface
