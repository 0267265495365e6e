import RosInterface.FileTree.Actions
import RosInterface.Xml.Reader

/-! # Package manifests

Every package has a `package.xml` that states its name, its version and what it depends on. All
texts of a manifest are normalized: blanks separate words and have no other meaning.
-/

namespace RosInterface

/-- Someone who is named in a manifest. -/
structure Person where
  name : String
  email : Option String
deriving DecidableEq, Repr, Inhabited

/-- The written form of a person. -/
def Person.text (person : Person) : String :=
  match person.email with
  | some email => person.name ++ " <" ++ email ++ ">"
  | none => person.name

/-- What a manifest states. -/
structure Manifest where
  name : String
  version : String
  description : Option String
  maintainers : List Person
  authors : List Person
  websiteUrl : Option String
  repositoryUrl : Option String
  dependencies : List String
  isMetaPackage : Bool
deriving DecidableEq, Repr, Inhabited

/-- Why a package cannot be found or read. -/
inductive PackageError where
  | file (error : FileError)
  /-- A manifest is no XML document. -/
  | xml (path : String) (error : Xml.SyntaxError)
  | manifestNotFound (folder : String)
  /-- A manifest lacks something that every manifest has. -/
  | invalidManifest (path : String) (reason : String)
  | notAPackageFolder (folder : String)
  | directoryNotFound (directory : String)
deriving DecidableEq, Repr

namespace PackageError

/-- The wording of an error. -/
def message : PackageError → String
  | file error => error.message
  | xml path error => "Malformed package.xml at " ++ path ++ ": " ++ error.message
  | manifestNotFound folder => "package.xml not found in " ++ folder
  | invalidManifest path reason => "Invalid package.xml at " ++ path ++ ": " ++ reason
  | notAPackageFolder folder =>
    "Directory " ++ folder ++ " is not a ROS package folder (package.xml file is missing)"
  | directoryNotFound directory => "Directory " ++ directory ++ " does not exist"

/-- Whether an error says that something is not there at all. -/
def isNotFound : PackageError → Bool
  | directoryNotFound _ => true
  | manifestNotFound _ => true
  | _ => false

end PackageError

namespace Manifest

/-- The name of every manifest file. -/
def fileName : String :=
  "package.xml"

/-- The elements that name a dependency. -/
def dependencyTags : List String :=
  ["depend", "build_depend", "run_depend", "exec_depend", "build_export_depend"]

/-- The text of the first child of a given name. -/
def childText? (root : Xml.Node) (tag : String) : Option String :=
  (root.childrenNamed tag).head?.bind (·.words?)

/-- The people that the children of a given name stand for; a child without words stands for
nobody. -/
def people (root : Xml.Node) (tag : String) : List Person :=
  (root.childrenNamed tag).filterMap fun child =>
    child.words?.map fun name => ⟨name, child.attribute? "email"⟩

/-- The kind of an address, which is a website's unless it says otherwise. -/
def urlKind (url : Xml.Node) : String :=
  (url.attribute? "type").getD "website"

/-- The first address of a kind that is not blank. -/
def url? (root : Xml.Node) (kind : String) : Option String :=
  ((root.childrenNamed "url").filter (urlKind · == kind)).findSome? (·.words?)

/-- Whether a node is an element that names a dependency. -/
def isDependency (node : Xml.Node) : Bool :=
  match node.name? with
  | some name => dependencyTags.contains name
  | none => false

/-- The dependencies, each where it is first named. -/
def dependenciesOf (root : Xml.Node) : List String :=
  ((root.children.filter isDependency).filterMap (·.words?)).eraseDups

/-- Whether an export declares the package to be a mere collection of others. -/
def isMeta (root : Xml.Node) : Bool :=
  (root.childrenNamed "export").any fun child => !(child.childrenNamed "metapackage").isEmpty

/-- Reads a document, whose errors mention the path `origin`. -/
def ofDocument (origin : String) (root : Xml.Node) : Except PackageError Manifest := do
  if root.name? != some "package" then
    throw (.invalidManifest origin "root element must be <package>")
  let some name := childText? root "name" | throw (.invalidManifest origin "missing <name>")
  let some version := childText? root "version"
    | throw (.invalidManifest origin "missing <version>")
  pure {
    name
    version
    description := childText? root "description"
    maintainers := people root "maintainer"
    authors := people root "author"
    websiteUrl := url? root "website"
    repositoryUrl := url? root "repository"
    dependencies := dependenciesOf root
    isMetaPackage := isMeta root }

/-- Reads the text of a manifest. -/
def parse (origin text : String) : Except PackageError Manifest :=
  match Xml.read text with
  | .ok root => ofDocument origin root
  | .error error => .error (.xml origin error)

/-- Everyone named in a manifest in written form, maintainers first, each once. -/
def contributors (manifest : Manifest) : List String :=
  ((manifest.maintainers ++ manifest.authors).map (·.text)).eraseDups

/-- Reads the manifest of a package folder. -/
def readFolder (tree : FileTree) (folder : Path) : Except PackageError Manifest := do
  let path := folder.join fileName
  if !tree.isFile path then throw (.manifestNotFound folder.text)
  let text ← (tree.readText path).mapError .file
  parse path.text text

end Manifest

end RosInterface
