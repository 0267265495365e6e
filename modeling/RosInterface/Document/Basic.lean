import RosInterface.Workspace.Basic

/-! # Package documents

A package document is everything that generated code is made from: the package, its dependencies,
and its message types with their signatures. It repeats names in the forms that generated code
needs, so that a generator never looks anything up.
-/

namespace RosInterface

/-- What generated code says about a package. -/
structure PackageData where
  rosName : String
  version : String
  name : String
  codeNamespace : String
  description : Option String
  projectUrl : Option String
  repositoryUrl : Option String
  authors : List String
  authorList : String
  isMetaPackage : Bool
deriving DecidableEq, Repr

/-- What generated code says about a field. The index counts all declarations of the type. -/
structure FieldData where
  index : Nat
  rosType : String
  rosIdentifier : String
  identifier : String
  package : Option String
  isBuiltIn : Bool
  isArray : Bool
  arraySize : Nat
deriving DecidableEq, Repr

/-- What generated code says about a constant. The index counts all declarations of the type. -/
structure ConstantData where
  index : Nat
  rosType : String
  rosIdentifier : String
  value : String
deriving DecidableEq, Repr

/-- What generated code says about a message type. -/
structure MessageData where
  package : String
  rosTypeName : String
  typeName : String
  kind : MessageKind
  part : Option MessagePart
  signature : String
  definition : String
  hasHeader : Bool
  isServicePart : Bool
  isActionPart : Bool
  fields : List FieldData
  constants : List ConstantData
deriving DecidableEq, Repr

/-- Everything that the code for one package is generated from. -/
structure PackageDocument where
  package : PackageData
  dependencies : List String
  messages : List MessageData
deriving DecidableEq, Repr

/-! ## Building documents -/

/-- The data of a package whose code is put below a root namespace. -/
def PackageData.ofPackage (rootNamespace : String) (package : PackageInfo) : PackageData where
  rosName := package.name
  version := package.version
  name := Naming.pascalCase package.name
  codeNamespace := Naming.namespaceOf rootNamespace package.name
  description := package.description
  projectUrl := package.projectUrl
  repositoryUrl := package.repositoryUrl
  authors := package.authors
  authorList := ", ".intercalate package.authors
  isMetaPackage := package.isMetaPackage

/-- The data of a field at a position. -/
def FieldData.ofField (index : Nat) (field : Field) : FieldData where
  index
  rosType := field.type.baseName
  rosIdentifier := field.identifier
  identifier := Naming.camelCase field.identifier
  package := field.type.package
  isBuiltIn := field.type.isBuiltIn
  isArray := field.type.isArray
  arraySize := field.type.arraySize

/-- The data of a constant at a position. -/
def ConstantData.ofConstant (index : Nat) (constant : Constant) : ConstantData where
  index
  rosType := constant.type.baseName
  rosIdentifier := constant.identifier
  value := constant.value

/-- The data of a message type, given its linked form and its signature. -/
def MessageData.ofMessage (message : ParsedMessage) (type : LinkedType) (signature : String) :
    MessageData where
  package := message.type.package.getD ""
  rosTypeName := Naming.rosTypeName message.fileName message.part
  typeName := Naming.typeName message.fileName message.part
  kind := message.kind
  part := message.part
  signature
  definition := type.definition
  hasHeader := message.descriptor.hasHeader
  isServicePart := message.kind == .service
  isActionPart := message.kind == .action
  fields := message.descriptor.indexedFields.map fun (index, field) => .ofField index field
  constants := message.descriptor.indexedConstants.map fun (index, constant) =>
    .ofConstant index constant

/-- The data of a message type, which is resolved for it. -/
def MessageData.resolve (catalog : Catalog) (message : ParsedMessage) : Resolution MessageData := do
  let signed ← catalog.resolve message.identity
  pure (.ofMessage message signed.type signed.signature)

/-- The document of a package. A mere collection of packages has no messages. -/
def PackageDocument.resolve (catalog : Catalog) (rootNamespace : String)
    (package : SelectedPackage) : Resolution PackageDocument := do
  let messages ←
    if package.info.isMetaPackage then pure []
    else package.contents.messages.mapM (MessageData.resolve catalog)
  pure {
    package := .ofPackage rootNamespace package.info
    dependencies := package.publishedDependencies
    messages }

end RosInterface
