import RosInterface.Document.Encoding
import RosInterface.Generation.Directories

/-! # Descriptor files

The descriptor of a package is its document as a JSON file. It is finished beside the flattened
definitions of the package's messages in the staging directory, and then copied to the directory
named after the package's namespace.
-/

namespace RosInterface.DescriptorFile

/-- The name of a package's descriptor. -/
def fileName (document : PackageDocument) : String :=
  document.package.rosName ++ ".json"

/-- The name of the file that holds the flattened definition of a message type. -/
def definitionName (message : MessageData) : String :=
  message.rosTypeName ++ ".msgdef"

/-- Writes the flattened definition of a message type. -/
def writeDefinition (directories : PackageDirectories) (message : MessageData) :
    FileTree.Action Unit :=
  FileTree.writeText (directories.staging.join (definitionName message)) message.definition

/-- The path of the finished descriptor. -/
def target (document : PackageDocument) (directories : PackageDirectories) : Path :=
  (directories.output.join document.package.codeNamespace).join (fileName document)

/-- Writes the files of a package and gives the path of its descriptor. -/
def write (layout : Json.Layout) (document : PackageDocument) (directories : PackageDirectories) :
    FileTree.Action Path := do
  document.messages.forM (writeDefinition directories)
  let staged := directories.staging.join (fileName document)
  FileTree.writeText staged (document.toJson.print layout)
  FileTree.makeDirectories (directories.output.join document.package.codeNamespace)
  let finished := target document directories
  FileTree.copyFile staged finished
  pure finished

end RosInterface.DescriptorFile
