import RosInterface.Definition.File
import RosInterface.Sorted

/-! # Contents of packages

What the definition files of a package amount to: its message types, and the other packages whose
types they use.
-/

namespace RosInterface

/-- The message types of a package with what they refer to outside it. -/
structure PackageContents where
  package : String
  /-- The packages that the message types refer to, sorted. -/
  dependencies : List String := []
  /-- The types of other packages that the message types refer to, sorted. -/
  externalTypes : List TypeIdentity := []
  messages : List ParsedMessage := []
deriving DecidableEq, Repr

namespace PackageContents

/-- Records that the package needs another one. -/
def addDependency (contents : PackageContents) (package : String) : PackageContents :=
  { contents with dependencies := Sorted.insertName package contents.dependencies }

/-- Records the type of one field, if another package defines it. -/
def addUse (contents : PackageContents) (type : TypeReference) : PackageContents :=
  match type.package with
  | none => contents
  | some package =>
    if package = contents.package then contents
    else
      { contents.addDependency package with
        externalTypes :=
          Sorted.insert TypeIdentity.compare type.identity contents.externalTypes }

/-- Adds a message type and what its fields refer to. -/
def addMessage (contents : PackageContents) (message : ParsedMessage) : PackageContents :=
  let used := message.descriptor.fields.foldl (fun c field => c.addUse field.type) contents
  { used with messages := contents.messages ++ [message] }

/-- Adds message types in order. -/
def addMessages (contents : PackageContents) (messages : List ParsedMessage) : PackageContents :=
  messages.foldl addMessage contents

end PackageContents

end RosInterface
