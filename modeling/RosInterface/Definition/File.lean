import RosInterface.Definition.Declaration
import RosInterface.Definition.Section
import RosInterface.Naming

/-! # Definition files

Reading a file means to cut it into sections, to require as many of them as the kind of file asks
for, and to read the declarations of each. The first line that is no declaration is the error of
the whole file.
-/

namespace RosInterface

/-- A place in a definition file and what is wrong there. Line zero stands for the whole file. -/
structure DefinitionError where
  package : String
  file : String
  line : Nat
  reason : String
deriving DecidableEq, Repr

/-- The wording of an error. -/
def DefinitionError.message (error : DefinitionError) : String :=
  error.package ++ ": " ++ error.file ++ ":" ++ error.line.repr ++ ": " ++ error.reason

/-- A message type that a file defines. -/
structure ParsedMessage where
  type : TypeReference
  kind : MessageKind
  part : Option MessagePart
  /-- The name of the file, which the types of all its sections share. -/
  fileName : String
  descriptor : Descriptor
deriving DecidableEq, Repr

/-- The name of the message type. -/
def ParsedMessage.identity (message : ParsedMessage) : TypeIdentity :=
  message.type.identity

namespace Definition

/-- The declaration of a numbered line. -/
def readLine (package file : String) (entry : String × Nat) :
    Except DefinitionError (Option Item) :=
  (Declaration.ofLine package entry.1).mapError fun fault =>
    ⟨package, file, entry.2, fault.message⟩

/-- Reads the declarations of a section. -/
def readSection (package file : String) (part : Section) : Except DefinitionError Descriptor := do
  let items ← part.numberedLines.mapM (readLine package file)
  pure ⟨items.filterMap id, part.text⟩

/-- How the number of sections is found to be wrong. -/
def sectionCountReason (expected found : Nat) : String :=
  "expected " ++ expected.repr ++ " section(s), found " ++ found.repr

/-- Reads one section of a file as the message type that it defines. -/
def readMessage (package : String) (file : MessageFile) (part : Option MessagePart)
    (content : Section) : Except DefinitionError ParsedMessage := do
  let descriptor ← readSection package file.path.text content
  let type := TypeReference.message package (Naming.rosTypeName file.typeName part)
  pure ⟨type, file.kind, part, file.typeName, descriptor⟩

/-- Reads the text of a definition file of `package`. -/
def readMessages (package : String) (file : MessageFile) (text : String) :
    Except DefinitionError (List ParsedMessage) :=
  let sections := Section.ofText text
  let parts := file.kind.sectionParts
  if sections.length = parts.length then
    (parts.zip sections).mapM fun (part, content) => readMessage package file part content
  else
    .error ⟨package, file.path.text, 0, sectionCountReason parts.length sections.length⟩

end Definition

end RosInterface
