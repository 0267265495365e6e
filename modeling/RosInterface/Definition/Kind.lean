import RosInterface.Path

/-! # Kinds of definition files

A package defines messages, services and actions. A service holds two message types and an action
three, one in each section of its file.
-/

namespace RosInterface

/-- What a definition file defines. -/
inductive MessageKind where
  | message
  | service
  | action
deriving DecidableEq, Repr, Inhabited

/-- The role of a message type within a service or an action. -/
inductive MessagePart where
  | request
  | response
  | goal
  | result
  | feedback
deriving DecidableEq, Repr, Inhabited

namespace MessagePart

/-- What the name of a part's type ends in. -/
def suffix : MessagePart → String
  | request => "Request"
  | response => "Response"
  | goal => "Goal"
  | result => "Result"
  | feedback => "Feedback"

end MessagePart

namespace MessageKind

/-- All kinds. -/
def all : List MessageKind :=
  [message, service, action]

/-- The extension of the files that hold a kind of definition. -/
def extension : MessageKind → String
  | message => "msg"
  | service => "srv"
  | action => "action"

/-- The kind of definition that files with a given extension hold. -/
def ofExtension? (extension : String) : Option MessageKind :=
  all.find? (·.extension == extension)

/-- The kind of definition that a file holds, told by its extension alone. -/
def ofPath? (path : Path) : Option MessageKind :=
  path.extension?.bind ofExtension?

/-- The parts that the sections of a file define, in order. -/
def parts : MessageKind → List MessagePart
  | message => []
  | service => [.request, .response]
  | action => [.goal, .result, .feedback]

/-- The role of each section of a file; the one section of a message file has none. -/
def sectionParts : MessageKind → List (Option MessagePart)
  | message => [none]
  | kind => kind.parts.map some

end MessageKind

/-- A definition file of a package. -/
structure MessageFile where
  path : Path
  kind : MessageKind
deriving DecidableEq, Repr, Inhabited

/-- The name that a file gives to what it defines. -/
def MessageFile.typeName (file : MessageFile) : String :=
  file.path.stem?.getD ""

end RosInterface
