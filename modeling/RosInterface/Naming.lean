import RosInterface.Definition.Kind
import RosInterface.Text.Uppercase

/-! # Names in generated code

How the names of packages, types and fields become names of the code that is generated for them.
-/

namespace RosInterface.Naming

/-- A word with its first character in upper case, which may make it longer. -/
def capitalizeChars : List Char → List Char
  | [] => []
  | first :: rest => Text.uppercase first ++ rest

/-- A word with its first character in upper case. -/
def capitalize (word : String) : String :=
  String.ofList (capitalizeChars word.toList)

/-- Continues a camel-case name. `started` says whether a character was written before, and `raise`
whether an underscore stood right before the rest. -/
def camelRest (started raise : Bool) : List Char → List Char
  | [] => []
  | c :: rest =>
    if c = '_' then camelRest started started rest
    else if raise then Text.uppercase c ++ camelRest true false rest
    else c :: camelRest true false rest

/-- `frame_id` as `frameId`: underscores vanish, and each but leading ones raises the character
behind it. -/
def camelCase (name : String) : String :=
  String.ofList (camelRest false false name.toList)

/-- `nav_msgs` as `NavMsgs`: the words between hyphens and underscores, each capitalized. -/
def pascalCase (name : String) : String :=
  String.ofList ((Text.pieces (fun c => c == '-' || c == '_') name.toList).flatMap capitalizeChars)

/-- The name of a message type on the wire: that of its file, and its part's suffix. -/
def rosTypeName (fileName : String) (part : Option MessagePart) : String :=
  match part with
  | some part => fileName.trimBlanks ++ part.suffix
  | none => fileName.trimBlanks

/-- The name of the code generated for a message type. -/
def typeName (fileName : String) (part : Option MessagePart) : String :=
  capitalize (rosTypeName fileName part)

/-- A namespace without outer blanks and without final dots. -/
def trimNamespace (text : String) : String :=
  String.ofList (Text.dropEnd (· == '.') (Text.trim text.toList))

/-- The namespace of a package's code below a root namespace, which may be empty. -/
def namespaceOf (root package : String) : String :=
  let root := trimNamespace root
  if root = "" then pascalCase package else root ++ "." ++ pascalCase package

end RosInterface.Naming
