import RosInterface.MessageType.Descriptor
import RosInterface.MessageType.Grammar
import RosInterface.Text.Quoted

/-! # Declarations

A line of a definition declares a field (`int32 x`), declares a constant (`int32 X=1`) or, if it is
blank or a comment, declares nothing. A hash sign opens a comment, except that the value of a string
constant runs to the end of its line.
-/

namespace RosInterface

/-- Why a line is no declaration. -/
inductive DeclarationFault where
  /-- Nothing follows the type. -/
  | missingName (line : String)
  /-- The type is malformed, or does not fit a constant. -/
  | type (error : TypeError)
  | constantName (name : String)
  | fieldName (name : String)
deriving DecidableEq, Repr

/-- The wording of a fault. -/
def DeclarationFault.message : DeclarationFault → String
  | missingName line => "expected a name after type " ++ line
  | type error => error.message
  | constantName name => "invalid constant name " ++ name.quoted
  | fieldName name => "invalid field name " ++ name.quoted

namespace Declaration

/-- A line without its outer blanks declares nothing if it is empty or starts with a hash sign. -/
def isSilent : List Char → Bool
  | [] => true
  | first :: _ => first == '#'

/-- The text in front of the first hash sign. -/
def beforeComment (text : List Char) : List Char :=
  text.takeWhile (· != '#')

/-- A constant declaration from the texts on both sides of its equals sign. -/
def constantOf (type : TypeReference) (name value : List Char) : Item :=
  .constant ⟨type, String.ofList (Text.trim name), String.ofList (Text.trim value)⟩

/-- Whether a type is that of texts, whose constants may contain hash signs. -/
def isTextType (type : TypeReference) : Bool :=
  type.isBuiltIn && !type.isArray && type.name == "string"

/-- Reads the rest of a line as a text constant. It is none unless a proper name stands in front of
the first equals sign. -/
def textConstant? (type : TypeReference) (rest : List Char) : Option Item :=
  if isTextType type then
    match Text.cutAt (· == '=') rest with
    | some (name, value) =>
      if isMemberName (Text.trim name) then some (constantOf type name value) else none
    | none => none
  else none

/-- Reads the rest of a line, its comment removed, behind the type. -/
def member (type : TypeReference) (rest : List Char) : Except DeclarationFault Item :=
  match Text.cutAt (· == '=') rest with
  | some (name, value) =>
    if isMemberName (Text.trim name) then .ok (constantOf type name value)
    else .error (.constantName (String.ofList (Text.trim name)))
  | none =>
    if isMemberName rest then .ok (.field ⟨type, String.ofList rest⟩)
    else .error (.fieldName (String.ofList rest))

/-- Reads what follows the type of a declaration. -/
def afterType (type : TypeReference) (rest : List Char) : Except DeclarationFault Item :=
  match textConstant? type rest with
  | some item => .ok item
  | none => member type (Text.trim (beforeComment rest))

/-- Reads a line without outer blanks that declares something. -/
def ofWords (package : String) (line : List Char) : Except DeclarationFault Item :=
  match Text.cutAt Text.isBlank line with
  | none => .error (.missingName (String.ofList line))
  | some (type, rest) => do
    let type ← (TypeReference.parse package (String.ofList type)).mapError .type
    let item ← afterType type (Text.trimStart rest)
    item.check.mapError .type

/-- Reads a line of a definition of `package`; the outcome is absent if it declares nothing. -/
def ofLine (package line : String) : Except DeclarationFault (Option Item) :=
  let trimmed := Text.trim line.toList
  if isSilent trimmed then .ok none else (ofWords package trimmed).map some

end Declaration

end RosInterface
