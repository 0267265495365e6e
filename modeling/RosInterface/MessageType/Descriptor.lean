import RosInterface.MessageType.Basic
import RosInterface.MessageType.Error

/-! # Parsed definitions of message types

A `Descriptor` holds the fields and constants of one message type in the order in which they were
declared, beside the text that declared them.
-/

namespace RosInterface

/-- A value that every message of the type carries. -/
structure Field where
  type : TypeReference
  identifier : String
deriving DecidableEq, Repr, Inhabited

/-- A named value that belongs to the type itself. -/
structure Constant where
  type : TypeReference
  identifier : String
  value : String
deriving DecidableEq, Repr, Inhabited

/-- One declaration of a definition. -/
inductive Item where
  | field (field : Field)
  | constant (constant : Constant)
deriving DecidableEq, Repr

namespace Item

/-- The field that an item declares. -/
def field? : Item → Option Field
  | field f => some f
  | constant _ => none

/-- The constant that an item declares. -/
def constant? : Item → Option Constant
  | field _ => none
  | constant c => some c

end Item

/-- The written form of a field declaration. -/
def Field.text (field : Field) : String :=
  field.type.text ++ " " ++ field.identifier

/-- The written form of a constant declaration. -/
def Constant.text (constant : Constant) : String :=
  constant.type.text ++ " " ++ constant.identifier ++ "=" ++ constant.value

/-- The written form of a declaration. -/
def Item.text : Item → String
  | field f => f.text
  | constant c => c.text

/-- Accepts a declaration unless it is a constant of a message type or of an array type. -/
def Item.check : Item → Except TypeError Item
  | field f => .ok (field f)
  | constant c =>
    if c.type.isBuiltIn && !c.type.isArray then .ok (constant c)
    else .error (.invalidConstant c.identifier c.type.text)

/-- The declarations of a message type and the text that they were read from. -/
structure Descriptor where
  items : List Item
  definition : String
deriving DecidableEq, Repr, Inhabited

namespace Descriptor

/-- A descriptor without declarations. -/
def ofDefinition (definition : String) : Descriptor :=
  ⟨[], definition⟩

/-- Appends a declaration, if it is a proper one. -/
def addItem (descriptor : Descriptor) (item : Item) : Except TypeError Descriptor :=
  item.check.map fun item => { descriptor with items := descriptor.items ++ [item] }

/-- The fields in order of declaration. -/
def fields (descriptor : Descriptor) : List Field :=
  descriptor.items.filterMap Item.field?

/-- The constants in order of declaration. -/
def constants (descriptor : Descriptor) : List Constant :=
  descriptor.items.filterMap Item.constant?

/-- The declarations with their positions, counted from one. -/
def indexedItems (descriptor : Descriptor) : List (Item × Nat) :=
  descriptor.items.zipIdx 1

/-- The fields with their positions among all declarations. -/
def indexedFields (descriptor : Descriptor) : List (Nat × Field) :=
  descriptor.indexedItems.filterMap fun (item, index) => item.field?.map (index, ·)

/-- The constants with their positions among all declarations. -/
def indexedConstants (descriptor : Descriptor) : List (Nat × Constant) :=
  descriptor.indexedItems.filterMap fun (item, index) => item.constant?.map (index, ·)

/-- The fields whose types are defined by messages. -/
def messageFields (descriptor : Descriptor) : List Field :=
  descriptor.fields.filter (!·.type.isBuiltIn)

/-- The message types that the fields need, each one where it is first used. -/
def dependencyTypes (descriptor : Descriptor) : List TypeIdentity :=
  (descriptor.messageFields.map (·.type.identity)).eraseDups

/-- Whether messages of the type open with the common header under its usual name. -/
def hasHeader (descriptor : Descriptor) : Bool :=
  match descriptor.fields with
  | [] => false
  | first :: _ =>
    first.identifier == "header" && !first.type.isArray && first.type.identity == headerIdentity

end Descriptor

end RosInterface
