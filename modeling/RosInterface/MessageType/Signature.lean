import RosInterface.Md5
import RosInterface.MessageType.Descriptor

/-! # Signatures of message types

The signature of a type is the digest of its shape: one line for each constant, then one line for
each field, where a field of a message type is represented by the signature of that type. Texts of
definitions and names of types do not enter it.

The lines are computed in any monad that can look signatures up, so that a plain recursion and one
that remembers earlier signatures share this definition.
-/

namespace RosInterface

/-- Whether every character of a text is ASCII. -/
def isAscii (text : String) : Bool :=
  text.toList.all (·.toNat < 128)

namespace Signature

variable {m : Type → Type} [Monad m]

/-- How the signature of a field's type is obtained; absent if the type is not linked. -/
abbrev Lookup (m : Type → Type) :=
  TypeReference → Option (ExceptT TypeError m String)

/-- The line of one field. The array bound of a message type is left out. -/
def fieldLine (owner : TypeIdentity) (lookup : Lookup m) (field : Field) :
    ExceptT TypeError m String :=
  if field.type.isBuiltIn then pure field.text
  else
    match lookup field.type with
    | none => throw (.unresolvedDependency owner.text field.identifier field.type.baseName)
    | some signature => do
      let sum ← signature
      pure (sum ++ " " ++ field.identifier)

/-- The lines that are digested: constants before fields, each in order of declaration. -/
def lines (owner : TypeIdentity) (descriptor : Descriptor) (lookup : Lookup m) :
    ExceptT TypeError m (List String) := do
  let fieldLines ← descriptor.fields.mapM (fieldLine owner lookup)
  pure (descriptor.constants.map Constant.text ++ fieldLines)

/-- The text that is digested. -/
def inputText (lines : List String) : String :=
  "\n".intercalate lines

/-- Digests the lines of a type, the first of which that is not ASCII is an error. -/
def ofLines (owner : TypeIdentity) (lines : List String) : Except TypeError String :=
  match lines.find? (!isAscii ·) with
  | some line => .error (.nonAscii owner.text line)
  | none => .ok (Md5.hexDigest (inputText lines))

/-- The signature of a type. -/
def compute (owner : TypeIdentity) (descriptor : Descriptor) (lookup : Lookup m) :
    ExceptT TypeError m String := do
  let lines ← lines owner descriptor lookup
  ExceptT.mk (pure (ofLines owner lines))

end Signature

end RosInterface
