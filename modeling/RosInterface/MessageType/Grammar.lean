import RosInterface.MessageType.Basic
import RosInterface.MessageType.Error
import RosInterface.Text.Blank

/-! # The grammar of type references

A reference is a base, followed by nothing, by `[]` or by `[N]`. The base is an identifier or two
identifiers with a slash between them. A bare identifier that is no built-in type belongs to the
package in which it is written, with `Header` as the one exception.
-/

namespace RosInterface

/-- The letters of ASCII. -/
def isLetter (c : Char) : Bool :=
  ('a' ≤ c && c ≤ 'z') || ('A' ≤ c && c ≤ 'Z')

/-- The characters that an identifier may have after its first one. -/
def isNameChar (c : Char) : Bool :=
  isLetter c || c.isDigit || c == '_'

/-- The names of packages and types: a letter, then letters, digits and underscores. -/
def isTypeName : List Char → Bool
  | [] => false
  | first :: rest => isLetter first && rest.all isNameChar

/-- The names of fields and constants, which may start with an underscore as well. -/
def isMemberName : List Char → Bool
  | [] => false
  | first :: rest => (isLetter first || first == '_') && rest.all isNameChar

/-- The number of values of an array size. -/
def arraySizeBound : Nat :=
  UInt64.size

/-- Reads an array size: decimal digits, after a plus sign or without one, within the bound. -/
def parseArraySize (text : List Char) : Option Nat :=
  let digits :=
    match text with
    | '+' :: rest => rest
    | _ => text
  if digits.isEmpty || !digits.all Char.isDigit then none
  else
    let size := Nat.ofDigitChars 10 digits 0
    if size < arraySizeBound then some size else none

/-- Drops a final `c`, and fails if the text does not end in it. -/
def dropFinal (c : Char) : List Char → Option (List Char)
  | [] => none
  | [last] => if last = c then some [] else none
  | first :: rest => (dropFinal c rest).map (first :: ·)

/-- Reads what follows the opening bracket of an array bound: the size, absent in `[]`. -/
def parseArrayBound (text : List Char) : Option (Option Nat) :=
  match dropFinal ']' text with
  | none => none
  | some [] => some none
  | some size => (parseArraySize size).map some

/-- Reads the part of a reference in front of its array bound. -/
def parseBase (currentPackage : String) (base : List Char) : Option TypeReference :=
  match Text.cutAt (· == '/') base with
  | some (package, name) =>
    if isTypeName package && isTypeName name then
      some (.message (String.ofList package) (String.ofList name))
    else none
  | none =>
    if !isTypeName base then none
    else
      let name := String.ofList base
      if isBuiltInName name then some (.builtIn name)
      else if name = headerIdentity.name then
        some ⟨headerIdentity.package, headerIdentity.name, false, 0, false⟩
      else some (.message currentPackage name)

/-- Reads a reference from a text without outer blanks. -/
def parseReference? (currentPackage : String) (text : List Char) : Option TypeReference :=
  match Text.cutAt (· == '[') text with
  | none => parseBase currentPackage text
  | some (base, bound) =>
    match parseArrayBound bound, parseBase currentPackage base with
    | some size, some type => some (type.toArray size)
    | _, _ => none

/-- Reads a reference as it is written in a definition of `currentPackage`. Blanks around it do not
matter. -/
def TypeReference.parse (currentPackage : String) (text : String) :
    Except TypeError TypeReference :=
  let trimmed := Text.trim text.toList
  match parseReference? currentPackage trimmed with
  | some type => .ok type
  | none => .error (.invalidReference (String.ofList trimmed))

end RosInterface
