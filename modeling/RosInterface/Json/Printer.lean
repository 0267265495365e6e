import RosInterface.Json.Basic

/-! # Printing JSON

Values are printed either on one line without spaces, or with one member a line, indented by two
spaces for each level. Texts keep every character that JSON lets stand.
-/

namespace RosInterface.Json

/-- A control character by its number, in four digits. -/
def controlEscape (c : Char) : List Char :=
  '\\' :: 'u' :: '0' :: '0' ::
    [Nat.digitChar (c.toNat / 16), Nat.digitChar (c.toNat % 16)]

/-- The form of a character inside a text. -/
def escapeChar (c : Char) : List Char :=
  match c with
  | '\x22' => ['\\', '\x22']
  | '\\' => ['\\', '\\']
  | '\x08' => ['\\', 'b']
  | '\x0c' => ['\\', 'f']
  | '\n' => ['\\', 'n']
  | '\r' => ['\\', 'r']
  | '\t' => ['\\', 't']
  | _ => if c.toNat < 0x20 then controlEscape c else [c]

/-- A text between quotes. -/
def quote (text : String) : String :=
  String.ofList ('\x22' :: (text.toList.flatMap escapeChar ++ ['\x22']))

/-- How the members of arrays and objects are laid out. -/
inductive Layout where
  | compact
  | indented
deriving DecidableEq, Repr

namespace Layout

/-- What stands in front of a member at a depth, or in front of the closing bracket one level
above. -/
def lineStart (layout : Layout) (depth : Nat) : String :=
  match layout with
  | compact => ""
  | indented => "\n" ++ String.ofList (List.replicate (2 * depth) ' ')

/-- What stands between the name and the value of a member. -/
def colon : Layout → String
  | compact => ":"
  | indented => ": "

/-- Members between brackets. Without members the brackets touch. -/
def enclose (layout : Layout) (depth : Nat) (left right : String) (members : List String) :
    String :=
  match members with
  | [] => left ++ right
  | _ =>
    left ++ ",".intercalate (members.map (layout.lineStart (depth + 1) ++ ·)) ++
      layout.lineStart depth ++ right

end Layout

/-- The brackets around the members of an object. -/
def braces : String × String :=
  ("\x7b", "\x7d")

mutual

/-- Prints a value that stands at a depth. -/
def printAt (layout : Layout) (depth : Nat) : Json → String
  | null => "null"
  | bool true => "true"
  | bool false => "false"
  | integer value => toString value
  | real text => text
  | string text => quote text
  | array members => layout.enclose depth "[" "]" (printMembers layout (depth + 1) members)
  | object members =>
    layout.enclose depth braces.1 braces.2 (printFields layout (depth + 1) members)

/-- Prints the members of an array. -/
def printMembers (layout : Layout) (depth : Nat) : List Json → List String
  | [] => []
  | member :: others => printAt layout depth member :: printMembers layout depth others

/-- Prints the members of an object. -/
def printFields (layout : Layout) (depth : Nat) : List (String × Json) → List String
  | [] => []
  | (name, value) :: others =>
    (quote name ++ layout.colon ++ printAt layout depth value) ::
      printFields layout depth others

end

/-- Prints a value. -/
def print (layout : Layout) (value : Json) : String :=
  printAt layout 0 value

end RosInterface.Json
